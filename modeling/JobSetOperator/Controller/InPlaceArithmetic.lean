import JobSetOperator.Controller.InPlaceRestart

/-!
# The arithmetic of in-place attempts

An attempt is read from its annotation as a 64-bit integer, checked for its sign
and then kept in 32 bits. The integers in the annotations are the ones the
controller works with exactly as long as they and the restarts counted from them
fit 32 bits; a larger one is taken for a negative attempt.
-/
namespace JobSetOperator

/-! ## 32 bits -/

/-- A difference of 32 bits does not see that its second operand was cut. -/
theorem int32_sub_int32 (a b : ℤ) : int32 (a - int32 b) = int32 (a - b) := by
  unfold int32
  exact Int.sub_bmod_bmod

/-! ## The collection -/

/-- The integer the annotation of a pod denotes. -/
def Pod.writtenAttempt (pod : Pod) : Option ℤ :=
  (pod.annotations.lookup inPlaceRestartAttemptKey).bind parseInt

/-- The integers in the annotations of the pods that have not failed. -/
def writtenAttempts (pods : List Pod) : List ℤ :=
  (pods.filter Pod.annotated).map fun pod => pod.writtenAttempt.getD 0

/-- All annotations are accepted: they denote natural numbers of 64 bits. -/
def AttemptsAccepted (pods : List Pod) : Prop :=
  ∀ pod ∈ pods, pod.annotated = true → ∃ n, pod.writtenAttempt = some n ∧ 0 ≤ n ∧ n < 2 ^ 63

theorem atoi_eq_some_iff {s : String} {n : ℤ} :
    atoi s = some n ↔ parseInt s = some n ∧ -(2 ^ 63) ≤ n ∧ n < 2 ^ 63 := by
  simp [atoi, Option.filter_eq_some_iff]

/-- Accepted annotations are collected in order, cut to 32 bits; any other one is an error. -/
theorem getPodInPlaceRestartAttempts_spec (pods : List Pod) :
    (AttemptsAccepted pods ∧
      getPodInPlaceRestartAttempts pods = .ok ((writtenAttempts pods).map int32)) ∨
    (¬ AttemptsAccepted pods ∧ getPodInPlaceRestartAttempts pods = .error invalidAttempt) := by
  induction pods with
  | nil => exact Or.inl ⟨by simp [AttemptsAccepted], rfl⟩
  | cons pod rest ih =>
    have hskip : pod.annotated = false →
        (AttemptsAccepted (pod :: rest) ↔ AttemptsAccepted rest) ∧
          writtenAttempts (pod :: rest) = writtenAttempts rest := by
      intro hpod
      simp [AttemptsAccepted, writtenAttempts, hpod]
    unfold getPodInPlaceRestartAttempts
    by_cases hfailed : pod.phase = .podFailed
    · obtain ⟨haccepted, hwritten⟩ := hskip (by simp [Pod.annotated, hfailed])
      rw [if_pos hfailed, haccepted, hwritten]
      exact ih
    · rw [if_neg hfailed]
      cases hraw : pod.annotations.lookup inPlaceRestartAttemptKey with
      | none =>
        obtain ⟨haccepted, hwritten⟩ := hskip (by simp [Pod.annotated, hraw])
        rw [haccepted, hwritten]
        exact ih
      | some raw =>
        have hannotated : pod.annotated = true := by simp [Pod.annotated, hfailed, hraw]
        have hattempt : pod.writtenAttempt = parseInt raw := by simp [Pod.writtenAttempt, hraw]
        have hrefused : (∀ n, parseInt raw = some n → ¬ (0 ≤ n ∧ n < 2 ^ 63)) →
            ¬ AttemptsAccepted (pod :: rest) := by
          intro hbad haccepted
          obtain ⟨n, hn, hrange⟩ := haccepted pod List.mem_cons_self hannotated
          exact hbad n (hattempt.symm.trans hn) hrange
        dsimp only
        cases hn : atoi raw with
        | none =>
          refine Or.inr ⟨hrefused ?_, rfl⟩
          intro n hparse hrange
          rw [atoi_eq_some_iff.mpr ⟨hparse, by omega⟩] at hn
          cases hn
        | some n =>
          obtain ⟨hparse, hlow, hhigh⟩ := atoi_eq_some_iff.mp hn
          dsimp only
          by_cases hneg : n < 0
          · rw [if_pos hneg]
            refine Or.inr ⟨hrefused ?_, rfl⟩
            intro m hm hrange
            rw [hparse] at hm
            cases hm
            omega
          · rw [if_neg hneg]
            have hwritten : writtenAttempts (pod :: rest) = n :: writtenAttempts rest := by
              simp [writtenAttempts, hannotated, hattempt, hparse]
            have haccepted : AttemptsAccepted (pod :: rest) ↔ AttemptsAccepted rest := by
              unfold AttemptsAccepted
              rw [List.forall_mem_cons]
              refine and_iff_right fun _ => ⟨n, hattempt.trans hparse, by omega, hhigh⟩
            rw [haccepted, hwritten]
            rcases ih with ⟨hrest, heq⟩ | ⟨hrest, heq⟩
            · exact Or.inl ⟨hrest, by rw [heq]; rfl⟩
            · exact Or.inr ⟨hrest, by rw [heq]; rfl⟩

/-! ## Every use -/

/-- The restarts `exceededMaxRestarts` compares with the budget. -/
def podInPlaceRestartsCountTowardsMax (js : JobSet) (attempts : List ℤ) : ℤ :=
  int32 (slicesMax attempts - int32 (js.status.restarts - js.status.restartsCountTowardsMax))

theorem exceededMaxRestarts_eq (js : JobSet) (maxRestarts : ℤ) (attempts : List ℤ) :
    exceededMaxRestarts js maxRestarts attempts =
      decide (podInPlaceRestartsCountTowardsMax js attempts > maxRestarts) := rfl

/-- The two counters stay, or the current attempt becomes the common one, or the previous attempt
one less than the largest; what is written is not negative. -/
def CountersExact (attempts : List ℤ) (p p' : Pass) : Prop :=
  p'.js.status.inPlaceCounters = p.js.status.inPlaceCounters ∨
  (∃ a ∈ attempts, 0 ≤ a ∧ (∀ x ∈ attempts, x = a) ∧ p'.js.status.inPlaceCounters =
    (p.js.status.previousInPlaceRestartAttempt, some a)) ∨
  (∃ m ∈ attempts, 0 ≤ m - 1 ∧ (∀ x ∈ attempts, x ≤ m) ∧ p'.js.status.inPlaceCounters =
    (some (m - 1), p.js.status.currentInPlaceRestartAttempt))

/-- Attempts are handled exactly: unless the container restarts already fail the JobSet, they are
refused with an error, or the integers in the annotations are the ones every use of them sees. -/
def HandledExactly (now : Time) (pods : List Pod) (p : Pass) : Prop :=
  ∀ fp, p.js.spec.failurePolicy = some fp → ¬ getMaxContainerRestartCount pods > fp.maxRestarts →
    (∃ e, reconcileInPlaceRestart now pods p = .error e ∧
      getPodInPlaceRestartAttempts pods = .error e) ∨
    (getPodInPlaceRestartAttempts pods = .ok (writtenAttempts pods) ∧
      (∀ a ∈ writtenAttempts pods, 0 ≤ a) ∧
      podInPlaceRestartsCountTowardsMax p.js (writtenAttempts pods) =
        slicesMax (writtenAttempts pods) -
          (p.js.status.restarts - p.js.status.restartsCountTowardsMax) ∧
      ∀ p', reconcileInPlaceRestart now pods p = .ok p' →
        CountersExact (writtenAttempts pods) p p')

/-- The integers that are used fit 32 bits. -/
def AttemptsFit (pods : List Pod) (js : JobSet) : Prop :=
  ∀ fp, js.spec.failurePolicy = some fp → ¬ getMaxContainerRestartCount pods > fp.maxRestarts →
    AttemptsAccepted pods →
      (∀ a ∈ writtenAttempts pods, a < 2 ^ 31) ∧
      -(2 ^ 31) ≤ slicesMax (writtenAttempts pods) -
        (js.status.restarts - js.status.restartsCountTowardsMax) ∧
      slicesMax (writtenAttempts pods) -
        (js.status.restarts - js.status.restartsCountTowardsMax) < 2 ^ 31

theorem writtenAttempts_nonneg {pods : List Pod} (h : AttemptsAccepted pods) :
    ∀ a ∈ writtenAttempts pods, 0 ≤ a := by
  intro a ha
  obtain ⟨pod, hpod, rfl⟩ := List.mem_map.mp ha
  obtain ⟨hmem, hannotated⟩ := List.mem_filter.mp hpod
  obtain ⟨n, hn, hnonneg, -⟩ := h pod hmem hannotated
  rw [hn]
  exact hnonneg

theorem le_foldl_max (xs : List ℤ) (m : ℤ) : m ≤ xs.foldl max m ∧ ∀ x ∈ xs, x ≤ xs.foldl max m := by
  induction xs generalizing m with
  | nil => simp
  | cons y ys ih =>
    obtain ⟨hfirst, hrest⟩ := ih (max m y)
    rw [List.foldl_cons, List.forall_mem_cons]
    exact ⟨(le_max_left m y).trans hfirst, (le_max_right m y).trans hfirst, hrest⟩

theorem le_slicesMax {attempts : List ℤ} {x : ℤ} (hx : x ∈ attempts) : x ≤ slicesMax attempts := by
  cases attempts with
  | nil => simp at hx
  | cons y ys =>
    obtain ⟨hfirst, hrest⟩ := le_foldl_max ys y
    rcases List.mem_cons.mp hx with rfl | hx
    · exact hfirst
    · exact hrest x hx

/-- Attempts that are kept as they are reach the status as they are. -/
theorem countersExact_of_collected {now : Time} {pods : List Pod} {p p' : Pass}
    {attempts : List ℤ} (hcollected : getPodInPlaceRestartAttempts pods = .ok attempts)
    (hnonneg : ∀ a ∈ attempts, 0 ≤ a) (hfit : ∀ a ∈ attempts, a < 2 ^ 31)
    (h : reconcileInPlaceRestart now pods p = .ok p') : CountersExact attempts p p' := by
  rcases reconcileInPlaceRestart_cases h with hsame | ⟨l, a, hl, -, hne, hall, hset⟩ |
    ⟨l, hl, hne, hzero, -, hset⟩
  · exact Or.inl hsame
  · rw [hcollected] at hl
    cases hl
    obtain ⟨x, hx⟩ := List.exists_mem_of_ne_nil attempts hne
    have ha : a ∈ attempts := hall x hx ▸ hx
    exact Or.inr (Or.inl ⟨a, ha, hnonneg a ha, hall, hset⟩)
  · rw [hcollected] at hl
    cases hl
    have hmem := slicesMax_mem hne
    have hlow := hnonneg _ hmem
    have hhigh := hfit _ hmem
    rw [int32_of_range (n := slicesMax attempts - 1) (by omega) (by omega)] at hset
    exact Or.inr (Or.inr ⟨slicesMax attempts, hmem, by omega, fun x hx => le_slicesMax hx, hset⟩)

/-- An annotation that is not accepted stops the call. -/
theorem reconcileInPlaceRestart_refused {now : Time} {pods : List Pod} {p : Pass}
    {fp : FailurePolicy} {e : String} (hpolicy : p.js.spec.failurePolicy = some fp)
    (hcount : ¬ getMaxContainerRestartCount pods > fp.maxRestarts)
    (hattempts : getPodInPlaceRestartAttempts pods = .error e) :
    reconcileInPlaceRestart now pods p = .error e := by
  unfold reconcileInPlaceRestart
  rw [hpolicy]
  dsimp only
  rw [if_neg hcount, hattempts]
  rfl

/-- Attempts that are seen as they are have not been cut. -/
theorem HandledExactly.fit {now : Time} {pods : List Pod} {p : Pass}
    (h : HandledExactly now pods p) : AttemptsFit pods p.js := by
  intro fp hfp hcount haccepted
  rcases getPodInPlaceRestartAttempts_spec pods with ⟨-, hcut⟩ | ⟨hrefused, -⟩
  · rcases h fp hfp hcount with ⟨e, -, herror⟩ | ⟨hcollected, -, hcounted, -⟩
    · rw [hcut] at herror
      cases herror
    · rw [hcut] at hcollected
      have hkept : (writtenAttempts pods).map int32 = (writtenAttempts pods).map id := by
        simpa using Except.ok.inj hcollected
      constructor
      · intro a ha
        exact (int32_eq_iff.mp (List.map_inj_left.mp hkept a ha)).2
      · rw [podInPlaceRestartsCountTowardsMax, int32_sub_int32] at hcounted
        exact int32_eq_iff.mp hcounted
  · exact absurd haccepted hrefused

/-- The attempts are handled exactly if and only if they fit. -/
theorem attempts_exact_iff (now : Time) (pods : List Pod) (p : Pass) :
    HandledExactly now pods p ↔ AttemptsFit pods p.js := by
  constructor
  · exact HandledExactly.fit
  · intro h fp hfp hcount
    rcases getPodInPlaceRestartAttempts_spec pods with ⟨haccepted, hcut⟩ | ⟨-, herror⟩
    · obtain ⟨hfit, hrange⟩ := h fp hfp hcount haccepted
      have hnonneg := writtenAttempts_nonneg haccepted
      have hkept : (writtenAttempts pods).map int32 = writtenAttempts pods := by
        conv_rhs => rw [← List.map_id (writtenAttempts pods)]
        apply List.map_congr_left
        intro a ha
        have hlow := hnonneg a ha
        exact int32_of_range (by omega) (hfit a ha)
      rw [hkept] at hcut
      refine Or.inr ⟨hcut, hnonneg, ?_, ?_⟩
      · rw [podInPlaceRestartsCountTowardsMax, int32_sub_int32]
        exact int32_eq_iff.mpr hrange
      · intro p' hp'
        exact countersExact_of_collected hcut hnonneg hfit hp'
    · exact Or.inl ⟨_, reconcileInPlaceRestart_refused hfp hcount herror, herror⟩

/-- A pod with an attempt above the 32-bit integers. -/
def lateAttempt : Pod :=
  ⟨"js-w-0-0", ∅, Finmap.singleton inPlaceRestartAttemptKey "2147483648", .podRunning, [], []⟩

/-- One pod restarted in place. -/
def lonePod : JobSet := plainSet [.single "w" 1] 1 .inPlaceRestart

/-- The only pod writes 2147483648 and the status gets a negative attempt. -/
theorem attempt_negative :
    ((reconcileInPlaceRestart 0 [lateAttempt] (.start lonePod)).toOption.map fun p' =>
      p'.js.status.currentInPlaceRestartAttempt) = some (some (-2147483648)) ∧
    ¬ ∀ now pods p, HandledExactly now pods p := by
  constructor
  · decide +kernel
  · intro h
    have hfit := (h 0 [lateAttempt] (.start lonePod)).fit
    have haccepted : AttemptsAccepted [lateAttempt] := by
      intro pod hpod _
      rw [List.mem_singleton.mp hpod]
      exact ⟨2147483648, by decide +kernel, by norm_num, by norm_num⟩
    obtain ⟨hsmall, -⟩ := hfit ⟨1, .inPlaceRestart, []⟩ rfl (by decide) haccepted
    have hmem : (2147483648 : ℤ) ∈ writtenAttempts [lateAttempt] := by decide +kernel
    have := hsmall _ hmem
    norm_num at this

end JobSetOperator
