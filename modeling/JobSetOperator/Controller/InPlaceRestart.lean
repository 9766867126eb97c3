import JobSetOperator.Controller.Conditions

/-!
# The controller's half of the in-place restart protocol

`reconcileInPlaceRestart` reads the attempts the agents have annotated on their
pods and moves the two counters of the status. The lemma
`reconcileInPlaceRestart_cases` lists its outcomes: it fails the JobSet, it
leaves the status alone, it sets the current attempt to the value all expected
pods agree on, or it raises the previous attempt to one below the maximum.
-/
namespace JobSetOperator

/-- `isInPlaceRestartStrategy`. -/
def isInPlaceRestartStrategy (js : JobSet) : Bool :=
  match js.spec.failurePolicy with
  | some fp => fp.restartStrategy = .inPlaceRestart
  | none => false

/-- `getMaxContainerRestartCount`. -/
def getMaxContainerRestartCount (associatedPods : List Pod) : ℤ :=
  associatedPods.foldl (fun maxRestartCount pod =>
    pod.containerStatuses.foldl max (pod.initContainerStatuses.foldl max maxRestartCount)) 0

def invalidAttempt : String :=
  "invalid value for annotation " ++ inPlaceRestartAttemptKey ++ ", must be non-negative integer"

/-- `getPodInPlaceRestartAttempts`: failed pods and pods without the annotation are skipped. -/
def getPodInPlaceRestartAttempts : List Pod → Except String (List ℤ)
  | [] => .ok []
  | pod :: rest =>
    if pod.phase = .podFailed then getPodInPlaceRestartAttempts rest
    else match pod.annotations.lookup inPlaceRestartAttemptKey with
      | none => getPodInPlaceRestartAttempts rest
      | some raw =>
        match atoi raw with
        | none => .error invalidAttempt
        | some attempt =>
          if attempt < 0 then .error invalidAttempt
          else (getPodInPlaceRestartAttempts rest).map (int32 attempt :: ·)

/-- `slices.Max`, which the callers use on nonempty slices only. -/
def slicesMax : List ℤ → ℤ
  | [] => 0
  | x :: xs => xs.foldl max x

/-- `exceededMaxRestarts`; restarts that do not count raise the allowance. -/
def exceededMaxRestarts (js : JobSet) (maxRestarts : ℤ) (attempts : List ℤ) : Bool :=
  let uncountedRestarts := int32 (js.status.restarts - js.status.restartsCountTowardsMax)
  int32 (slicesMax attempts - uncountedRestarts) > maxRestarts

def unequalSizes (rjobName : String) : String :=
  rjobName ++ ": in-place restart requires jobTemplate.spec.completions == " ++
    "jobTemplate.spec.parallelism != nil"

/-- The loop of `getTotalNumberOfPods`; each product is a 32-bit one. -/
def totalPods : List ReplicatedJob → Except String ℤ
  | [] => .ok 0
  | rjob :: rest =>
    match rjob.template.spec.completions, rjob.template.spec.parallelism with
    | some completions, some parallelism =>
      if completions ≠ parallelism then .error (unequalSizes rjob.name)
      else (totalPods rest).map (int32 (rjob.replicas * parallelism) + ·)
    | _, _ => .error (unequalSizes rjob.name)

/-- `getTotalNumberOfPods`. -/
def getTotalNumberOfPods (js : JobSet) : Except String ℤ := totalPods js.spec.replicatedJobs

/-- `allEqual`. -/
def allEqual : List ℤ → Bool
  | [] => false
  | value :: values => values.all fun v => v = value

/-- `updateCurrentInPlaceRestartAttempt`; all values are equal, so the first is taken. -/
def updateCurrentInPlaceRestartAttempt (attempts : List ℤ) (p : Pass) : Pass :=
  let newCurrent := attempts.headD 0
  if p.js.status.currentInPlaceRestartAttempt = some newCurrent then p
  else
    { p with
      js := { p.js with
        status := { p.js.status with currentInPlaceRestartAttempt := some newCurrent } }
      opts := { p.opts with shouldUpdate := true } }

/-- `updatePreviousInPlaceRestartAttempt`; the counter never goes down. -/
def updatePreviousInPlaceRestartAttempt (attempts : List ℤ) (p : Pass) : Pass :=
  if attempts = [] then p
  else
    let newPrevious := int32 (slicesMax attempts - 1)
    if p.js.status.previousInPlaceRestartAttempt.any (newPrevious ≤ ·) then p
    else
      { p with
        js := { p.js with
          status := { p.js.status with previousInPlaceRestartAttempt := some newPrevious } }
        opts := { p.opts with shouldUpdate := true } }

def reachedMaxRestartsInPlace (now : Time) (p : Pass) : Pass :=
  setJobSetFailedCondition now "ReachedMaxRestarts"
    "jobset failed due to reaching max number of restarts" p

/-- `reconcileInPlaceRestart`, on the pods the cache lists. -/
def reconcileInPlaceRestart (now : Time) (associatedPods : List Pod) (p : Pass) :
    Except String Pass := do
  match p.js.spec.failurePolicy with
  | none => .error "nil pointer dereference"
  | some fp =>
    if getMaxContainerRestartCount associatedPods > fp.maxRestarts then
      pure (reachedMaxRestartsInPlace now p)
    else
      let attempts ← getPodInPlaceRestartAttempts associatedPods
      if exceededMaxRestarts p.js fp.maxRestarts attempts then
        pure (reachedMaxRestartsInPlace now p)
      else
        let totalNumberOfPods ← getTotalNumberOfPods p.js
        if (attempts.length : ℤ) = totalNumberOfPods ∧ allEqual attempts then
          pure (updateCurrentInPlaceRestartAttempt attempts p)
        else if attempts = [] ∨ slicesMax attempts = 0 then pure p
        else pure (updatePreviousInPlaceRestartAttempt attempts p)

/-! ## Outcomes -/

theorem allEqual_iff {attempts : List ℤ} :
    allEqual attempts = true ↔ attempts ≠ [] ∧ ∀ a ∈ attempts, a = attempts.headD 0 := by
  cases attempts with
  | nil => simp [allEqual]
  | cons x xs => simp [allEqual]

theorem foldl_max_mem (xs : List ℤ) (m : ℤ) : xs.foldl max m = m ∨ xs.foldl max m ∈ xs := by
  induction xs generalizing m with
  | nil => exact Or.inl rfl
  | cons x xs ih =>
    rw [List.foldl_cons]
    rcases ih (max m x) with h | h
    · rcases max_choice m x with hm | hm
      · exact Or.inl (h.trans hm)
      · exact Or.inr (by rw [h, hm]; simp)
    · exact Or.inr (List.mem_cons_of_mem x h)

/-- The maximum of a nonempty slice is one of its values. -/
theorem slicesMax_mem {attempts : List ℤ} (h : attempts ≠ []) : slicesMax attempts ∈ attempts := by
  cases attempts with
  | nil => exact absurd rfl h
  | cons x xs =>
    change xs.foldl max x ∈ x :: xs
    rcases foldl_max_mem xs x with hx | hx
    · rw [hx]
      simp
    · exact List.mem_cons_of_mem x hx

/-- The in-place counters of a status. -/
def JobSetStatus.inPlaceCounters (status : JobSetStatus) : Option ℤ × Option ℤ :=
  (status.previousInPlaceRestartAttempt, status.currentInPlaceRestartAttempt)

theorem setCondition_inPlaceCounters (now : Time) (o : ConditionOpts) (p : Pass) :
    (setCondition now o p).js.status.inPlaceCounters = p.js.status.inPlaceCounters := by
  rw [setCondition_js]
  rfl

theorem setJobSetFailedCondition_inPlaceCounters (now : Time) (reason msg : String) (p : Pass) :
    (setJobSetFailedCondition now reason msg p).js.status.inPlaceCounters =
      p.js.status.inPlaceCounters := by
  have h := setCondition_inPlaceCounters now
    (conditionOpts eventTypeWarning .jobSetFailed .conditionTrue reason msg) p
  have h' := setCondition_inPlaceCounters now
    (conditionOpts eventTypeNormal .jobSetRestarting .conditionFalse "JobSetFailed" "jobset failed")
    (setCondition now (conditionOpts eventTypeWarning .jobSetFailed .conditionTrue reason msg) p)
  exact h'.trans h

/-- A successful call fails the JobSet, changes nothing, or sets the in-place counters. -/
theorem reconcileInPlaceRestart_effect {now : Time} {pods : List Pod} {p p' : Pass}
    (h : reconcileInPlaceRestart now pods p = .ok p') :
    p' = reachedMaxRestartsInPlace now p ∨ p' = p ∨ ∃ previous current,
      p' = { p with
        js := { p.js with status := { p.js.status with
          previousInPlaceRestartAttempt := previous, currentInPlaceRestartAttempt := current } }
        opts := { p.opts with shouldUpdate := true } } := by
  unfold reconcileInPlaceRestart at h
  cases hfp : p.js.spec.failurePolicy with
  | none => simp [hfp] at h
  | some fp =>
    simp only [hfp] at h
    split_ifs at h
    · cases h
      exact Or.inl rfl
    · obtain ⟨attempts, -, h⟩ := except_bind_ok h
      by_cases he : exceededMaxRestarts p.js fp.maxRestarts attempts = true
      · rw [if_pos he] at h
        cases h
        exact Or.inl rfl
      · rw [if_neg he] at h
        obtain ⟨total, -, h⟩ := except_bind_ok h
        right
        split_ifs at h
        · cases h
          unfold updateCurrentInPlaceRestartAttempt
          dsimp only
          split_ifs
          · exact Or.inl rfl
          · exact Or.inr ⟨_, _, rfl⟩
        · cases h
          exact Or.inl rfl
        · cases h
          unfold updatePreviousInPlaceRestartAttempt
          dsimp only
          split_ifs
          · exact Or.inl rfl
          · exact Or.inl rfl
          · exact Or.inr ⟨_, _, rfl⟩

/-- What a successful call does to the two counters. -/
theorem reconcileInPlaceRestart_cases {now : Time} {pods : List Pod} {p p' : Pass}
    (h : reconcileInPlaceRestart now pods p = .ok p') :
    p'.js.status.inPlaceCounters = p.js.status.inPlaceCounters ∨
    (∃ attempts a, getPodInPlaceRestartAttempts pods = .ok attempts ∧
      getTotalNumberOfPods p.js = .ok (attempts.length : ℤ) ∧ attempts ≠ [] ∧
      (∀ x ∈ attempts, x = a) ∧ p'.js.status.inPlaceCounters =
        (p.js.status.previousInPlaceRestartAttempt, some a)) ∨
    (∃ attempts, getPodInPlaceRestartAttempts pods = .ok attempts ∧ attempts ≠ [] ∧
      slicesMax attempts ≠ 0 ∧
      (∀ prev, p.js.status.previousInPlaceRestartAttempt = some prev →
        prev < int32 (slicesMax attempts - 1)) ∧
      p'.js.status.inPlaceCounters =
        (some (int32 (slicesMax attempts - 1)), p.js.status.currentInPlaceRestartAttempt)) := by
  unfold reconcileInPlaceRestart at h
  cases hfp : p.js.spec.failurePolicy with
  | none => simp [hfp] at h
  | some fp =>
    simp only [hfp] at h
    split_ifs at h with hc
    · cases h
      exact Or.inl (setJobSetFailedCondition_inPlaceCounters _ _ _ _)
    · obtain ⟨attempts, hattempts, h⟩ := except_bind_ok h
      by_cases he : exceededMaxRestarts p.js fp.maxRestarts attempts = true
      · rw [if_pos he] at h
        cases h
        exact Or.inl (setJobSetFailedCondition_inPlaceCounters _ _ _ _)
      · rw [if_neg he] at h
        obtain ⟨total, htotal, h⟩ := except_bind_ok h
        split_ifs at h with hall hzero
        · cases h
          obtain ⟨hlen, heq⟩ := hall
          obtain ⟨hne, hhead⟩ := allEqual_iff.mp heq
          unfold updateCurrentInPlaceRestartAttempt
          dsimp only
          split_ifs with hsame
          · exact Or.inl rfl
          · exact Or.inr (Or.inl ⟨attempts, attempts.headD 0, hattempts, hlen ▸ htotal, hne, hhead, rfl⟩)
        · cases h
          exact Or.inl rfl
        · cases h
          push Not at hzero
          unfold updatePreviousInPlaceRestartAttempt
          dsimp only
          rw [if_neg hzero.1]
          split_ifs with hskip
          · exact Or.inl rfl
          · refine Or.inr (Or.inr ⟨attempts, hattempts, hzero.1, hzero.2, ?_, rfl⟩)
            intro prev hprev
            simpa [hprev] using hskip

/-- Within the budgets, equal attempts of all expected pods are released. -/
theorem reconcileInPlaceRestart_release {now : Time} {pods : List Pod} {p : Pass}
    {fp : FailurePolicy} {attempts : List ℤ} (hpolicy : p.js.spec.failurePolicy = some fp)
    (hcount : ¬ getMaxContainerRestartCount pods > fp.maxRestarts)
    (hattempts : getPodInPlaceRestartAttempts pods = .ok attempts)
    (hexceeded : ¬ exceededMaxRestarts p.js fp.maxRestarts attempts = true)
    (htotal : getTotalNumberOfPods p.js = .ok (attempts.length : ℤ))
    (hall : allEqual attempts = true) :
    reconcileInPlaceRestart now pods p = .ok (updateCurrentInPlaceRestartAttempt attempts p) := by
  unfold reconcileInPlaceRestart
  rw [hpolicy]
  dsimp only
  rw [if_neg hcount, hattempts, except_ok_bind, if_neg hexceeded, htotal, except_ok_bind,
    if_pos ⟨rfl, hall⟩]
  rfl

/-- The pods whose attempts are collected. -/
def Pod.annotated (pod : Pod) : Bool :=
  decide (pod.phase ≠ .podFailed) && (pod.annotations.lookup inPlaceRestartAttemptKey).isSome

/-- The number in the annotation. -/
def Pod.attempt (pod : Pod) : Option ℤ :=
  (pod.annotations.lookup inPlaceRestartAttemptKey).bind atoi

/-- A successful collection holds one attempt per annotated pod, and none of them is negative. -/
theorem getPodInPlaceRestartAttempts_ok {pods : List Pod} {attempts : List ℤ}
    (h : getPodInPlaceRestartAttempts pods = .ok attempts) :
    (∀ pod ∈ pods, pod.annotated = true → ∃ n, pod.attempt = some n ∧ 0 ≤ n) ∧
      attempts = (pods.filter Pod.annotated).map fun pod => int32 (pod.attempt.getD 0) := by
  induction pods generalizing attempts with
  | nil =>
    cases h
    simp
  | cons pod rest ih =>
    unfold getPodInPlaceRestartAttempts at h
    have hskip : pod.annotated = false → getPodInPlaceRestartAttempts rest = .ok attempts →
        (∀ pod' ∈ pod :: rest, pod'.annotated = true → ∃ n, pod'.attempt = some n ∧ 0 ≤ n) ∧
          attempts = ((pod :: rest).filter Pod.annotated).map
            fun pod => int32 (pod.attempt.getD 0) := by
      intro hpod hrest
      obtain ⟨hvalid, heq⟩ := ih hrest
      refine ⟨?_, by rw [List.filter_cons_of_neg (by simp [hpod]), heq]⟩
      intro pod' hmem hann
      rcases List.mem_cons.mp hmem with rfl | hmem
      · rw [hpod] at hann
        cases hann
      · exact hvalid pod' hmem hann
    split_ifs at h with hfailed
    · exact hskip (by simp [Pod.annotated, hfailed]) h
    · cases hraw : pod.annotations.lookup inPlaceRestartAttemptKey with
      | none =>
        simp only [hraw] at h
        exact hskip (by simp [Pod.annotated, hraw]) h
      | some raw =>
        simp only [hraw] at h
        cases hn : atoi raw with
        | none => simp [hn] at h
        | some n =>
          simp only [hn] at h
          split_ifs at h with hneg
          cases hrest : getPodInPlaceRestartAttempts rest with
          | error e => simp [hrest, Except.map] at h
          | ok l =>
            simp only [hrest, Except.map, Except.ok.injEq] at h
            obtain ⟨hvalid, heq⟩ := ih hrest
            have hann : pod.annotated = true := by simp [Pod.annotated, hfailed, hraw]
            have hattempt : pod.attempt = some n := by simp [Pod.attempt, hraw, hn]
            refine ⟨?_, ?_⟩
            · intro pod' hmem hann'
              rcases List.mem_cons.mp hmem with rfl | hmem
              · exact ⟨n, hattempt, not_lt.mp hneg⟩
              · exact hvalid pod' hmem hann'
            · rw [List.filter_cons_of_pos hann, List.map_cons, hattempt, ← heq, ← h]
              rfl

end JobSetOperator
