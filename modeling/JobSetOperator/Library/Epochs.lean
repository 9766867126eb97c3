import JobSetOperator.Library.Rounds

/-!
# A barrier over epochs

Members announce the epoch they want to work in and wait at a barrier. A coordinator reads
the announcements: when they agree it releases their epoch, and otherwise it declares every
epoch but the last one outdated. A member in an outdated epoch leaves and joins the next
one, and a member whose epoch is released lifts its barrier. Whatever the order of the
turns, five rounds bring all members to work in one epoch (`Epochs.converges`).
-/
namespace JobSetOperator.Library

/-- `previous` is the last outdated epoch and `current` the released one. -/
structure Epochs (ι : Type) where
  announced : ι → ℕ
  joined : ι → Bool
  lifted : ι → Bool
  previous : Option ℕ
  current : Option ℕ

/-- Who takes a turn. A bystander changes nothing. -/
inductive EpochParty (ι : Type)
  | member (i : ι)
  | coordinator
  | bystander

namespace Epochs

variable {ι : Type}

/-- The epoch that a member joins. -/
def frontier (s : Epochs ι) : ℕ :=
  match s.current with
  | none => 0
  | some c => c + 1

def outdated (s : Epochs ι) (i : ι) : Bool := s.previous.any (s.announced i ≤ ·)

/-- The last epoch announced. -/
def last [Fintype ι] (s : Epochs ι) : ℕ := Finset.univ.sup s.announced

/-- A member joins, leaves, lifts its barrier or waits. -/
def memberTurn [DecidableEq ι] (i : ι) (s : Epochs ι) : Epochs ι :=
  if s.joined i then
    if s.outdated i then
      { s with joined := Function.update s.joined i false }
    else if s.current = some (s.announced i) then
      { s with lifted := Function.update s.lifted i true }
    else s
  else
    { s with
      announced := Function.update s.announced i s.frontier
      joined := Function.update s.joined i true
      lifted := Function.update s.lifted i false }

/-- The coordinator releases an epoch, or declares all but the last one outdated. -/
def coordinatorTurn [Fintype ι] (s : Epochs ι) : Epochs ι :=
  if ∀ i, s.announced i = s.last then { s with current := some s.last }
  else if s.previous.any (s.last - 1 ≤ ·) then s
  else { s with previous := some (s.last - 1) }

def turn [Fintype ι] [DecidableEq ι] : EpochParty ι → Epochs ι → Epochs ι
  | .member i => memberTurn i
  | .coordinator => coordinatorTurn
  | .bystander => id

/-- The members and the coordinator. -/
def parties : Set (EpochParty ι) := fun a => a = .coordinator ∨ ∃ i, a = .member i

theorem coordinator_mem : EpochParty.coordinator ∈ (parties : Set (EpochParty ι)) := Or.inl rfl

/-! ## What every turn keeps -/

/-- Nobody is behind by more than one epoch or ahead of the frontier, and who has left was
outdated. -/
structure Sound (s : Epochs ι) : Prop where
  upper : ∀ i, s.announced i ≤ s.frontier
  lower : ∀ i, s.frontier ≤ s.announced i + 1
  absent : ∀ i, s.joined i = false → s.outdated i = true
  previous : ∀ p, s.previous = some p → p < s.frontier

/-- The last epoch before the frontier is outdated. -/
structure Raised (s : Epochs ι) : Prop extends Sound s where
  raised : ∃ p, s.previous = some p ∧ p + 1 = s.frontier

/-- All members have joined the released epoch, which is not outdated. -/
structure Calm (s : Epochs ι) : Prop where
  joined : ∀ i, s.joined i = true
  announced : ∀ i, s.announced i + 1 = s.frontier
  previous : ∀ p, s.previous = some p → p + 1 < s.frontier

/-- Calm, or the last epoch before the frontier is outdated. -/
def Called (s : Epochs ι) : Prop := s.Calm ∨ s.Raised

/-- Calm, or the member is away or at the frontier. -/
def MovesOn (i : ι) (s : Epochs ι) : Prop :=
  s.Calm ∨ s.Raised ∧ (s.joined i = true → s.announced i = s.frontier)

/-- Calm, or the member is at the frontier. -/
def Arrives (i : ι) (s : Epochs ι) : Prop :=
  s.Calm ∨ s.Raised ∧ s.joined i = true ∧ s.announced i = s.frontier

/-- All members work in the released epoch. -/
structure Aligned (s : Epochs ι) : Prop extends Calm s where
  lifted : ∀ i, s.lifted i = true

theorem outdated_iff {s : Epochs ι} {i : ι} :
    s.outdated i = true ↔ ∃ p, s.previous = some p ∧ s.announced i ≤ p := by
  unfold outdated
  rw [Option.any_eq_true]
  simp

theorem current_of_frontier {s : Epochs ι} {n : ℕ} (h : s.frontier = n + 1) :
    s.current = some n := by
  unfold frontier at h
  cases hc : s.current with
  | none =>
    rw [hc] at h
    cases h
  | some c =>
    rw [hc] at h
    rw [Nat.succ.inj h]

theorem Calm.not_outdated {s : Epochs ι} (h : s.Calm) (i : ι) : s.outdated i = false := by
  rw [Bool.eq_false_iff]
  intro hout
  obtain ⟨p, hp, hle⟩ := outdated_iff.mp hout
  have hlt := h.previous p hp
  have heq := h.announced i
  omega

theorem Calm.sound {s : Epochs ι} (h : s.Calm) : s.Sound where
  upper i := by have := h.announced i; omega
  lower i := by have := h.announced i; omega
  absent i hi := by rw [h.joined i] at hi; cases hi
  previous p hp := by have := h.previous p hp; omega

theorem Raised.not_outdated {s : Epochs ι} (h : s.Raised) {i : ι} (hi : s.announced i = s.frontier) :
    s.outdated i = false := by
  rw [Bool.eq_false_iff]
  intro hout
  obtain ⟨p, hp, hle⟩ := outdated_iff.mp hout
  have hlt := h.previous p hp
  omega

theorem Raised.outdated {s : Epochs ι} (h : s.Raised) {i : ι} (hi : s.announced i ≠ s.frontier) :
    s.outdated i = true := by
  obtain ⟨p, hp, hfrontier⟩ := h.raised
  have hle := h.upper i
  exact outdated_iff.mpr ⟨p, hp, by omega⟩

section Member

variable [DecidableEq ι] {s : Epochs ι} (i : ι)

theorem memberTurn_frontier : (memberTurn i s).frontier = s.frontier := by
  unfold memberTurn
  split_ifs <;> rfl

theorem memberTurn_previous : (memberTurn i s).previous = s.previous := by
  unfold memberTurn
  split_ifs <;> rfl

/-- The others see nothing of a member's turn. -/
theorem memberTurn_other {j : ι} (h : j ≠ i) :
    (memberTurn i s).announced j = s.announced j ∧ (memberTurn i s).joined j = s.joined j ∧
      (memberTurn i s).lifted j = s.lifted j := by
  unfold memberTurn
  split_ifs <;> simp [h]

/-- A member that has joined keeps its epoch. -/
theorem memberTurn_announced {j : ι} (h : s.joined j = true) :
    (memberTurn i s).announced j = s.announced j := by
  by_cases hij : j = i
  · subst hij
    unfold memberTurn
    rw [if_pos h]
    split_ifs <;> rfl
  · exact (memberTurn_other i hij).1

/-- A member that is away joins the frontier. -/
theorem memberTurn_joins (h : s.joined i = false) :
    (memberTurn i s).announced i = s.frontier ∧ (memberTurn i s).joined i = true := by
  unfold memberTurn
  rw [if_neg (by simp [h])]
  simp

theorem memberTurn_leaves (h : s.joined i = true) (hout : s.outdated i = true) :
    (memberTurn i s).joined i = false := by
  unfold memberTurn
  rw [if_pos h, if_pos hout]
  simp

theorem memberTurn_stays {j : ι} (h : s.joined j = true) (hout : s.outdated j = false) :
    (memberTurn i s).joined j = true := by
  by_cases hij : j = i
  · subst hij
    unfold memberTurn
    rw [if_pos h, if_neg (by simp [hout])]
    split_ifs <;> exact h
  · rw [(memberTurn_other i hij).2.1, h]

theorem Sound.member (h : s.Sound) : (memberTurn i s).Sound := by
  have hf : (memberTurn i s).frontier = s.frontier := memberTurn_frontier i
  have hp : (memberTurn i s).previous = s.previous := memberTurn_previous i
  have hmember : (memberTurn i s).announced i = s.announced i ∨
      (memberTurn i s).announced i = s.frontier := by
    cases hj : s.joined i with
    | true => exact Or.inl (memberTurn_announced i hj)
    | false => exact Or.inr (memberTurn_joins i hj).1
  have hannounced : ∀ j, (memberTurn i s).announced j = s.announced j ∨
      (memberTurn i s).announced j = s.frontier := fun j => by
    by_cases hij : j = i
    · exact hij ▸ hmember
    · exact Or.inl (memberTurn_other i hij).1
  refine ⟨fun j => ?_, fun j => ?_, fun j hj => ?_, fun p hpre => ?_⟩
  · have := h.upper j
    rcases hannounced j with he | he <;> omega
  · have := h.lower j
    rcases hannounced j with he | he <;> omega
  · -- who is away now was away before, or has just left
    have hout : s.outdated j = true := by
      cases hs : s.joined j with
      | false => exact h.absent j hs
      | true =>
        by_contra hnot
        rw [memberTurn_stays i hs (Bool.eq_false_iff.mpr hnot)] at hj
        cases hj
    have hsame : (memberTurn i s).announced j = s.announced j := by
      by_cases hij : j = i
      · subst hij
        cases hs : s.joined j with
        | true => exact memberTurn_announced j hs
        | false =>
          rw [(memberTurn_joins j hs).2] at hj
          cases hj
      · exact (memberTurn_other i hij).1
    rw [outdated_iff] at hout ⊢
    rw [hp, hsame]
    exact hout
  · rw [hp] at hpre
    rw [hf]
    exact h.previous p hpre

theorem Raised.member (h : s.Raised) : (memberTurn i s).Raised := by
  refine ⟨h.toSound.member i, ?_⟩
  rw [memberTurn_frontier, memberTurn_previous]
  exact h.raised

theorem Calm.member (h : s.Calm) : (memberTurn i s).Calm := by
  refine ⟨fun j => ?_, fun j => ?_, ?_⟩
  · exact memberTurn_stays i (h.joined j) (h.not_outdated j)
  · rw [memberTurn_announced i (h.joined j), memberTurn_frontier]
    exact h.announced j
  · rw [memberTurn_frontier, memberTurn_previous]
    exact h.previous

theorem Calm.lifts (h : s.Calm) : (memberTurn i s).lifted i = true := by
  have hcurrent : s.current = some (s.announced i) := current_of_frontier (h.announced i).symm
  unfold memberTurn
  rw [if_pos (h.joined i), if_neg (by simp [h.not_outdated i]), if_pos hcurrent]
  simp

theorem Calm.lifted_member (h : s.Calm) {j : ι} (hj : s.lifted j = true) :
    (memberTurn i s).lifted j = true := by
  by_cases hij : j = i
  · exact hij ▸ h.lifts i
  · rw [(memberTurn_other i hij).2.2, hj]

theorem member_movesOn {i : ι} {s : Epochs ι} (h : s.Called) : MovesOn i (memberTurn i s) := by
  rcases h with h | h
  · exact Or.inl (h.member i)
  · refine Or.inr ⟨h.member i, fun hjoined => ?_⟩
    rw [memberTurn_frontier]
    by_cases hs : s.joined i = true
    · rw [memberTurn_announced i hs]
      by_contra hbehind
      rw [memberTurn_leaves i hs (h.outdated hbehind)] at hjoined
      cases hjoined
    · exact (memberTurn_joins i (Bool.eq_false_iff.mpr hs)).1

end Member

section Coordinator

variable [Fintype ι] {s : Epochs ι}

theorem announced_le_last (s : Epochs ι) (i : ι) : s.announced i ≤ s.last :=
  Finset.le_sup (Finset.mem_univ i)

variable [Nonempty ι]

theorem exists_last (s : Epochs ι) : ∃ i, s.announced i = s.last := by
  obtain ⟨i, -, hi⟩ := Finset.exists_mem_eq_sup Finset.univ Finset.univ_nonempty s.announced
  exact ⟨i, hi.symm⟩

theorem Calm.coordinator (h : s.Calm) : coordinatorTurn s = s := by
  obtain ⟨j, hj⟩ := s.exists_last
  have hall : ∀ i, s.announced i = s.last := fun i => by
    have hi := h.announced i
    have hlast := h.announced j
    omega
  have hcurrent : s.current = some s.last := hj ▸ current_of_frontier (h.announced j).symm
  unfold coordinatorTurn
  rw [if_pos hall, ← hcurrent]

/-- The coordinator releases the epoch that all have joined. -/
theorem Sound.release (h : s.Sound) (hall : ∀ i, s.announced i = s.frontier) :
    (coordinatorTurn s).Calm := by
  obtain ⟨j, hj⟩ := s.exists_last
  have hlast : s.last = s.frontier := hj ▸ hall j
  have hturn : coordinatorTurn s = { s with current := some s.frontier } := by
    unfold coordinatorTurn
    rw [hlast, if_pos hall]
  rw [hturn]
  refine ⟨fun i => ?_, fun i => congrArg (· + 1) (hall i), fun p hp => ?_⟩
  · by_contra haway
    obtain ⟨p, hp, hle⟩ := outdated_iff.mp (h.absent i (Bool.eq_false_iff.mpr haway))
    have hlt := h.previous p hp
    rw [hall i] at hle
    omega
  · have hlt := h.previous p hp
    change p + 1 < s.frontier + 1
    omega

/-- After the coordinator's turn the members work in one epoch, or all but the frontier is
outdated. -/
theorem Sound.coordinator (h : s.Sound) :
    (coordinatorTurn s).Calm ∨ (coordinatorTurn s).Raised := by
  obtain ⟨j, hj⟩ := s.exists_last
  have hupper := h.upper j
  have hlower := h.lower j
  by_cases hall : ∀ i, s.announced i = s.last
  · by_cases hfrontier : s.last = s.frontier
    · exact Or.inl (h.release fun i => (hall i).trans hfrontier)
    · have hcurrent : s.current = some s.last := current_of_frontier (by omega)
      have hturn : coordinatorTurn s = s := by
        unfold coordinatorTurn
        rw [if_pos hall, ← hcurrent]
      rw [hturn]
      by_cases hraised : ∃ p, s.previous = some p ∧ p + 1 = s.frontier
      · exact Or.inr ⟨h, hraised⟩
      · refine Or.inl ⟨fun i => ?_, fun i => ?_, fun p hp => ?_⟩
        · by_contra haway
          obtain ⟨p, hp, hle⟩ := outdated_iff.mp (h.absent i (Bool.eq_false_iff.mpr haway))
          have hlt := h.previous p hp
          rw [hall i] at hle
          exact hraised ⟨p, hp, by omega⟩
        · rw [hall i]
          omega
        · have hlt := h.previous p hp
          have hne : p + 1 ≠ s.frontier := fun he => hraised ⟨p, hp, he⟩
          omega
  · -- somebody is one epoch behind, so the last epoch is the frontier
    obtain ⟨i, hi⟩ := not_forall.mp hall
    have hle := s.announced_le_last i
    have hbehind := h.lower i
    have hlast : s.last = s.frontier := by omega
    apply Or.inr
    unfold coordinatorTurn
    rw [if_neg hall]
    split_ifs with hskip
    · obtain ⟨p, hp, hge⟩ := (Option.any_eq_true _ _).mp hskip
      have hlt := h.previous p hp
      have hge' : s.last - 1 ≤ p := by simpa using hge
      exact ⟨h, p, hp, by omega⟩
    · refine ⟨⟨h.upper, h.lower, fun k hk => ?_, fun p hp => ?_⟩, s.last - 1, rfl, ?_⟩
      · obtain ⟨p, hp, hkp⟩ := outdated_iff.mp (h.absent k hk)
        have hlt := h.previous p hp
        refine outdated_iff.mpr ⟨s.last - 1, rfl, ?_⟩
        change s.announced k ≤ s.last - 1
        omega
      · obtain rfl : s.last - 1 = p := Option.some.inj hp
        change s.last - 1 < s.frontier
        omega
      · change s.last - 1 + 1 = s.frontier
        omega

/-- A coordinator's turn that does not release leaves the announcements and the frontier. -/
theorem Raised.coordinator_same {s : Epochs ι} (h : s.Raised) :
    (coordinatorTurn s).Calm ∨ coordinatorTurn s = s := by
  obtain ⟨p, hp, hfrontier⟩ := h.raised
  by_cases hall : ∀ i, s.announced i = s.last
  · by_cases hlast : s.last = s.frontier
    · exact Or.inl (h.toSound.release fun i => (hall i).trans hlast)
    · obtain ⟨j, hj⟩ := s.exists_last
      have hlower := h.lower j
      have hupper := h.upper j
      have hcurrent : s.current = some s.last := current_of_frontier (by omega)
      unfold coordinatorTurn
      rw [if_pos hall, ← hcurrent]
      exact Or.inr rfl
  · obtain ⟨j, hj⟩ := s.exists_last
    have hupper := h.upper j
    have hskip : s.previous.any (s.last - 1 ≤ ·) = true := by
      rw [hp]
      simp
      omega
    unfold coordinatorTurn
    rw [if_neg hall, if_pos hskip]
    exact Or.inr rfl

end Coordinator

/-! ## Convergence -/

section Convergence

variable [Fintype ι] [DecidableEq ι]

/-- One round in which every member does its share. -/
theorem leadsTo_members {P : Epochs ι → Prop} {share : ι → Epochs ι → Prop}
    (hstable : Stable turn P) (hdone : ∀ i s, P s → share i (memberTurn i s))
    (hkept : ∀ i a s, P s → share i s → share i (turn a s)) :
    LeadsTo turn id parties 1 P fun s => P s ∧ ∀ i, share i s := by
  have hround : LeadsTo turn id parties 1 P fun s =>
      P s ∧ ∀ a ∈ parties, ∀ i, a = .member i → share i s := by
    apply LeadsTo.of_turns hstable
    · rintro a s - hs i rfl
      exact hdone i s hs
    · exact fun a _ b s hs hshare i hi => hkept i b s hs (hshare i hi)
  exact hround.mono fun s h => ⟨h.1, fun i => h.2 _ (Or.inr ⟨i, rfl⟩) i rfl⟩

variable [Nonempty ι]

theorem calm_stable : Stable turn (Calm : Epochs ι → Prop) := by
  intro a s h
  cases a with
  | member i => exact h.member i
  | coordinator =>
    change (coordinatorTurn s).Calm
    rw [h.coordinator]
    exact h
  | bystander => exact h

theorem sound_stable : Stable turn (Sound : Epochs ι → Prop) := by
  intro a s h
  cases a with
  | member i => exact h.member i
  | coordinator => exact h.coordinator.elim Calm.sound Raised.toSound
  | bystander => exact h

theorem called_stable : Stable turn (Called : Epochs ι → Prop) := by
  rintro a s (h | h)
  · exact Or.inl (calm_stable a s h)
  · cases a with
    | member i => exact Or.inr (h.member i)
    | coordinator => exact h.coordinator
    | bystander => exact Or.inr h

theorem arrives_kept {i : ι} : Stable turn (Arrives i) := by
  rintro a s (h | ⟨h, hjoined, hat⟩)
  · exact Or.inl (calm_stable a s h)
  · cases a with
    | member j =>
      refine Or.inr ⟨h.member j, memberTurn_stays j hjoined (h.not_outdated hat), ?_⟩
      change (memberTurn j s).announced i = (memberTurn j s).frontier
      rw [memberTurn_announced j hjoined, memberTurn_frontier, hat]
    | coordinator =>
      rcases h.coordinator_same with hcalm | hsame
      · exact Or.inl hcalm
      · change Arrives i (coordinatorTurn s)
        rw [hsame]
        exact Or.inr ⟨h, hjoined, hat⟩
    | bystander => exact Or.inr ⟨h, hjoined, hat⟩

theorem movesOn_kept {i : ι} : Stable turn (MovesOn i) := by
  rintro a s (h | ⟨h, hmoves⟩)
  · exact Or.inl (calm_stable a s h)
  · cases a with
    | member j =>
      refine Or.inr ⟨h.member j, fun hjoined => ?_⟩
      change (memberTurn j s).announced i = (memberTurn j s).frontier
      rw [memberTurn_frontier]
      by_cases hs : s.joined i = true
      · rw [memberTurn_announced j hs]
        exact hmoves hs
      · have hs' : s.joined i = false := Bool.eq_false_iff.mpr hs
        by_cases hij : i = j
        · subst hij
          exact (memberTurn_joins i hs').1
        · change (memberTurn j s).joined i = true at hjoined
          rw [(memberTurn_other j hij).2.1] at hjoined
          exact absurd hjoined hs
    | coordinator =>
      rcases h.coordinator_same with hcalm | hsame
      · exact Or.inl hcalm
      · change MovesOn i (coordinatorTurn s)
        rw [hsame]
        exact Or.inr ⟨h, hmoves⟩
    | bystander => exact Or.inr ⟨h, hmoves⟩

theorem movesOn_stable : Stable turn fun s : Epochs ι => ∀ i, MovesOn i s :=
  fun a s h i => movesOn_kept a s (h i)

theorem arrives_stable : Stable turn fun s : Epochs ι => ∀ i, Arrives i s :=
  fun a s h i => arrives_kept a s (h i)

theorem member_arrives {i : ι} {s : Epochs ι} (h : MovesOn i s) : Arrives i (memberTurn i s) := by
  rcases h with h | ⟨h, hmoves⟩
  · exact Or.inl (h.member i)
  · by_cases hs : s.joined i = true
    · exact arrives_kept (.member i) s (Or.inr ⟨h, hs, hmoves hs⟩)
    · obtain ⟨hannounced, hjoined⟩ := memberTurn_joins i (Bool.eq_false_iff.mpr hs)
      exact Or.inr ⟨h.member i, hjoined, hannounced.trans (memberTurn_frontier i).symm⟩

theorem leadsTo_called : LeadsTo turn id parties 1 (Sound : Epochs ι → Prop) Called :=
  LeadsTo.of_turn coordinator_mem sound_stable (by rintro - _ rfl h; exact h.coordinator)
    fun a s _ => called_stable a s

theorem leadsTo_movesOn :
    LeadsTo turn id parties 1 (Called : Epochs ι → Prop) fun s => ∀ i, MovesOn i s :=
  (leadsTo_members called_stable (fun _ _ h => member_movesOn h)
    fun _ a s _ h => movesOn_kept a s h).mono fun _ h => h.2

theorem leadsTo_arrives : LeadsTo turn id parties 1 (fun s : Epochs ι => ∀ i, MovesOn i s)
    fun s => ∀ i, Arrives i s :=
  (leadsTo_members movesOn_stable (fun i _ h => member_arrives (h i))
    fun _ a s _ h => arrives_kept a s h).mono fun _ h => h.2

theorem leadsTo_calm : LeadsTo turn id parties 1 (fun s : Epochs ι => ∀ i, Arrives i s) Calm := by
  have hrelease : ∀ s : Epochs ι, (∀ i, Arrives i s) → (coordinatorTurn s).Calm := by
    intro s hs
    by_cases hcalm : s.Calm
    · exact calm_stable .coordinator s hcalm
    · have hat : ∀ i, s.Raised ∧ s.announced i = s.frontier := fun i => by
        rcases hs i with h | ⟨h, -, hat⟩
        · exact absurd h hcalm
        · exact ⟨h, hat⟩
      obtain ⟨i⟩ := ‹Nonempty ι›
      exact (hat i).1.toSound.release fun j => (hat j).2
  exact LeadsTo.of_turn coordinator_mem arrives_stable (by rintro - s rfl h; exact hrelease s h)
    fun a s _ => calm_stable a s

theorem leadsTo_aligned : LeadsTo turn id parties 1 (Calm : Epochs ι → Prop) Aligned := by
  have hkept : ∀ (i : ι) (a : EpochParty ι) (s : Epochs ι), s.Calm → s.lifted i = true →
      (turn a s).lifted i = true := by
    intro i a s h hi
    cases a with
    | member j => exact h.lifted_member j hi
    | coordinator =>
      change (coordinatorTurn s).lifted i = true
      rw [h.coordinator, hi]
    | bystander => exact hi
  exact (leadsTo_members calm_stable (fun i _ h => h.lifts i) hkept).mono fun _ h => ⟨h.1, h.2⟩

/-- Five rounds after any sound state all members work in one epoch: one in which the
coordinator calls them, two to leave and join, one to release and one to lift. -/
theorem converges : LeadsTo turn id parties 5 (Sound : Epochs ι → Prop) Aligned :=
  leadsTo_called.trans (leadsTo_movesOn.trans
    (leadsTo_arrives.trans (leadsTo_calm.trans leadsTo_aligned)))

end Convergence

end Epochs

end JobSetOperator.Library
