import Mathlib.Tactic

/-!
# Turns and rounds

Parties act on a state one after the other, in an order nobody controls. A round is a
stretch of the order in which every party has a turn. What holds after so many rounds,
however the turns fall, is built from two rules: a round in which every party does its
share (`LeadsTo.of_turns`), and rounds one after the other (`LeadsTo.trans`). A system
that does what a simpler one does inherits what the simpler one reaches
(`LeadsTo.of_simulation`).
-/
namespace JobSetOperator.Library

variable {α β σ τ : Type}

/-- The state after the turns of the list. -/
def runTurns (turn : α → σ → σ) (turns : List α) (s : σ) : σ := turns.foldl (fun s a => turn a s) s

theorem runTurns_append (turn : α → σ → σ) (l l' : List α) (s : σ) :
    runTurns turn (l ++ l') s = runTurns turn l' (runTurns turn l s) := List.foldl_append

/-- The turns keep the property. -/
def Stable (turn : α → σ → σ) (P : σ → Prop) : Prop := ∀ a s, P s → P (turn a s)

theorem Stable.run {turn : α → σ → σ} {P : σ → Prop} (h : Stable turn P) (turns : List α) {s : σ}
    (hs : P s) : P (runTurns turn turns s) := by
  induction turns generalizing s with
  | nil => exact hs
  | cons a rest ih => exact ih (h a s hs)

/-- The list can be cut into `n` rounds and a rest; `who` says whose turn each one is. -/
def Rounds (who : α → β) (parties : Set β) : ℕ → List α → Prop
  | 0, _ => True
  | n + 1, turns => ∃ first rest, turns = first ++ rest ∧
      (∀ b ∈ parties, ∃ a ∈ first, who a = b) ∧ Rounds who parties n rest

theorem Rounds.split {who : α → β} {parties : Set β} {m n : ℕ} {turns : List α}
    (h : Rounds who parties (m + n) turns) : ∃ first rest, turns = first ++ rest ∧
      Rounds who parties m first ∧ Rounds who parties n rest := by
  induction m generalizing turns with
  | zero => exact ⟨[], turns, rfl, trivial, by rwa [Nat.zero_add] at h⟩
  | succ m ih =>
    rw [Nat.succ_add] at h
    obtain ⟨round, others, rfl, hround, hothers⟩ := h
    obtain ⟨first, rest, rfl, hfirst, hrest⟩ := ih hothers
    exact ⟨round ++ first, rest, (List.append_assoc _ _ _).symm, ⟨round, first, rfl, hround, hfirst⟩,
      hrest⟩

/-- One round over and over. -/
theorem rounds_replicate {who : α → β} {parties : Set β} {round : List α}
    (h : ∀ b ∈ parties, ∃ a ∈ round, who a = b) (n : ℕ) :
    Rounds who parties n (List.replicate n round).flatten := by
  induction n with
  | zero => exact trivial
  | succ n ih => exact ⟨round, _, by rw [List.replicate_succ, List.flatten_cons], h, ih⟩

theorem Rounds.map {who : α → β} {parties : Set β} {n : ℕ} {turns : List α}
    (h : Rounds who parties n turns) : Rounds id parties n (turns.map who) := by
  induction n generalizing turns with
  | zero => exact trivial
  | succ n ih =>
    obtain ⟨first, rest, rfl, hfirst, hrest⟩ := h
    refine ⟨first.map who, rest.map who, List.map_append, fun b hb => ?_, ih hrest⟩
    obtain ⟨a, ha, hwho⟩ := hfirst b hb
    exact ⟨b, List.mem_map.mpr ⟨a, ha, hwho⟩, rfl⟩

/-- From `P`, any `n` rounds lead to `Q`. -/
def LeadsTo (turn : α → σ → σ) (who : α → β) (parties : Set β) (n : ℕ) (P Q : σ → Prop) : Prop :=
  ∀ s, P s → ∀ turns, Rounds who parties n turns → Q (runTurns turn turns s)

section Rules

variable {turn : α → σ → σ} {who : α → β} {parties : Set β} {m n : ℕ} {P Q R : σ → Prop}

theorem LeadsTo.trans (h : LeadsTo turn who parties m P Q) (h' : LeadsTo turn who parties n Q R) :
    LeadsTo turn who parties (m + n) P R := by
  intro s hs turns hturns
  obtain ⟨first, rest, rfl, hfirst, hrest⟩ := hturns.split
  rw [runTurns_append]
  exact h' _ (h s hs first hfirst) rest hrest

theorem LeadsTo.mono (h : LeadsTo turn who parties n P Q) (himp : ∀ s, Q s → R s) :
    LeadsTo turn who parties n P R := fun s hs turns hturns => himp _ (h s hs turns hturns)

/-- What holds once `P` does and the party has had its turn. -/
theorem share_run {b : β} {share : σ → Prop} (hstable : Stable turn P)
    (hdone : ∀ a s, who a = b → P s → share (turn a s))
    (hkept : ∀ a s, P s → share s → share (turn a s)) {turns : List α}
    (hturn : ∃ a ∈ turns, who a = b) {s : σ} (hs : P s) : share (runTurns turn turns s) := by
  have hstays : Stable turn fun s => P s ∧ share s :=
    fun a s h => ⟨hstable a s h.1, hkept a s h.1 h.2⟩
  obtain ⟨a, ha, hwho⟩ := hturn
  obtain ⟨before, after, rfl⟩ := List.append_of_mem ha
  rw [runTurns_append]
  have hbefore := hstable.run before hs
  exact (hstays.run after ⟨hstable a _ hbefore, hdone a _ hwho hbefore⟩).2

/-- One round in which every party does its share. -/
theorem LeadsTo.of_turns {share : β → σ → Prop} (hstable : Stable turn P)
    (hdone : ∀ a s, who a ∈ parties → P s → share (who a) (turn a s))
    (hkept : ∀ b ∈ parties, ∀ a s, P s → share b s → share b (turn a s)) :
    LeadsTo turn who parties 1 P fun s => P s ∧ ∀ b ∈ parties, share b s := by
  rintro s hs - ⟨first, rest, rfl, hfirst, -⟩
  rw [runTurns_append]
  refine ⟨hstable.run _ (hstable.run _ hs), fun b hb => ?_⟩
  have hstays : Stable turn fun s => P s ∧ share b s :=
    fun a s h => ⟨hstable a s h.1, hkept b hb a s h.1 h.2⟩
  have hshare : share b (runTurns turn first s) :=
    share_run hstable (fun a s hwho hs => hwho ▸ hdone a s (hwho ▸ hb) hs) (hkept b hb)
      (hfirst b hb) hs
  exact (hstays.run rest ⟨hstable.run _ hs, hshare⟩).2

/-- One round in which one of the parties does it all. -/
theorem LeadsTo.of_turn {b : β} (hb : b ∈ parties) (hstable : Stable turn P)
    (hdone : ∀ a s, who a = b → P s → Q (turn a s)) (hkept : ∀ a s, P s → Q s → Q (turn a s)) :
    LeadsTo turn who parties 1 P Q := by
  rintro s hs - ⟨first, rest, rfl, hfirst, -⟩
  obtain ⟨a, ha, hwho⟩ := hfirst b hb
  exact share_run hstable hdone hkept ⟨a, List.mem_append_left _ ha, hwho⟩ hs

/-- Each turn shows as a turn of a simpler system, unless something else has happened, which
then stays. -/
theorem LeadsTo.of_simulation {turn' : β → τ → τ} {shows : σ → τ → Prop} {other : σ → Prop}
    {P' Q' : τ → Prop} (hstable : Stable turn' P') (hother : Stable turn other)
    (hturn : ∀ a s t, shows s t → P' t → other (turn a s) ∨ shows (turn a s) (turn' (who a) t))
    (h : LeadsTo turn' id parties n P' Q') :
    LeadsTo turn who parties n (fun s => other s ∨ ∃ t, shows s t ∧ P' t)
      (fun s => other s ∨ ∃ t, shows s t ∧ Q' t) := by
  have hrun : ∀ turns s t, shows s t → P' t → other (runTurns turn turns s) ∨
      shows (runTurns turn turns s) (runTurns turn' (turns.map who) t) := by
    intro turns
    induction turns with
    | nil => exact fun s t hst _ => Or.inr hst
    | cons a rest ih =>
      intro s t hst ht
      rcases hturn a s t hst ht with ho | hnext
      · exact Or.inl (hother.run rest ho)
      · exact ih _ _ hnext (hstable _ _ ht)
  rintro s (ho | ⟨t, hst, ht⟩) turns hturns
  · exact Or.inl (hother.run turns ho)
  · rcases hrun turns s t hst ht with ho | hshows
    · exact Or.inl ho
    · exact Or.inr ⟨_, hshows, h t ht _ hturns.map⟩

end Rules

end JobSetOperator.Library
