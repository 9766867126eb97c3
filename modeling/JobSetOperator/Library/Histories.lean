import Mathlib.Tactic
import Mathlib.Logic.Relation

/-!
# Append-only histories and lagging readers

A server keeps the current value of an object; a watch delivers its past values
in order. A `History` is the sequence of all values written so far. A lagging
but monotone reader is a position in that sequence that never moves back: what
it sees is an earlier value, and what it sees later is not older.

The second half is the invariant rule for step relations, in the form used for
every run of a modelled cluster.
-/
namespace JobSetOperator.Library

/-- All values written so far; `entry 0` is the first and `entry top` the current one. -/
structure History (α : Type) where
  entry : ℕ → α
  top : ℕ

namespace History

variable {α : Type}

/-- A history with one value. -/
def single (a : α) : History α := ⟨fun _ => a, 0⟩

/-- The current value. -/
def current (h : History α) : α := h.entry h.top

/-- Write a new value. -/
def push (h : History α) (a : α) : History α := ⟨Function.update h.entry (h.top + 1) a, h.top + 1⟩

@[simp] theorem single_top (a : α) : (single a).top = 0 := rfl
@[simp] theorem single_entry (a : α) (i : ℕ) : (single a).entry i = a := rfl
@[simp] theorem single_current (a : α) : (single a).current = a := rfl
@[simp] theorem push_top (h : History α) (a : α) : (h.push a).top = h.top + 1 := rfl
@[simp] theorem push_current (h : History α) (a : α) : (h.push a).current = a := by
  simp [current, push]

theorem push_entry_of_le (h : History α) (a : α) {i : ℕ} (hi : i ≤ h.top) :
    (h.push a).entry i = h.entry i := by
  have hne : i ≠ h.top + 1 := by omega
  simp [push, hne]

@[simp] theorem push_entry_top (h : History α) (a : α) : (h.push a).entry (h.top + 1) = a := by
  simp [push]

/-- A value of the longer history is an old one or the new one. -/
theorem push_entry_cases (h : History α) (a : α) {i : ℕ} (hi : i ≤ (h.push a).top) :
    (i ≤ h.top ∧ (h.push a).entry i = h.entry i) ∨ (i = h.top + 1 ∧ (h.push a).entry i = a) := by
  rcases Nat.lt_or_ge h.top i with hlt | hle
  · have he : i = h.top + 1 := by simp at hi; omega
    subst he
    exact Or.inr ⟨rfl, push_entry_top h a⟩
  · exact Or.inl ⟨hle, push_entry_of_le h a hle⟩

/-- A property of every value written so far. -/
def All (P : α → Prop) (h : History α) : Prop := ∀ i ≤ h.top, P (h.entry i)

theorem all_single {P : α → Prop} {a : α} (ha : P a) : All P (single a) := fun _ _ => ha

theorem All.push {P : α → Prop} {h : History α} {a : α} (hh : All P h) (ha : P a) :
    All P (h.push a) := by
  intro i hi
  rcases push_entry_cases h a hi with ⟨hle, he⟩ | ⟨-, he⟩
  · rw [he]
    exact hh i hle
  · rw [he]
    exact ha

theorem All.current {P : α → Prop} {h : History α} (hh : All P h) : P h.current :=
  hh h.top le_rfl

theorem All.mono {P Q : α → Prop} {h : History α} (hh : All P h) (hPQ : ∀ a, P a → Q a) :
    All Q h := fun i hi => hPQ _ (hh i hi)

/-- Every later value is related to every earlier one. -/
def Ordered (R : α → α → Prop) (h : History α) : Prop :=
  ∀ i j, i ≤ j → j ≤ h.top → R (h.entry i) (h.entry j)

theorem ordered_single {R : α → α → Prop} {a : α} (ha : R a a) : Ordered R (single a) :=
  fun _ _ _ _ => ha

/-- One related write keeps the whole history related. -/
theorem Ordered.push {R : α → α → Prop} (hrefl : ∀ a, R a a)
    (htrans : ∀ a b c, R a b → R b c → R a c) {h : History α} {a : α} (hh : Ordered R h)
    (ha : R h.current a) : Ordered R (h.push a) := by
  intro i j hij hj
  rcases push_entry_cases h a hj with ⟨hle, he⟩ | ⟨rfl, he⟩
  · rw [he, push_entry_of_le h a (hij.trans hle)]
    exact hh i j hij hle
  · rcases push_entry_cases h a hij with ⟨hi, hi'⟩ | ⟨-, hi'⟩
    · rw [he, hi']
      exact htrans _ _ _ (hh i h.top hi le_rfl) ha
    · rw [he, hi']
      exact hrefl _

theorem Ordered.le_current {R : α → α → Prop} {h : History α} (hh : Ordered R h) {i : ℕ}
    (hi : i ≤ h.top) : R (h.entry i) h.current := hh i h.top hi le_rfl

/-- `h'` has all values of `h` and perhaps more. -/
def Grows (h h' : History α) : Prop := h.top ≤ h'.top ∧ ∀ i ≤ h.top, h'.entry i = h.entry i

theorem grows_of_push {h h' : History α} (hp : h' = h ∨ ∃ a, h' = h.push a) : h.Grows h' := by
  rcases hp with rfl | ⟨a, rfl⟩
  · exact ⟨le_rfl, fun _ _ => rfl⟩
  · exact ⟨Nat.le_succ _, fun i hi => h.push_entry_of_le a hi⟩

/-- Values that follow each other by a step, or look the same, are a run from any to any later. -/
theorem run_of_steps {β : Type} {f : α → β} {r : β → β → Prop} {h : History α}
    (hsteps : ∀ v < h.top, f (h.entry (v + 1)) = f (h.entry v) ∨
      r (f (h.entry v)) (f (h.entry (v + 1)))) :
    h.Ordered fun a b => Relation.ReflTransGen r (f a) (f b) := by
  intro i j hij
  induction j, hij using Nat.le_induction with
  | base => exact fun _ => .refl
  | succ v hv ih =>
    intro hle
    have hrun := ih (Nat.le_of_succ_le hle)
    rcases hsteps v hle with hsame | hstep
    · rw [hsame]
      exact hrun
    · exact hrun.tail hstep

/-- A value that is small at first and large later crosses the bound somewhere. -/
theorem exists_crossing {f : ℕ → ℕ} {n i : ℕ} (hfirst : f 0 ≤ n) (hlast : n < f i) :
    ∃ v < i, f v ≤ n ∧ n < f (v + 1) := by
  induction i with
  | zero => omega
  | succ i ih =>
    rcases Nat.lt_or_ge n (f i) with hlt | hge
    · obtain ⟨v, hv, hcross⟩ := ih hlt
      exact ⟨v, by omega, hcross⟩
    · exact ⟨i, by omega, hge, hlast⟩

end History

/-- An invariant of the initial states that every step preserves holds in every
state of every run. -/
theorem invariant_of_run {State : Type} {Step : State → State → Prop} {Init Inv : State → Prop}
    (hinit : ∀ s, Init s → Inv s) (hstep : ∀ s s', Inv s → Step s s' → Inv s')
    {s s' : State} (hs : Init s) (hrun : Relation.ReflTransGen Step s s') : Inv s' := by
  induction hrun with
  | refl => exact hinit s hs
  | tail _ hlast ih => exact hstep _ _ ih hlast

end JobSetOperator.Library
