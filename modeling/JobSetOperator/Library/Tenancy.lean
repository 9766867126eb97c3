import Mathlib.Data.Set.Insert
import Mathlib.Logic.Relation
import Mathlib.Logic.Relator

/-!
# Places with one tenant

Tenants hold places. They give places up at any time, and one of them may take a place
that nobody else holds. Then no place ever has two tenants.
-/
namespace JobSetOperator.Library.Tenancy

variable {κ π : Type}

/-- No two tenants hold one place. -/
def Exclusive (held : Set (κ × π)) : Prop := Relator.LeftUnique fun k x => (k, x) ∈ held

/-- Some places are given up, and one tenant may take a place that no other one holds. -/
inductive Step (held : Set (κ × π)) : Set (κ × π) → Prop
  | release {held' : Set (κ × π)} (h : held' ⊆ held) : Step held held'
  | take {held' : Set (κ × π)} (k : κ) (x : π) (vacant : ∀ k', (k', x) ∈ held → k' = k)
    (h : held' ⊆ insert (k, x) held) : Step held held'

/-- Any number of steps. -/
def Run : Set (κ × π) → Set (κ × π) → Prop := Relation.ReflTransGen Step

variable {held held' : Set (κ × π)}

theorem exclusive_empty : Exclusive (∅ : Set (κ × π)) := fun _ _ _ h => h.elim

theorem Exclusive.mono (h : Exclusive held) (hsub : held' ⊆ held) : Exclusive held' :=
  fun _ _ _ hk hk' => h (hsub hk) (hsub hk')

/-- A tenant that takes a vacant place is its only one. -/
theorem Exclusive.insert (h : Exclusive held) {k : κ} {x : π}
    (vacant : ∀ k', (k', x) ∈ held → k' = k) : Exclusive (insert (k, x) held) := by
  intro a b y ha hb
  rcases ha with ha | ha
  · cases ha
    rcases hb with hb | hb
    · cases hb
      rfl
    · exact (vacant b hb).symm
  · rcases hb with hb | hb
    · cases hb
      exact vacant a ha
    · exact h ha hb

theorem Step.exclusive (hstep : Step held held') (h : Exclusive held) : Exclusive held' := by
  cases hstep with
  | release hsub => exact h.mono hsub
  | take k x vacant hsub => exact (h.insert vacant).mono hsub

theorem Run.exclusive (hrun : Run held held') (h : Exclusive held) : Exclusive held' := by
  induction hrun with
  | refl => exact h
  | tail _ hstep ih => exact hstep.exclusive ih

end JobSetOperator.Library.Tenancy
