import Mathlib.Data.List.Nodup
import Mathlib.Data.Set.Function

/-!
# Positions in a list

The elements of a list without repetitions are numbered by their positions. A
relation that holds along the list and never both ways is the order of the numbers.
-/
namespace JobSetOperator.Library

variable {α β : Type} [BEq α] [LawfulBEq α] {l : List α}

/-- The positions are the numbers below the length. -/
theorem bijOn_idxOf (hn : l.Nodup) :
    Set.BijOn (fun a => l.idxOf a) {a | a ∈ l} {k | k < l.length} := by
  refine ⟨?_, ?_, ?_⟩
  · intro a ha
    exact List.idxOf_lt_length_iff.mpr ha
  · intro a ha b _ hab
    exact (List.idxOf_inj ha).mp hab
  · intro k hk
    exact ⟨l.get ⟨k, hk⟩, List.get_mem l ⟨k, hk⟩, hn.idxOf_getElem k hk⟩

/-- What is said of the list as a whole, read at one element. -/
theorem eq_of_map_range {f : α → β} {g : ℕ → β} {n : ℕ} (h : l.map f = (List.range n).map g)
    {a : α} (ha : a ∈ l) : f a = g (l.idxOf a) := by
  have hk : l.idxOf a < l.length := List.idxOf_lt_length_iff.mpr ha
  have hget := congrArg (fun m => m[l.idxOf a]?) h
  have hn : l.length = n := by simpa using congrArg List.length h
  simpa [hk, hn ▸ hk] using hget

/-- The positions are ordered as the relation orders the elements. -/
theorem idxOf_lt_iff {R : α → α → Prop} (hR : l.Pairwise R) (hasymm : ∀ a b, R a b → ¬ R b a)
    {a b : α} (ha : a ∈ l) (hb : b ∈ l) : l.idxOf a < l.idxOf b ↔ R a b := by
  have hforward : ∀ {x y : α}, x ∈ l → y ∈ l → l.idxOf x < l.idxOf y → R x y := by
    intro x y hx hy hlt
    have hget := List.pairwise_iff_getElem.mp hR (l.idxOf x) (l.idxOf y)
      (List.idxOf_lt_length_iff.mpr hx) (List.idxOf_lt_length_iff.mpr hy) hlt
    simpa using hget
  constructor
  · exact hforward ha hb
  · intro hab
    rcases lt_trichotomy (l.idxOf a) (l.idxOf b) with hlt | heq | hgt
    · exact hlt
    · have hsame : a = b := (List.idxOf_inj ha).mp heq
      subst hsame
      exact absurd hab (hasymm a a hab)
    · exact absurd (hforward hb ha hgt) (hasymm a b hab)

end JobSetOperator.Library
