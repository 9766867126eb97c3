import Mathlib.Data.List.Basic

/-!
# Tables of counters

A loop that files every element of a list under its key: the row of the key is
updated, an element without a row is skipped. The rows are independent, so the
whole loop is a loop of its own for every row.
-/
namespace JobSetOperator.Library

variable {α κ σ : Type} [DecidableEq κ]

/-- Update the row of a key; without such a row nothing happens. -/
def adjust (k : κ) (f : σ → σ) (table : List (κ × σ)) : List (κ × σ) :=
  table.map fun row => if row.1 = k then (row.1, f row.2) else row

/-- One turn of the loop. -/
def file (key : α → Option κ) (f : α → σ → σ) (table : List (κ × σ)) (a : α) : List (κ × σ) :=
  match key a with
  | some k => adjust k (f a) table
  | none => table

/-- The loop over the list. -/
def tally (key : α → Option κ) (f : α → σ → σ) (l : List α) (table : List (κ × σ)) :
    List (κ × σ) :=
  l.foldl (file key f) table

/-- A turn of the loop, seen from one row. -/
theorem file_eq_map (key : α → Option κ) (f : α → σ → σ) (table : List (κ × σ)) (a : α) :
    file key f table a =
      table.map fun row => (row.1, if key a = some row.1 then f a row.2 else row.2) := by
  unfold file
  cases hkey : key a with
  | none => simp
  | some k =>
    unfold adjust
    refine List.map_congr_left fun row _ => ?_
    by_cases hrow : row.1 = k
    · simp [hrow]
    · simp [hrow, Ne.symm hrow]

/-- Every row is updated by the elements of its key, in the order of the list. -/
theorem tally_eq_map (key : α → Option κ) (f : α → σ → σ) (l : List α) (table : List (κ × σ)) :
    tally key f l table = table.map fun row =>
      (row.1, (l.filter fun a => key a = some row.1).foldl (fun s a => f a s) row.2) := by
  unfold tally
  induction l generalizing table with
  | nil => simp
  | cons a rest ih =>
    rw [List.foldl_cons, ih, file_eq_map, List.map_map]
    refine List.map_congr_left fun row _ => ?_
    by_cases hkey : key a = some row.1 <;> simp [hkey]

end JobSetOperator.Library
