import Mathlib.Data.List.Forall2
import Mathlib.Data.List.Nodup
import Mathlib.Data.Option.Basic

/-!
# Lists with keys

Elements of a list that are told apart by a key: the element of a key is found,
and it is the only one. Lists that are related position by position are searched alike.
-/
namespace JobSetOperator.Library

variable {α κ : Type} {key : α → κ} {l : List α}

/-- With different keys the key decides the element. -/
theorem eq_of_key (hn : (l.map key).Nodup) {a b : α} (ha : a ∈ l) (hb : b ∈ l)
    (h : key a = key b) : a = b :=
  List.inj_on_of_nodup_map hn ha hb h

/-- With different keys a search by key finds the element. -/
theorem find?_of_nodup [DecidableEq κ] (hn : (l.map key).Nodup) {a : α} (h : a ∈ l) :
    l.find? (fun b => key b = key a) = some a := by
  cases hfind : l.find? fun b => key b = key a with
  | none =>
    have hnone := List.find?_eq_none.mp hfind a h
    simp at hnone
  | some found =>
    have hkey : key found = key a := by simpa using List.find?_some hfind
    rw [eq_of_key hn (List.mem_of_find?_eq_some hfind) h hkey]

/-- Two lists that are related position by position are searched alike. -/
theorem find?_forall₂ {β : Type} {R : α → β → Prop} {p : α → Bool} {q : β → Bool} {l' : List β}
    (h : List.Forall₂ R l l') (hpq : ∀ a b, R a b → p a = q b) :
    Option.Rel R (l.find? p) (l'.find? q) := by
  induction h with
  | nil => exact Option.Rel.none
  | cons hfirst _ ih =>
    rw [List.find?_cons, List.find?_cons, hpq _ _ hfirst]
    split
    · exact Option.Rel.some hfirst
    · exact ih

theorem forall₂_and {β : Type} {R S : α → β → Prop} {l' : List β} (hR : List.Forall₂ R l l')
    (hS : List.Forall₂ S l l') : List.Forall₂ (fun a b => R a b ∧ S a b) l l' := by
  rw [List.forall₂_iff_get] at hR hS ⊢
  exact ⟨hR.1, fun i hi hi' => ⟨hR.2 i hi hi', hS.2 i hi hi'⟩⟩

/-- An element of the second list has a partner in the first. -/
theorem exists_of_forall₂ {β : Type} {R : α → β → Prop} {l' : List β} (h : List.Forall₂ R l l')
    {b : β} (hb : b ∈ l') : ∃ a ∈ l, R a b := by
  induction h with
  | nil => cases hb
  | cons hfirst _ ih =>
    rcases List.mem_cons.mp hb with rfl | hb
    · exact ⟨_, List.mem_cons_self, hfirst⟩
    · obtain ⟨a, ha, hab⟩ := ih hb
      exact ⟨a, List.mem_cons_of_mem _ ha, hab⟩

end JobSetOperator.Library
