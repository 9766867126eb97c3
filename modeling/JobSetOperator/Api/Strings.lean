import Mathlib.Data.Finmap
import Mathlib.Tactic

/-!
# Decimal strings, string maps and generated names

Counters travel through labels and annotations as decimal strings, so the
controller reads its own numbers back with `strconv.Atoi`. The round trip
`atoi_itoa` is what lets every later proof speak about the numbers themselves.
-/
namespace JobSetOperator

/-- Labels, annotations and node selectors. A nil map and an empty one are identified. -/
abbrev StrMap := Finmap fun _ : String => String

/-- `m[key]` in Go: the empty string when the key is missing. -/
def StrMap.get (m : StrMap) (key : String) : String := (m.lookup key).getD ""

/-- `collections.MergeMaps`: the second map wins on a common key. -/
def mergeMaps (old new : StrMap) : StrMap := new ∪ old

/-- `strconv.Itoa`. -/
def itoa (n : ℤ) : String := toString n

/-- An unsigned run of decimal digits. -/
def parseDigits (cs : List Char) : Option ℕ :=
  if cs ≠ [] ∧ cs.all Char.isDigit then some (Nat.ofDigitChars 10 cs 0) else none

/-- The number a decimal string denotes: an optional sign and digits. -/
def parseInt (s : String) : Option ℤ :=
  match s.toList with
  | '-' :: cs => (parseDigits cs).map fun n => -(n : ℤ)
  | '+' :: cs => (parseDigits cs).map fun n => (n : ℤ)
  | cs => (parseDigits cs).map fun n => (n : ℤ)

/-- `strconv.Atoi`: the number, when it fits 64 bits. -/
def atoi (s : String) : Option ℤ :=
  (parseInt s).filter fun n => decide (-(2 ^ 63) ≤ n ∧ n < 2 ^ 63)

/-- Conversion to a signed 32-bit integer keeps the low 32 bits. -/
def int32 (n : ℤ) : ℤ := n.bmod (2 ^ 32)

theorem int32_of_range {n : ℤ} (hl : -(2 ^ 31) ≤ n) (hu : n < 2 ^ 31) : int32 n = n := by
  unfold int32
  rw [Int.bmod_eq_of_le_mul_two] <;> omega

theorem int32_range (n : ℤ) : -(2 ^ 31) ≤ int32 n ∧ int32 n < 2 ^ 31 := by
  have hl := Int.le_bmod (x := n) (m := 2 ^ 32) (by decide)
  have hu := Int.bmod_lt (x := n) (m := 2 ^ 32) (by decide)
  unfold int32
  omega

theorem int32_eq_iff {n : ℤ} : int32 n = n ↔ -(2 ^ 31) ≤ n ∧ n < 2 ^ 31 := by
  constructor
  · intro h
    rw [← h]
    exact int32_range n
  · rintro ⟨hl, hu⟩
    exact int32_of_range hl hu

theorem parseDigits_toDigits (n : ℕ) : parseDigits (Nat.toDigits 10 n) = some n := by
  have hne : Nat.toDigits 10 n ≠ [] := Nat.toDigits_ne_nil
  have hall : (Nat.toDigits 10 n).all Char.isDigit = true :=
    List.all_eq_true.mpr fun c hc => Nat.isDigit_of_mem_toDigits (by decide) (by decide) hc
  simp [parseDigits, hne, hall]

/-- A run of digits carries no sign, so it is read by the last case of `parseInt`. -/
theorem parseInt_of_digits {s : String} {cs : List Char} (hs : s.toList = cs)
    (hd : ∀ c ∈ cs, c.isDigit) : parseInt s = (parseDigits cs).map fun n => (n : ℤ) := by
  unfold parseInt
  rw [hs]
  split
  · have := hd '-' (by simp)
    simp at this
  · have := hd '+' (by simp)
    simp at this
  · rfl

/-- Reading back a written number gives the number. -/
@[simp] theorem parseInt_itoa (n : ℤ) : parseInt (itoa n) = some n := by
  have hdigit : ∀ m : ℕ, ∀ c ∈ Nat.toDigits 10 m, c.isDigit := fun m c hc =>
    Nat.isDigit_of_mem_toDigits (by decide) (by decide) hc
  cases n with
  | ofNat m =>
    have hs : (itoa (Int.ofNat m)).toList = Nat.toDigits 10 m := by
      change (Nat.repr m).toList = _
      exact Nat.toList_repr
    rw [parseInt_of_digits hs (hdigit m), parseDigits_toDigits]
    rfl
  | negSucc m =>
    have hs : (itoa (Int.negSucc m)).toList = '-' :: Nat.toDigits 10 (m + 1) := by
      change ("-" ++ Nat.repr (m + 1)).toList = _
      simp [Nat.toList_repr]
    simp only [parseInt, hs, parseDigits_toDigits]
    rfl

theorem itoa_injective : Function.Injective itoa := by
  intro a b h
  have := congrArg parseInt h
  simpa using this

/-- A number of 64 bits survives the trip through a label or an annotation. -/
theorem atoi_itoa {n : ℤ} (hl : -(2 ^ 63) ≤ n) (hu : n < 2 ^ 63) : atoi (itoa n) = some n := by
  simp only [atoi, parseInt_itoa, Option.filter_some, hl, hu, and_self, decide_true, if_true]

/-- `placement.GenJobName`. -/
def genJobName (jsName rjobName : String) (jobIndex : ℤ) : String :=
  jsName ++ "-" ++ rjobName ++ "-" ++ itoa jobIndex

/-- `placement.GenPodName`. -/
def genPodName (jobSet replicatedJob jobIndex podIndex : String) : String :=
  jobSet ++ "-" ++ replicatedJob ++ "-" ++ jobIndex ++ "-" ++ podIndex

/-! ## Indexes in names -/

theorem toList_itoa (n : ℕ) : (itoa n).toList = Nat.toDigits 10 n := by
  change (Nat.repr n).toList = _
  exact Nat.toList_repr

theorem isDigit_of_mem_itoa {n : ℕ} {c : Char} (h : c ∈ (itoa n).toList) : c.isDigit = true := by
  rw [toList_itoa] at h
  exact Nat.isDigit_of_mem_toDigits (by decide) (by decide) h

theorem itoa_toList_ne_nil (n : ℕ) : (itoa n).toList ≠ [] := by
  rw [toList_itoa]
  exact Nat.toDigits_ne_nil

/-- A larger index has at least as many digits. -/
theorem length_itoa_mono {m n : ℕ} (h : m ≤ n) : (itoa m).length ≤ (itoa n).length := by
  change (Nat.repr m).length ≤ (Nat.repr n).length
  have hn : n < 10 ^ (Nat.repr n).length := (Nat.length_repr_le_iff Nat.length_repr_pos).mp le_rfl
  exact (Nat.length_repr_le_iff Nat.length_repr_pos).mpr (h.trans_lt hn)

/-- The part after the last separator can be read off a list. -/
theorem eq_of_last_separator {α : Type} [DecidableEq α] {sep : α} {a b x y : List α}
    (hx : sep ∉ x) (hy : sep ∉ y) (h : a ++ sep :: x = b ++ sep :: y) : a = b ∧ x = y := by
  have hreverse : x.reverse ++ sep :: a.reverse = y.reverse ++ sep :: b.reverse := by
    simpa using congrArg List.reverse h
  have htake : ∀ u v : List α, sep ∉ u →
      (u.reverse ++ sep :: v).takeWhile (· ≠ sep) = u.reverse := by
    intro u v hu
    rw [List.takeWhile_append_of_pos, List.takeWhile_cons_of_neg (by simp), List.append_nil]
    intro c hc
    simp only [ne_eq, decide_not, Bool.not_eq_eq_eq_not, Bool.not_true, decide_eq_false_iff_not]
    rintro rfl
    exact hu (List.mem_reverse.mp hc)
  have hxy : x = y := by
    have := congrArg (List.takeWhile (· ≠ sep)) hreverse
    rw [htake x _ hx, htake y _ hy] at this
    exact List.reverse_injective this
  subst hxy
  exact ⟨List.append_cancel_right h, rfl⟩

/-- The name of a child Job determines its ReplicatedJob and its index. -/
theorem genJobName_inj {jsName rjobName rjobName' : String} {m n : ℕ}
    (h : genJobName jsName rjobName m = genJobName jsName rjobName' n) :
    rjobName = rjobName' ∧ m = n := by
  have hdash : ∀ k : ℕ, '-' ∉ (itoa k).toList := fun k hk => by
    have := isDigit_of_mem_itoa hk
    simp at this
  have hlist := congrArg String.toList h
  simp only [genJobName, String.toList_append, List.append_assoc] at hlist
  have hlist' : (jsName.toList ++ '-' :: rjobName.toList) ++ '-' :: (itoa m).toList =
      (jsName.toList ++ '-' :: rjobName'.toList) ++ '-' :: (itoa n).toList := by
    simpa using hlist
  obtain ⟨hbase, hindex⟩ := eq_of_last_separator (hdash m) (hdash n) hlist'
  have hrjob : rjobName.toList = rjobName'.toList := by simpa using hbase
  exact ⟨String.toList_injective hrjob,
    by exact_mod_cast itoa_injective (String.toList_injective hindex)⟩

end JobSetOperator
