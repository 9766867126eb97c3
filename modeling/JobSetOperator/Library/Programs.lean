import Mathlib.Tactic
import Mathlib.Logic.Relation

/-!
# Programs that talk to an environment

A program is a finite tree: it is done with a value, it fails with an error, or
it issues one request and continues with whatever the environment answers. The
answers are unconstrained, so a statement about every path of the tree covers
every pattern of refused, lost and repeated calls.

`Follows` is the weakest precondition of such a tree. It carries a ghost state
that the answers move, so that what a request may contain can depend on which
earlier requests were acknowledged. `Issues` and `Returns` are the existential
counterparts: some path issues a request, or ends with a value. `Path` is one
whole way through the tree, with the answers an environment allows.
-/
namespace JobSetOperator.Library

/-- Request trees. `fail` ends the program with an error, as an early return does. -/
inductive Program (Req : Type) (Resp : Req → Type) (ε : Type) (α : Type) : Type where
  | done (a : α)
  | fail (e : ε)
  | call (r : Req) (k : Resp r → Program Req Resp ε α)

namespace Program

variable {Req : Type} {Resp : Req → Type} {ε α β γ : Type}

/-- Sequencing; a failed first part is the failure of the whole. -/
def bind : Program Req Resp ε α → (α → Program Req Resp ε β) → Program Req Resp ε β
  | .done a, f => f a
  | .fail e, _ => .fail e
  | .call r k, f => .call r fun x => (k x).bind f

instance : Monad (Program Req Resp ε) where
  pure := .done
  bind := bind

/-- Issue one request and return its answer. -/
def ask (r : Req) : Program Req Resp ε (Resp r) := .call r .done

@[simp] theorem pure_eq (a : α) : (pure a : Program Req Resp ε α) = .done a := rfl

@[simp] theorem done_bind (a : α) (f : α → Program Req Resp ε β) :
    (Program.done a : Program Req Resp ε α) >>= f = f a := rfl

@[simp] theorem fail_bind (e : ε) (f : α → Program Req Resp ε β) :
    (Program.fail e : Program Req Resp ε α) >>= f = .fail e := rfl

@[simp] theorem call_bind (r : Req) (k : Resp r → Program Req Resp ε α)
    (f : α → Program Req Resp ε β) :
    (Program.call r k) >>= f = .call r fun x => k x >>= f := rfl

@[simp] theorem ask_bind (r : Req) (f : Resp r → Program Req Resp ε β) :
    (ask r : Program Req Resp ε (Resp r)) >>= f = .call r f := rfl

theorem assoc (p : Program Req Resp ε α) (f : α → Program Req Resp ε β)
    (g : β → Program Req Resp ε γ) : p >>= f >>= g = p >>= fun a => f a >>= g := by
  induction p with
  | done a => rfl
  | fail e => rfl
  | call r k ih =>
    simp only [call_bind]
    exact congrArg (Program.call r) (funext fun x => ih x)

section Ghost

variable {σ : Type} (P : σ → Req → Prop) (next : σ → (r : Req) → Resp r → σ)

/-- On every path each request meets `P` at the ghost state reached so far, and
a normal end meets `Q`. Nothing is asked of a failed end: nothing follows it. -/
def Follows (Q : σ → α → Prop) : σ → Program Req Resp ε α → Prop
  | s, .done a => Q s a
  | _, .fail _ => True
  | s, .call r k => P s r ∧ ∀ x, Follows Q (next s r x) (k x)

variable {P next}

@[simp] theorem follows_done {Q : σ → α → Prop} {s : σ} {a : α} :
    Follows P next Q s (Program.done a : Program Req Resp ε α) ↔ Q s a := Iff.rfl

@[simp] theorem follows_fail {Q : σ → α → Prop} {s : σ} {e : ε} :
    Follows P next Q s (Program.fail e : Program Req Resp ε α) ↔ True := Iff.rfl

@[simp] theorem follows_call {Q : σ → α → Prop} {s : σ} {r : Req}
    {k : Resp r → Program Req Resp ε α} :
    Follows P next Q s (.call r k) ↔ P s r ∧ ∀ x, Follows P next Q (next s r x) (k x) := Iff.rfl

/-- The sequencing rule: the postcondition of the first part is the
precondition of the second. -/
theorem follows_bind {Q : σ → β → Prop} {s : σ} (p : Program Req Resp ε α)
    (f : α → Program Req Resp ε β) :
    Follows P next Q s (p >>= f) ↔ Follows P next (fun s' a => Follows P next Q s' (f a)) s p := by
  induction p generalizing s with
  | done a => rfl
  | fail e => rfl
  | call r k ih => simp only [call_bind, follows_call, ih]

theorem Follows.mono {P' : σ → Req → Prop} {Q Q' : σ → α → Prop} {s : σ}
    {p : Program Req Resp ε α} (h : Follows P next Q s p) (hP : ∀ s r, P s r → P' s r)
    (hQ : ∀ s a, Q s a → Q' s a) : Follows P' next Q' s p := by
  induction p generalizing s with
  | done a => exact hQ s a h
  | fail e => trivial
  | call r k ih => exact ⟨hP s r h.1, fun x => ih x (h.2 x)⟩

/-- The sequencing rule in the direction proofs use it. -/
theorem Follows.bind {R : σ → α → Prop} {Q : σ → β → Prop} {s : σ}
    {p : Program Req Resp ε α} {f : α → Program Req Resp ε β}
    (h : Follows P next R s p) (hf : ∀ s' a, R s' a → Follows P next Q s' (f a)) :
    Follows P next Q s (p >>= f) :=
  (follows_bind p f).mpr (h.mono (fun _ _ hr => hr) hf)

end Ghost

/-- Some path of the program issues the request. -/
def Issues (r : Req) : Program Req Resp ε α → Prop
  | .done _ => False
  | .fail _ => False
  | .call r' k => r' = r ∨ ∃ x, Issues r (k x)

/-- Some path of the program ends normally with the value. -/
def Returns (a : α) : Program Req Resp ε α → Prop
  | .done b => b = a
  | .fail _ => False
  | .call _ k => ∃ x, Returns a (k x)

theorem Issues.bind_left {r : Req} {p : Program Req Resp ε α} (f : α → Program Req Resp ε β)
    (h : Issues r p) : Issues r (p >>= f) := by
  induction p with
  | done a => exact h.elim
  | fail e => exact h.elim
  | call r' k ih =>
    rcases h with h | ⟨x, h⟩
    · exact Or.inl h
    · exact Or.inr ⟨x, ih x h⟩

theorem Returns.issues_bind {r : Req} {a : α} {p : Program Req Resp ε α}
    {f : α → Program Req Resp ε β} (hp : Returns a p) (hf : Issues r (f a)) :
    Issues r (p >>= f) := by
  induction p with
  | done b => cases hp; exact hf
  | fail e => exact hp.elim
  | call r' k ih =>
    obtain ⟨x, hx⟩ := hp
    exact Or.inr ⟨x, ih x hx⟩

theorem Returns.bind {a : α} {b : β} {p : Program Req Resp ε α} {f : α → Program Req Resp ε β}
    (hp : Returns a p) (hf : Returns b (f a)) : Returns b (p >>= f) := by
  induction p with
  | done c => cases hp; exact hf
  | fail e => exact hp.elim
  | call r' k ih =>
    obtain ⟨x, hx⟩ := hp
    exact ⟨x, ih x hx⟩

/-- What holds of every request on every path holds of each one issued, at the
ghost state it is issued in. -/
theorem Follows.of_issues {σ : Type} {P : σ → Req → Prop} {next : σ → (r : Req) → Resp r → σ}
    {Q : σ → α → Prop} {s : σ} {r : Req} {p : Program Req Resp ε α} (h : Follows P next Q s p)
    (hr : Issues r p) : ∃ s', P s' r := by
  induction p generalizing s with
  | done a => exact hr.elim
  | fail e => exact hr.elim
  | call r' k ih =>
    rcases hr with rfl | ⟨x, hx⟩
    · exact ⟨s, h.1⟩
    · exact ih x (h.2 x) hx

/-! ## Paths -/

section Paths

variable (A : (r : Req) → Resp r → Prop)

/-- One way through the program: its calls with their answers, each allowed by
`A`, and the value or the error it ends with. -/
def Path : Program Req Resp ε α → List (Σ r, Resp r) → Except ε α → Prop
  | .done a, t, res => t = [] ∧ res = .ok a
  | .fail e, t, res => t = [] ∧ res = .error e
  | .call r k, t, res => ∃ x t', A r x ∧ t = ⟨r, x⟩ :: t' ∧ Path (k x) t' res

variable {A}

@[simp] theorem path_done {a : α} {t : List (Σ r, Resp r)} {res : Except ε α} :
    Path A (Program.done a : Program Req Resp ε α) t res ↔ t = [] ∧ res = .ok a := Iff.rfl

@[simp] theorem path_fail {e : ε} {t : List (Σ r, Resp r)} {res : Except ε α} :
    Path A (Program.fail e : Program Req Resp ε α) t res ↔ t = [] ∧ res = .error e := Iff.rfl

@[simp] theorem path_call {r : Req} {k : Resp r → Program Req Resp ε α} {t : List (Σ r, Resp r)}
    {res : Except ε α} :
    Path A (.call r k) t res ↔ ∃ x t', A r x ∧ t = ⟨r, x⟩ :: t' ∧ Path A (k x) t' res := Iff.rfl

theorem path_ask_bind {r : Req} {f : Resp r → Program Req Resp ε α} {t : List (Σ r, Resp r)}
    {res : Except ε α} :
    Path A (ask r >>= f) t res ↔ ∃ x t', A r x ∧ t = ⟨r, x⟩ :: t' ∧ Path A (f x) t' res := Iff.rfl

/-- A way through two parts ends in the first one or goes through both. -/
theorem path_bind {p : Program Req Resp ε α} {f : α → Program Req Resp ε β}
    {t : List (Σ r, Resp r)} {res : Except ε β} :
    Path A (p >>= f) t res ↔
      (∃ e, res = .error e ∧ Path A p t (.error e)) ∨
      ∃ t₁ t₂ a, t = t₁ ++ t₂ ∧ Path A p t₁ (.ok a) ∧ Path A (f a) t₂ res := by
  induction p generalizing t with
  | done a =>
    simp only [done_bind, path_done, reduceCtorEq, and_false, exists_false, false_or]
    constructor
    · intro h
      exact ⟨[], t, a, rfl, ⟨rfl, rfl⟩, h⟩
    · rintro ⟨t₁, t₂, b, rfl, ⟨rfl, hb⟩, h⟩
      cases hb
      exact h
  | fail e =>
    simp only [fail_bind, path_fail]
    constructor
    · rintro ⟨rfl, rfl⟩
      exact Or.inl ⟨e, rfl, rfl, rfl⟩
    · rintro (⟨e', rfl, rfl, h⟩ | ⟨t₁, t₂, b, -, ⟨-, hb⟩, -⟩)
      · cases h
        exact ⟨rfl, rfl⟩
      · cases hb
  | call r k ih =>
    simp only [call_bind, path_call]
    constructor
    · rintro ⟨x, t', hx, rfl, h⟩
      rcases (ih x).mp h with ⟨e, rfl, he⟩ | ⟨t₁, t₂, a, rfl, ha, hf⟩
      · exact Or.inl ⟨e, rfl, x, t', hx, rfl, he⟩
      · exact Or.inr ⟨⟨r, x⟩ :: t₁, t₂, a, rfl, ⟨x, t₁, hx, rfl, ha⟩, hf⟩
    · rintro (⟨e, rfl, x, t', hx, rfl, he⟩ | ⟨t₁, t₂, a, rfl, ⟨x, t', hx, rfl, ha⟩, hf⟩)
      · exact ⟨x, t', hx, rfl, (ih x).mpr (Or.inl ⟨e, rfl, he⟩)⟩
      · exact ⟨x, t' ++ t₂, hx, rfl, (ih x).mpr (Or.inr ⟨t', t₂, a, rfl, ha, hf⟩)⟩

/-- The way through the program with the given answers. -/
def run (answer : (r : Req) → Resp r) :
    Program Req Resp ε α → List (Σ r, Resp r) × Except ε α
  | .done a => ([], .ok a)
  | .fail e => ([], .error e)
  | .call r k =>
    let rest := run answer (k (answer r))
    (⟨r, answer r⟩ :: rest.1, rest.2)

theorem path_run {answer : (r : Req) → Resp r} (hA : ∀ r, A r (answer r))
    (p : Program Req Resp ε α) : Path A p (run answer p).1 (run answer p).2 := by
  induction p with
  | done a => exact ⟨rfl, rfl⟩
  | fail e => exact ⟨rfl, rfl⟩
  | call r k ih => exact ⟨answer r, _, hA r, rfl, ih (answer r)⟩

/-- A way through the first part goes on through the second one. -/
theorem Path.exists_bind {answer : (r : Req) → Resp r} (hA : ∀ r, A r (answer r))
    {p : Program Req Resp ε α} {t : List (Σ r, Resp r)} {res : Except ε α} (h : Path A p t res)
    (f : α → Program Req Resp ε β) : ∃ t' res', Path A (p >>= f) (t ++ t') res' := by
  cases res with
  | error e => exact ⟨[], .error e, path_bind.mpr (Or.inl ⟨e, rfl, by simpa using h⟩)⟩
  | ok a =>
    have h' := path_run hA (f a)
    exact ⟨_, _, path_bind.mpr (Or.inr ⟨t, _, a, rfl, h, h'⟩)⟩

end Paths

end Program

end JobSetOperator.Library
