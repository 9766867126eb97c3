import JobSetOperator.Controller.Ledger
import JobSetOperator.Controller.Unexpired

/-!
# Status writes that rest on answers

What a reconcile has learned from the answers so far is a set that only grows. The
lemmas carry the statement that every status write is backed by that set through the
parts of a reconcile: a part without status writes has nothing to show, and the final
write is backed by what the reconcile ends with.
-/
namespace JobSetOperator

open Library Library.Program

section Evidence

variable {ι α β : Type} {learn : Set ι → (r : Request) → r.Response → Set ι}
  {P : Set ι → JobSet → Prop} {e : Set ι}

/-- A status write is backed by the evidence. -/
def Backs (P : Set ι → JobSet → Prop) (e : Set ι) : Request → Prop
  | .updateStatus js => P e js
  | _ => True

/-- Every status write of the program is backed; what it returns meets `Q`. -/
def Backed (learn : Set ι → (r : Request) → r.Response → Set ι)
    (P : Set ι → JobSet → Prop) (Q : Set ι → α → Prop) (e : Set ι) (p : Prog α) : Prop :=
  Follows (Backs P) learn Q e p

theorem Backed.bind {R : Set ι → α → Prop} {Q : Set ι → β → Prop} {p : Prog α} {f : α → Prog β}
    (hp : Backed learn P R e p)
    (hf : ∀ e' a, R e' a → Backed learn P Q e' (f a)) :
    Backed learn P Q e (p >>= f) :=
  Follows.bind hp hf

theorem Backed.mono {Q R : Set ι → α → Prop} {p : Prog α} (h : Backed learn P Q e p)
    (hQ : ∀ e' a, Q e' a → R e' a) : Backed learn P R e p :=
  Follows.mono h (fun _ _ hr => hr) hQ

/-- The answers add to the evidence. -/
def Grows (learn : Set ι → (r : Request) → r.Response → Set ι) : Prop :=
  ∀ e r x, e ⊆ learn e r x

/-- Without a status write there is nothing to back. -/
theorem backed_of_statusFree (hlearn : Grows learn) {Q : α → Prop} {p : Prog α}
    (h : Follows (fun (_ : Unit) r => Request.StatusFree r) (fun _ _ _ => ()) (fun _ a => Q a) () p)
    (e : Set ι) : Backed learn P (fun e' a => e ⊆ e' ∧ Q a) e p := by
  induction p generalizing e with
  | done a => exact ⟨fun _ hn => hn, h⟩
  | fail err => exact trivial
  | call r k ih =>
    refine ⟨?_, fun x => ?_⟩
    · cases r with
      | updateStatus js => exact h.1.elim
      | _ => exact trivial
    · apply Backed.mono (ih x (h.2 x) _)
      exact fun _ _ hs => ⟨fun _ hn => hs.1 (hlearn e r x hn), hs.2⟩

theorem Silently.backed (hlearn : Grows learn) {Q : α → Prop} {p : Prog α} (h : Silently Q p)
    (e : Set ι) : Backed learn P (fun e' a => e ⊆ e' ∧ Q a) e p := by
  apply backed_of_statusFree hlearn
  apply Follows.mono h
  · intro _ r hr
    cases r with
    | updateStatus js => exact hr
    | _ => exact trivial
  · exact fun _ _ hQ => hQ

theorem Quiet.backed (hlearn : Grows learn) {p : Prog α} (h : Quiet p) (e : Set ι) :
    Backed learn P (fun e' _ => e ⊆ e') e p :=
  (backed_of_statusFree hlearn h.statusless e).mono fun _ _ hs => hs.1

/-- The answer of the clock is learned like any other. -/
theorem backed_readClock {Q : Set ι → β → Prop} {f : Time → Prog β}
    (hf : ∀ now, Backed learn P Q (learn e .now now) (f now)) :
    Backed learn P Q e (readClock >>= f) :=
  ⟨trivial, hf⟩

/-- A reconcile that ends with a backed status writes nothing else in the end. -/
theorem backed_reconcileRequest (hlearn : Grows learn)
    (hmono : ∀ {e e' : Set ι} {js : JobSet}, e ⊆ e' → P e js → P e' js)
    {env : Env} {js : JobSet} {jobs : List Job}
    (h : jobSetMarkedForDeletion js = false →
      Backed learn P (fun e' r => P e' r.1.js) e (reconcile env js jobs)) :
    Backed learn P (fun _ _ => True) e (reconcileRequest env js jobs) := by
  unfold reconcileRequest
  split_ifs with hdel
  · exact trivial
  · apply (h (by simpa using hdel)).bind
    rintro e₁ ⟨p, requeueAfter⟩ hbacked
    apply Backed.bind (R := fun _ _ => True)
    · unfold updateJobSetStatus
      apply ((quiet_countMetrics p.metrics).backed hlearn e₁).bind
      intro e₂ _ hsub
      split_ifs
      · refine ⟨hmono hsub hbacked, fun outcome => ?_⟩
        cases outcome with
        | error err => exact trivial
        | ok _ =>
          apply ((quiet_emitEvents p.opts.events).backed hlearn _).mono
          exact fun _ _ _ => trivial
      · exact trivial
    · exact fun _ _ _ => trivial

end Evidence

end JobSetOperator
