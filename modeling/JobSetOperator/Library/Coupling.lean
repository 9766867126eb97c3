import JobSetOperator.Library.Programs

/-!
# Two programs with the same calls

`Coupled` relates two programs that make corresponding calls, whatever the answers:
each call of the first is linked to the next call of the second, and both go on
with the same answer. As for `Follows`, a ghost state is moved by the answers.
-/
namespace JobSetOperator.Library

namespace Program

variable {Req : Type} {Resp : Req → Type} {ε α β α' β' σ : Type}

section Coupling

variable (L : σ → Req → Req → Prop) (next : σ → (r : Req) → Resp r → σ)

/-- The programs make linked calls on every path, fail alike, and end normally with
related values. -/
inductive Coupled (R : σ → α → β → Prop) :
    σ → Program Req Resp ε α → Program Req Resp ε β → Prop
  | done {s : σ} {a : α} {b : β} (h : R s a b) : Coupled R s (.done a) (.done b)
  | fail {s : σ} (e : ε) : Coupled R s (.fail e) (.fail e)
  | call {s : σ} {r r' : Req} {k : Resp r → Program Req Resp ε α}
      {k' : Resp r' → Program Req Resp ε β} (hlink : L s r r') (hresp : Resp r = Resp r')
      (h : ∀ x, Coupled R (next s r x) (k x) (k' (cast hresp x))) :
      Coupled R s (.call r k) (.call r' k')

variable {L next}

theorem Coupled.mono {R R' : σ → α → β → Prop} {s : σ} {p : Program Req Resp ε α}
    {q : Program Req Resp ε β} (h : Coupled L next R s p q) (hR : ∀ s a b, R s a b → R' s a b) :
    Coupled L next R' s p q := by
  induction h with
  | done h => exact .done (hR _ _ _ h)
  | fail e => exact .fail e
  | call hlink hresp _ ih => exact .call hlink hresp ih

/-- The sequencing rule. -/
theorem Coupled.bind {R : σ → α → β → Prop} {R' : σ → α' → β' → Prop} {s : σ}
    {p : Program Req Resp ε α} {q : Program Req Resp ε β} {f : α → Program Req Resp ε α'}
    {g : β → Program Req Resp ε β'} (h : Coupled L next R s p q)
    (hf : ∀ s a b, R s a b → Coupled L next R' s (f a) (g b)) :
    Coupled L next R' s (p >>= f) (q >>= g) := by
  induction h with
  | done h => exact hf _ _ _ h
  | fail e => exact .fail e
  | call hlink hresp _ ih => exact .call hlink hresp ih

/-- A program whose calls are linked to themselves and leave the ghost state alone is
coupled with itself. -/
theorem Coupled.refl {P : Req → Prop} (hlink : ∀ s r, P r → L s r r)
    (hnext : ∀ s r x, P r → next s r x = s) {p : Program Req Resp ε α}
    (h : Follows (fun (_ : Unit) r => P r) (fun _ _ _ => ()) (fun _ _ => True) () p) (s : σ) :
    Coupled L next (fun s' a b => a = b ∧ s' = s) s p p := by
  induction p with
  | done a => exact .done ⟨rfl, rfl⟩
  | fail e => exact .fail e
  | call r k ih =>
    refine .call (hlink s r h.1) rfl fun x => ?_
    rw [hnext s r x h.1]
    exact ih x (h.2 x)

end Coupling

end Program

end JobSetOperator.Library
