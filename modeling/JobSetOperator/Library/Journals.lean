import JobSetOperator.Library.Programs

/-!
# The order of requests

The journal of a program lists its requests so far with their answers. `After` says
that a watched request is issued only once the journal shows what it needs. What a
journal shows it keeps showing, so one look at the stage that establishes it is enough.
`Follows.of_path` turns such a statement into one about complete paths.
-/
namespace JobSetOperator.Library.Program

variable {Req : Type} {Resp : Req → Type} {ε α β : Type}

/-- The requests so far with their answers. -/
abbrev Journal (Req : Type) (Resp : Req → Type) := List (Σ r : Req, Resp r)

/-- The journal after one more answer. -/
def record (s : Journal Req Resp) (r : Req) (x : Resp r) : Journal Req Resp := s ++ [⟨r, x⟩]

theorem foldl_record (s t : Journal Req Resp) :
    t.foldl (fun s e => record s e.1 e.2) s = s ++ t := by
  induction t generalizing s with
  | nil => rw [List.append_nil]; rfl
  | cons e t ih =>
    rw [List.foldl_cons, ih]
    simp [record]

/-- On a path every request meets `P` at the ghost state its predecessors have led to. -/
theorem Follows.of_path {σ : Type} {P : σ → Req → Prop} {next : σ → (r : Req) → Resp r → σ}
    {Q : σ → α → Prop} {A : (r : Req) → Resp r → Prop} {s : σ} {p : Program Req Resp ε α}
    (h : Follows P next Q s p) {t : Journal Req Resp} {res : Except ε α} (hp : Path A p t res)
    {t₁ t₂ : Journal Req Resp} {r : Req} {x : Resp r} (ht : t = t₁ ++ ⟨r, x⟩ :: t₂) :
    P (t₁.foldl (fun s e => next s e.1 e.2) s) r := by
  induction p generalizing s t t₁ with
  | done a =>
    rw [hp.1] at ht
    simp at ht
  | fail e =>
    rw [hp.1] at ht
    simp at ht
  | call r' k ih =>
    obtain ⟨y, t', -, rfl, hrest⟩ := hp
    cases t₁ with
    | nil =>
      cases ht
      exact h.1
    | cons e t₁ =>
      cases ht
      exact ih y (h.2 y) hrest rfl

section After

variable {watched : Req → Prop} {P : Journal Req Resp → Prop} {s : Journal Req Resp}

/-- The watched requests of the program are issued with a journal that meets `P`; what the
program returns meets `Q`. -/
def After (watched : Req → Prop) (P : Journal Req Resp → Prop) (Q : Journal Req Resp → α → Prop)
    (s : Journal Req Resp) (p : Program Req Resp ε α) : Prop :=
  Follows (fun s r => watched r → P s) record Q s p

theorem After.bind {R : Journal Req Resp → α → Prop} {Q : Journal Req Resp → β → Prop}
    {p : Program Req Resp ε α} {f : α → Program Req Resp ε β} (hp : After watched P R s p)
    (hf : ∀ s' a, R s' a → After watched P Q s' (f a)) : After watched P Q s (p >>= f) :=
  Follows.bind hp hf

theorem After.mono {Q R : Journal Req Resp → α → Prop} {p : Program Req Resp ε α}
    (h : After watched P Q s p) (hQ : ∀ s' a, Q s' a → R s' a) : After watched P R s p :=
  Follows.mono h (fun _ _ hr => hr) hQ

/-- Without a watched request nothing is needed, and the journal only gets longer. -/
theorem after_of_unwatched {p : Program Req Resp ε α} {Q : α → Prop}
    (h : Follows (fun (_ : Unit) r => ¬ watched r) (fun _ _ _ => ()) (fun _ a => Q a) () p) :
    After watched P (fun s' a => s <+: s' ∧ Q a) s p := by
  induction p generalizing s with
  | done a => exact ⟨List.prefix_refl s, h⟩
  | fail e => exact trivial
  | call r k ih =>
    refine ⟨fun hr => absurd hr h.1, fun x => ?_⟩
    apply After.mono (ih x (h.2 x))
    exact fun s' a hs => ⟨(List.prefix_append s _).trans hs.1, hs.2⟩

/-- Once the journal shows what is needed, the rest of the program may do anything. -/
theorem after_of_shown (hP : ∀ s s', s <+: s' → P s → P s') (hs : P s)
    (p : Program Req Resp ε α) : After watched P (fun s' _ => P s') s p := by
  induction p generalizing s with
  | done a => exact hs
  | fail e => exact trivial
  | call r k ih =>
    exact ⟨fun _ => hs, fun x => ih x (hP s _ (List.prefix_append s _) hs)⟩

/-- On every path a watched request comes after what it needs. -/
theorem After.of_path {Q : Journal Req Resp → α → Prop} {A : (r : Req) → Resp r → Prop}
    {p : Program Req Resp ε α} (h : After watched P Q [] p) {t : Journal Req Resp}
    {res : Except ε α} (hp : Path A p t res) {t₁ t₂ : Journal Req Resp} {r : Req} {x : Resp r}
    (ht : t = t₁ ++ ⟨r, x⟩ :: t₂) (hr : watched r) : P t₁ := by
  have hshown := Follows.of_path h hp ht hr
  rwa [foldl_record] at hshown

end After

end JobSetOperator.Library.Program
