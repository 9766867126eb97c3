import JobSetOperator.Library.Programs

/-!
# Programs against a service

A service has a state of its own. It answers a request and moves to another
state; both are chosen by a relation, so that refused calls and the freedom of
the service are part of it. `Runs` is a whole run of a program against a service,
and `Ensures` its weakest precondition: what every call and every end of a run
has to meet, errors included. `Allows` is the other side: some run ends as asked.
`Reaches` follows the runs that return, state by state.
-/
namespace JobSetOperator.Library.Program

variable {Req : Type} {Resp : Req → Type} {ε α β σ : Type}

/-- A run from one state of the service to another: the calls with their answers, and
the value or the error at the end. -/
def Runs (serves : σ → (r : Req) → Resp r → σ → Prop) :
    σ → Program Req Resp ε α → List (Σ r, Resp r) → Except ε α → σ → Prop
  | s, .done a, t, res, s' => t = [] ∧ res = .ok a ∧ s' = s
  | s, .fail e, t, res, s' => t = [] ∧ res = .error e ∧ s' = s
  | s, .call r k, t, res, s' =>
    ∃ x t' mid, serves s r x mid ∧ t = ⟨r, x⟩ :: t' ∧ Runs serves mid (k x) t' res s'

/-- In every run each call meets `P` and the end meets `Q`. -/
def Ensures (serves : σ → (r : Req) → Resp r → σ → Prop) (P : Req → Prop)
    (Q : σ → Except ε α → Prop) : σ → Program Req Resp ε α → Prop
  | s, .done a => Q s (.ok a)
  | s, .fail e => Q s (.error e)
  | s, .call r k => P r ∧ ∀ x s', serves s r x s' → Ensures serves P Q s' (k x)

variable {serves : σ → (r : Req) → Resp r → σ → Prop} {P : Req → Prop}

@[simp] theorem ensures_done {Q : σ → Except ε α → Prop} {s : σ} {a : α} :
    Ensures serves P Q s (Program.done a : Program Req Resp ε α) ↔ Q s (.ok a) := Iff.rfl

@[simp] theorem ensures_fail {Q : σ → Except ε α → Prop} {s : σ} {e : ε} :
    Ensures serves P Q s (Program.fail e : Program Req Resp ε α) ↔ Q s (.error e) := Iff.rfl

@[simp] theorem ensures_call {Q : σ → Except ε α → Prop} {s : σ} {r : Req}
    {k : Resp r → Program Req Resp ε α} : Ensures serves P Q s (.call r k) ↔
      P r ∧ ∀ x s', serves s r x s' → Ensures serves P Q s' (k x) := Iff.rfl

/-- The rule of consequence. -/
theorem Ensures.mono {P' : Req → Prop} {Q Q' : σ → Except ε α → Prop} {s : σ}
    {p : Program Req Resp ε α} (h : Ensures serves P Q s p) (hP : ∀ r, P r → P' r)
    (hQ : ∀ s res, Q s res → Q' s res) : Ensures serves P' Q' s p := by
  induction p generalizing s with
  | done a => exact hQ s _ h
  | fail e => exact hQ s _ h
  | call r k ih => exact ⟨hP r h.1, fun x s' hs => ih x (h.2 x s' hs)⟩

/-- The sequencing rule: an error of the first part is the end. -/
theorem Ensures.bind {R : σ → Except ε α → Prop} {Q : σ → Except ε β → Prop} {s : σ}
    {p : Program Req Resp ε α} {f : α → Program Req Resp ε β} (h : Ensures serves P R s p)
    (hok : ∀ s' a, R s' (.ok a) → Ensures serves P Q s' (f a))
    (herr : ∀ s' e, R s' (.error e) → Q s' (.error e)) : Ensures serves P Q s (p >>= f) := by
  induction p generalizing s with
  | done a => exact hok s a h
  | fail e => exact herr s e h
  | call r k ih => exact ⟨h.1, fun x s' hs => ih x (h.2 x s' hs)⟩

/-- What is ensured holds of every run. -/
theorem Ensures.runs {Q : σ → Except ε α → Prop} {s s' : σ} {p : Program Req Resp ε α}
    {t : List (Σ r, Resp r)} {res : Except ε α} (h : Ensures serves P Q s p)
    (hrun : Runs serves s p t res s') : (∀ c ∈ t, P c.1) ∧ Q s' res := by
  induction p generalizing s t with
  | done a =>
    obtain ⟨rfl, rfl, rfl⟩ := hrun
    exact ⟨by simp, h⟩
  | fail e =>
    obtain ⟨rfl, rfl, rfl⟩ := hrun
    exact ⟨by simp, h⟩
  | call r k ih =>
    obtain ⟨x, rest, mid, hs, rfl, hrest⟩ := hrun
    obtain ⟨hcalls, hend⟩ := ih x (h.2 x mid hs) hrest
    exact ⟨List.forall_mem_cons.mpr ⟨h.1, hcalls⟩, hend⟩

/-- In every run the program returns, and the end meets `R`. -/
def Yields (serves : σ → (r : Req) → Resp r → σ → Prop) (R : σ → α → Prop) (s : σ)
    (p : Program Req Resp ε α) : Prop :=
  Ensures serves (fun _ => True) (fun s' res => ∃ a, res = .ok a ∧ R s' a) s p

theorem yields_done {R : σ → α → Prop} {s : σ} {a : α} (h : R s a) :
    Yields serves R s (Program.done a : Program Req Resp ε α) :=
  ⟨a, rfl, h⟩

/-- The rule of one call. -/
theorem ensures_ask_bind {r : Req} {f : Resp r → Program Req Resp ε β}
    {Q : σ → Except ε β → Prop} {s : σ}
    (h : ∀ x s', serves s r x s' → Ensures serves (fun _ => True) Q s' (f x)) :
    Ensures serves (fun _ => True) Q s ((ask r : Program Req Resp ε (Resp r)) >>= f) :=
  ⟨trivial, h⟩

theorem Yields.mono {R R' : σ → α → Prop} {s : σ} {p : Program Req Resp ε α}
    (h : Yields serves R s p) (hR : ∀ s a, R s a → R' s a) : Yields serves R' s p :=
  Ensures.mono h (fun _ hr => hr) fun s' _ ⟨a, hres, ha⟩ => ⟨a, hres, hR s' a ha⟩

/-- The sequencing rule after a part that returns. -/
theorem Yields.bind {R : σ → α → Prop} {Q : σ → Except ε β → Prop} {s : σ}
    {p : Program Req Resp ε α} {f : α → Program Req Resp ε β} (h : Yields serves R s p)
    (hf : ∀ s' a, R s' a → Ensures serves (fun _ => True) Q s' (f a)) :
    Ensures serves (fun _ => True) Q s (p >>= f) := by
  apply Ensures.bind h
  · rintro s' a ⟨b, hb, hR⟩
    cases hb
    exact hf s' a hR
  · rintro s' e ⟨b, hb, -⟩
    cases hb

/-- Some run ends in `Q`. -/
def Allows (serves : σ → (r : Req) → Resp r → σ → Prop) (Q : σ → Except ε α → Prop) :
    σ → Program Req Resp ε α → Prop
  | s, .done a => Q s (.ok a)
  | s, .fail e => Q s (.error e)
  | s, .call r k => ∃ x s', serves s r x s' ∧ Allows serves Q s' (k x)

/-- The run that a program allows. -/
theorem Allows.runs {Q : σ → Except ε α → Prop} {s : σ} {p : Program Req Resp ε α}
    (h : Allows serves Q s p) : ∃ t res s', Runs serves s p t res s' ∧ Q s' res := by
  induction p generalizing s with
  | done a => exact ⟨[], .ok a, s, ⟨rfl, rfl, rfl⟩, h⟩
  | fail e => exact ⟨[], .error e, s, ⟨rfl, rfl, rfl⟩, h⟩
  | call r k ih =>
    obtain ⟨x, mid, hs, h⟩ := h
    obtain ⟨t, res, s', hrun, hQ⟩ := ih x h
    exact ⟨⟨r, x⟩ :: t, res, s', ⟨x, t, mid, hs, rfl, hrun⟩, hQ⟩

/-- A run through two parts. -/
theorem Allows.bind {R : σ → Except ε α → Prop} {Q : σ → Except ε β → Prop} {s : σ}
    {p : Program Req Resp ε α} {f : α → Program Req Resp ε β} (h : Allows serves R s p)
    (hok : ∀ s' a, R s' (.ok a) → Allows serves Q s' (f a))
    (herr : ∀ s' e, R s' (.error e) → Q s' (.error e)) : Allows serves Q s (p >>= f) := by
  induction p generalizing s with
  | done a => exact hok s a h
  | fail e => exact herr s e h
  | call r k ih =>
    obtain ⟨x, mid, hs, h⟩ := h
    exact ⟨x, mid, hs, ih x h⟩

/-- What is ensured is allowed, when some of the answers are always possible. -/
theorem Ensures.allows {serves' : σ → (r : Req) → Resp r → σ → Prop} {Q : σ → Except ε α → Prop}
    (htotal : ∀ s r, ∃ x s', serves' s r x s')
    (hsub : ∀ s r x s', serves' s r x s' → serves s r x s') {s : σ} {p : Program Req Resp ε α}
    (h : Ensures serves' P Q s p) : Allows serves Q s p := by
  induction p generalizing s with
  | done a => exact h
  | fail e => exact h
  | call r k ih =>
    obtain ⟨x, mid, hs⟩ := htotal s r
    exact ⟨x, mid, hsub s r x mid hs, ih x (h.2 x mid hs)⟩

/-- Some run returns the value and leaves the service in the second state. -/
def Reaches (serves : σ → (r : Req) → Resp r → σ → Prop) :
    σ → Program Req Resp ε α → α → σ → Prop
  | s, .done a, b, s' => b = a ∧ s' = s
  | _, .fail _, _, _ => False
  | s, .call r k, b, s' => ∃ x mid, serves s r x mid ∧ Reaches serves mid (k x) b s'

@[simp] theorem reaches_done {s s' : σ} {a b : α} :
    Reaches serves s (Program.done a : Program Req Resp ε α) b s' ↔ b = a ∧ s' = s := Iff.rfl

@[simp] theorem reaches_fail {s s' : σ} {e : ε} {b : α} :
    Reaches serves s (Program.fail e : Program Req Resp ε α) b s' ↔ False := Iff.rfl

@[simp] theorem reaches_call {s s' : σ} {r : Req} {k : Resp r → Program Req Resp ε α} {b : α} :
    Reaches serves s (.call r k) b s' ↔
      ∃ x mid, serves s r x mid ∧ Reaches serves mid (k x) b s' := Iff.rfl

/-- A call and what follows its answer. -/
theorem reaches_ask_bind {s s' : σ} {r : Req} {f : Resp r → Program Req Resp ε β} {b : β} :
    Reaches serves s ((ask r : Program Req Resp ε (Resp r)) >>= f) b s' ↔
      ∃ x mid, serves s r x mid ∧ Reaches serves mid (f x) b s' := Iff.rfl

theorem reaches_iff_runs {s s' : σ} {p : Program Req Resp ε α} {a : α} :
    Reaches serves s p a s' ↔ ∃ t, Runs serves s p t (.ok a) s' := by
  induction p generalizing s with
  | done b =>
    constructor
    · rintro ⟨rfl, rfl⟩
      exact ⟨[], rfl, rfl, rfl⟩
    · rintro ⟨t, -, ha, hs⟩
      cases ha
      exact ⟨rfl, hs⟩
  | fail e =>
    constructor
    · exact False.elim
    · rintro ⟨t, -, ha, -⟩
      cases ha
  | call r k ih =>
    constructor
    · rintro ⟨x, mid, hs, h⟩
      obtain ⟨t, ht⟩ := (ih x).mp h
      exact ⟨⟨r, x⟩ :: t, x, t, mid, hs, rfl, ht⟩
    · rintro ⟨-, x, t, mid, hs, -, ht⟩
      exact ⟨x, mid, hs, (ih x).mpr ⟨t, ht⟩⟩

/-- A run that returns goes through both parts. -/
theorem reaches_bind {s s' : σ} {p : Program Req Resp ε α} {f : α → Program Req Resp ε β} {b : β} :
    Reaches serves s (p >>= f) b s' ↔
      ∃ a mid, Reaches serves s p a mid ∧ Reaches serves mid (f a) b s' := by
  induction p generalizing s with
  | done a =>
    constructor
    · intro h
      exact ⟨a, s, ⟨rfl, rfl⟩, h⟩
    · rintro ⟨a', mid, ⟨rfl, rfl⟩, h⟩
      exact h
  | fail e =>
    constructor
    · exact False.elim
    · rintro ⟨a, mid, h, -⟩
      exact h
  | call r k ih =>
    simp only [call_bind, reaches_call, ih]
    constructor
    · rintro ⟨x, first, hs, a, mid, h, h'⟩
      exact ⟨a, mid, ⟨x, first, hs, h⟩, h'⟩
    · rintro ⟨a, mid, ⟨x, first, hs, h⟩, h'⟩
      exact ⟨x, first, hs, a, mid, h, h'⟩

/-- What every call preserves holds between the ends of a run. -/
theorem Runs.preserves {R : σ → σ → Prop} (hrefl : ∀ s, R s s)
    (htrans : ∀ {s m s'}, R s m → R m s' → R s s')
    (hstep : ∀ {s r x s'}, serves s r x s' → R s s') {s s' : σ} {p : Program Req Resp ε α}
    {t : List (Σ r, Resp r)} {res : Except ε α} (h : Runs serves s p t res s') : R s s' := by
  induction p generalizing s t with
  | done a =>
    obtain ⟨-, -, rfl⟩ := h
    exact hrefl s'
  | fail e =>
    obtain ⟨-, -, rfl⟩ := h
    exact hrefl s'
  | call r k ih =>
    obtain ⟨x, t', mid, hs, -, h⟩ := h
    exact htrans (hstep hs) (ih x h)

/-- The run against a service that computes its answers. -/
def execute (serve : σ → (r : Req) → Resp r × σ) :
    σ → Program Req Resp ε α → List (Σ r, Resp r) × Except ε α × σ
  | s, .done a => ([], .ok a, s)
  | s, .fail e => ([], .error e, s)
  | s, .call r k =>
    let rest := execute serve (serve s r).2 (k (serve s r).1)
    (⟨r, (serve s r).1⟩ :: rest.1, rest.2)

theorem runs_execute {serve : σ → (r : Req) → Resp r × σ}
    (h : ∀ s r, serves s r (serve s r).1 (serve s r).2) (s : σ) (p : Program Req Resp ε α) :
    Runs serves s p (execute serve s p).1 (execute serve s p).2.1 (execute serve s p).2.2 := by
  induction p generalizing s with
  | done a => exact ⟨rfl, rfl, rfl⟩
  | fail e => exact ⟨rfl, rfl, rfl⟩
  | call r k ih => exact ⟨(serve s r).1, _, (serve s r).2, h s r, rfl, ih _ _⟩

end JobSetOperator.Library.Program
