import JobSetOperator.Cluster.Terminal
import JobSetOperator.Controller.Metering

/-!
# Counters of finished JobSets

The counters of one JobSet over a run of the cluster. A counter is increased before
the status write that stores its condition, so a write that fails, or a cached copy
that is out of date, makes the next reconcile count again. In a run in which neither
happens once something is counted, every counter is increased at most once, and the
condition it stands for is stored.
-/
namespace JobSetOperator.Cluster

open Library Library.Program

/-- How often each metric was counted, and the metrics the reconcile in progress has counted
since its last status write. -/
structure Tally where
  counts : Metric → ℕ
  pending : List Metric

def Tally.zero : Tally := ⟨fun _ => 0, []⟩

def Tally.next (t : Tally) : Request → Tally
  | .countMetric metric =>
    ⟨Function.update t.counts metric (t.counts metric + 1), metric :: t.pending⟩
  | .updateStatus _ => { t with pending := [] }
  | _ => t

theorem Tally.next_other {t : Tally} {r : Request} (hcount : ∀ metric, r ≠ .countMetric metric)
    (hwrite : ∀ js', r ≠ .updateStatus js') : t.next r = t := by
  cases r with
  | countMetric metric => exact absurd rfl (hcount metric)
  | updateStatus js' => exact absurd rfl (hwrite js')
  | _ => rfl

/-- The reconcile counts on the current version of the JobSet, and the status write after it
takes effect. -/
def Prompt (w : World) (a : Attempt) (t : Tally) (sv' : Server) : Request → Prop
  | .countMetric _ => a.base = w.sets.top
  | .updateStatus js => t.pending ≠ [] → Effect w.toServer a.base (.updateStatus js) sv'
  | _ => True

/-- One step of the cluster and of the counters. Where `careful` holds, the calls are prompt and
no reconcile stops between counting and writing. -/
inductive MeterStep (S : Setting) (careful : Prop) : World × Tally → World × Tally → Prop
  | call {w : World} {t : Tally} {a : Attempt} (busy : w.attempt = some a) {r : Request}
    {k : r.Response → Prog ℤ} (next : a.rest = .call r k) {x : r.Response} {sv' : Server}
    {base' : ℕ} (reply : Reply w.toServer a.base r x sv' base')
    (prompt : careful → Prompt w a t sv' r) :
    MeterStep S careful (w, t) ({ w with
      toServer := sv'
      attempt := some { a with base := base', seen := a.seen.next r x, rest := k x }
      authors := w.record sv' a.toReading }, t.next r)
  | stop {w : World} {t : Tally} (settled : careful → t.pending = []) :
    MeterStep S careful (w, t) ({ w with attempt := none }, { t with pending := [] })
  | other {w w' : World} {t : Tally} (step : Step S w w')
    (same : w'.attempt = w.attempt ∨ w.attempt = none) : MeterStep S careful (w, t) (w', t)

/-- A run from a new JobSet that nothing was counted for. -/
def MeterRun (S : Setting) (careful : Prop) (js : JobSet) (w : World) (t : Tally) : Prop :=
  Relation.ReflTransGen (MeterStep S careful) (World.initial js, .zero) (w, t)

theorem MeterStep.step {S : Setting} {careful : Prop} {u u' : World × Tally}
    (h : MeterStep S careful u u') : Step S u.1 u'.1 := by
  cases h with
  | call busy next reply prompt => exact .answer busy next reply
  | stop settled => exact .stop
  | other step same => exact step

theorem MeterRun.reachable {S : Setting} {careful : Prop} {js : JobSet} {u : World × Tally}
    (h : Relation.ReflTransGen (MeterStep S careful) (World.initial js, .zero) u) :
    Reachable S js u.1 := by
  induction h with
  | refl => exact .refl
  | tail _ hstep ih => exact ih.tail hstep.step

/-! ## The invariant -/

/-- Where the reconcile in progress stands with its counters. -/
inductive Stage (w : World) (pending : List Metric) (a : Attempt) : Prop
  | deciding (none : pending = []) (accounts : Accounts a.js a.rest)
    (keeps : KeepsTerminal a.js (w.sets.entry a.base))
  | counting (unfinished : jobSetFinished a.js = false) (commits : Commits pending a.rest)
    (keeps : KeepsTerminal a.js (w.sets.entry a.base))
  | written (none : pending = []) (uncounted : Uncounted a.rest)

/-- A counted metric is counted once, and its condition is stored or about to be. -/
structure TallyOk (w : World) (t : Tally) : Prop where
  once : ∀ metric, t.counts metric ≤ 1
  counted : ∀ metric, 0 < t.counts metric →
    Persisted metric w.sets.current ∨ metric ∈ t.pending
  idle : w.attempt = none → t.pending = []
  stage : ∀ a, w.attempt = some a → Stage w t.pending a

theorem persisted_of_absorbs {a b : JobSet} (h : Absorbs a b) (ha : TerminalOk a) {metric : Metric}
    (hp : Persisted metric a) : Persisted metric b :=
  (persisted_of_conditions (h (ha.finished.mpr hp.finished)).1).mpr hp

section Stages

variable {w w' : World} {pending : List Metric} {a : Attempt} {r : Request}
  {k : r.Response → Prog ℤ}

theorem Stage.grow (h : Stage w pending a) (he : w'.sets.entry a.base = w.sets.entry a.base) :
    Stage w' pending a := by
  cases h with
  | deciding none accounts keeps => exact .deciding none accounts (he ▸ keeps)
  | counting unfinished commits keeps => exact .counting unfinished commits (he ▸ keeps)
  | written none uncounted => exact .written none uncounted

/-- A counter is increased for an unfinished JobSet, and not twice. -/
theorem Stage.count {metric : Metric} {k : Unit → Prog ℤ} (h : Stage w pending a)
    (next : a.rest = .call (.countMetric metric) k) :
    jobSetFinished a.js = false ∧ metric ∉ pending ∧ Commits (metric :: pending) (k ()) ∧
      KeepsTerminal a.js (w.sets.entry a.base) := by
  cases h with
  | deciding none accounts keeps =>
    subst none
    rw [next] at accounts
    exact ⟨accounts.1, by simp, accounts.2, keeps⟩
  | counting unfinished commits keeps =>
    rw [next] at commits
    exact ⟨unfinished, commits.1, commits.2, keeps⟩
  | written none uncounted =>
    rw [next] at uncounted
    exact absurd rfl (uncounted.1 metric)

/-- A status write keeps the terminal conditions or stores those that were counted. -/
theorem Stage.write {js' : JobSet} {k : Outcome → Prog ℤ} (h : Stage w pending a)
    (next : a.rest = .call (.updateStatus js') k) :
    (pending = [] ∧ KeepsTerminal a.js js' ∧ (∀ x, Accounts a.js (k x)) ∧
      KeepsTerminal a.js (w.sets.entry a.base)) ∨
    (∀ metric ∈ pending, Persisted metric js') ∧ ∀ x, Uncounted (k x) := by
  cases h with
  | deciding none accounts keeps =>
    rw [next] at accounts
    exact Or.inl ⟨none, accounts.1, accounts.2, keeps⟩
  | counting unfinished commits keeps =>
    rw [next] at commits
    exact Or.inr commits
  | written none uncounted =>
    rw [next] at uncounted
    subst none
    exact Or.inr ⟨by simp, uncounted.2⟩

/-- Any other call leaves the stage as it is. -/
theorem Stage.proceed (h : Stage w pending a) (next : a.rest = .call r k)
    (hcount : ∀ metric, r ≠ .countMetric metric) (hwrite : ∀ js', r ≠ .updateStatus js')
    (x : r.Response) (seen : Seen) :
    Stage w pending { a with seen := seen, rest := k x } := by
  cases h with
  | deciding none accounts keeps =>
    rw [next] at accounts
    exact .deciding none ((accounts_call hcount hwrite).mp accounts x) keeps
  | counting unfinished commits keeps =>
    rw [next] at commits
    exact absurd commits (not_commits_call hcount hwrite)
  | written none uncounted =>
    rw [next] at uncounted
    exact .written none (uncounted.2 x)

end Stages

/-! ## One step -/

theorem Reply.base_same {sv sv' : Server} {base base' : ℕ} {r : Request} {x : r.Response}
    (h : Reply sv base r x sv' base') (hwrite : ∀ js', r ≠ .updateStatus js') : base' = base := by
  cases h with
  | accepted effect h =>
    cases r with
    | updateStatus js' => exact absurd rfl (hwrite js')
    | _ => rfl
  | _ => rfl

theorem Reply.count_same {sv sv' : Server} {base base' : ℕ} {metric : Metric} {x : Unit}
    (h : Reply sv base (.countMetric metric) x sv' base') : sv' = sv ∧ base' = base := by
  cases h with
  | outside h x => exact ⟨rfl, rfl⟩
  | failed h => exact h.elim
  | lost h effect => exact h.elim
  | accepted effect h => exact h.elim

/-- Counting on the current version: nothing is stored yet, so the metric is new. -/
theorem TallyOk.count {w w' : World} {t : Tally} (h : TallyOk w t) {a a' : Attempt}
    (busy : w.attempt = some a) {metric : Metric} {k : Unit → Prog ℤ}
    (next : a.rest = .call (.countMetric metric) k) (hbase : a.base = w.sets.top)
    (hsets : w'.sets = w.sets) (busy' : w'.attempt = some a') (hjs : a'.js = a.js)
    (hbase' : a'.base = a.base) (hrest : a'.rest = k ()) :
    TallyOk w' (t.next (.countMetric metric)) := by
  obtain ⟨unfinished, hnew, commits, keeps⟩ := (h.stage a busy).count next
  have hcurrent : jobSetFinished w.sets.current = false := by
    rw [hbase] at keeps
    exact keeps.finished.trans unfinished
  have hzero : t.counts metric = 0 := by
    by_contra hne
    rcases h.counted metric (Nat.pos_of_ne_zero hne) with hstored | hpending
    · rw [hstored.finished] at hcurrent
      cases hcurrent
    · exact hnew hpending
  constructor
  · intro m
    by_cases hm : m = metric
    · subst hm
      simp [Tally.next, hzero]
    · simpa [Tally.next, hm] using h.once m
  · intro m hpos
    rw [hsets]
    by_cases hm : m = metric
    · subst hm
      exact Or.inr List.mem_cons_self
    · have hold : 0 < t.counts m := by simpa [Tally.next, hm] using hpos
      exact (h.counted m hold).imp id (List.mem_cons_of_mem _)
  · intro hidle
    rw [hidle] at busy'
    cases busy'
  · intro b hb
    rw [busy'] at hb
    cases hb
    apply Stage.counting
    · rw [hjs]
      exact unfinished
    · rw [hrest]
      exact commits
    · rw [hjs, hbase', hsets]
      exact keeps

/-- A status write, which takes effect if something was counted. -/
theorem TallyOk.write {w w' : World} {t : Tally} (h : TallyOk w t) {a a' : Attempt}
    (busy : w.attempt = some a) {js' : JobSet} {k : Outcome → Prog ℤ}
    (next : a.rest = .call (.updateStatus js') k)
    (hkept : ∀ m, Persisted m w.sets.current → Persisted m w'.sets.current)
    (heffect : t.pending ≠ [] → w'.sets.current.status = js'.status)
    (busy' : w'.attempt = some a') (hjs : a'.js = a.js)
    (hstored : w'.sets.entry a'.base = w.sets.entry a.base ∨ w'.sets.entry a'.base = js')
    {x : Outcome} (hrest : a'.rest = k x) : TallyOk w' (t.next (.updateStatus js')) := by
  have hcounted : ∀ m, 0 < t.counts m → Persisted m w'.sets.current := by
    intro m hpos
    rcases h.counted m hpos with hpersisted | hpending
    · exact hkept m hpersisted
    · have hne : t.pending ≠ [] := List.ne_nil_of_mem hpending
      have hsame : w'.sets.current.status.conditions = js'.status.conditions := by
        rw [heffect hne]
      rcases (h.stage a busy).write next with ⟨hnone, -⟩ | ⟨hpersisted, -⟩
      · exact absurd hnone hne
      · exact (persisted_of_conditions hsame).mpr (hpersisted m hpending)
  refine ⟨h.once, fun m hpos => Or.inl (hcounted m hpos), fun _ => rfl, fun b hb => ?_⟩
  rw [busy'] at hb
  cases hb
  rcases (h.stage a busy).write next with ⟨-, hkeeps, accounts, keeps⟩ | ⟨-, uncounted⟩
  · apply Stage.deciding rfl
    · rw [hjs, hrest]
      exact accounts x
    · rw [hjs]
      rcases hstored with hsame | hnew
      · rw [hsame]
        exact keeps
      · rw [hnew]
        exact hkeeps
  · apply Stage.written rfl
    rw [hrest]
    exact uncounted x

/-- A step that counts nothing and writes nothing, with the stage of the reconcile after it. -/
theorem TallyOk.other {w w' : World} {t : Tally} (h : TallyOk w t)
    (hkept : ∀ m, Persisted m w.sets.current → Persisted m w'.sets.current)
    (hidle : w'.attempt = none → w.attempt = none)
    (hstage : ∀ a', w'.attempt = some a' → Stage w' t.pending a') : TallyOk w' t :=
  ⟨h.once, fun m hpos => (h.counted m hpos).imp (hkept m) id, fun hnone => h.idle (hidle hnone),
    hstage⟩

theorem tallyOk_begin {S : Setting} {w w' : World} {t : Tally} (hidle : w.attempt = none)
    (hstep : Step S w w') (hpending : t.pending = []) :
    ∀ a', w'.attempt = some a' → Stage w' t.pending a' := by
  intro a' busy'
  cases hstep with
  | @begin _ env allowed i j newer past newerJobs pastJobs jobs listed =>
    cases busy'
    apply Stage.deciding hpending
    · exact accounts_reconcileRequest env _ jobs
    · exact (Harmless.refl _).toKeepsTerminal
  | answer busy next reply =>
    rw [hidle] at busy
    cases busy
  | stop => cases busy'
  | _ =>
    have hbusy : w.attempt = some a' := busy'
    rw [hidle] at hbusy
    cases hbusy

/-- Every careful step keeps the counters right. -/
theorem MeterStep.tallyOk {S : Setting} {w w' : World} {t t' : Tally} (hinv : Inv S w)
    (hkept : ∀ m, Persisted m w.sets.current → Persisted m w'.sets.current) (h : TallyOk w t)
    (hstep : MeterStep S True (w, t) (w', t')) : TallyOk w' t' := by
  have hmove := step_move hinv hstep.step
  have hgrows := History.grows_of_push hmove.sets
  have hinv' := step_inv hinv hstep.step
  cases hstep with
  | @call _ _ a busy r k next x sv' base' reply prompt =>
    have hbase := hgrows.2 _ (hinv.attempt a busy).past
    by_cases hcount : ∃ metric, r = .countMetric metric
    · obtain ⟨metric, rfl⟩ := hcount
      obtain ⟨rfl, rfl⟩ := reply.count_same
      exact h.count busy next (prompt trivial) rfl rfl rfl rfl rfl
    by_cases hwrite : ∃ js', r = .updateStatus js'
    · obtain ⟨js', rfl⟩ := hwrite
      apply h.write busy next hkept _ rfl rfl _ rfl
      · intro hne
        have hstatus := (prompt trivial hne).status.2
        change sv'.sets.current.status = _
        rw [hstatus, History.push_current]
      · have hstored := (hinv'.attempt _ rfl).stored
        cases reply with
        | outside h x => exact h.elim
        | failed h => exact Or.inl hbase
        | lost h effect => exact Or.inl hbase
        | accepted effect hx =>
          cases x with
          | error e => exact hx.elim
          | ok _ => exact Or.inr hstored
    push Not at hcount hwrite
    rw [Tally.next_other hcount hwrite]
    obtain rfl := reply.base_same hwrite
    apply h.other hkept
    · intro hnone
      cases hnone
    · intro a' busy'
      cases busy'
      exact ((h.stage a busy).grow hbase).proceed next hcount hwrite x _
  | stop settled =>
    refine ⟨h.once, fun m hpos => ?_, fun _ => rfl, fun a' busy' => by cases busy'⟩
    have hcounted := h.counted m hpos
    rw [settled trivial] at hcounted
    exact hcounted
  | other step same =>
    apply h.other hkept
    · intro hnone
      rcases same with same | same
      · exact same.symm.trans hnone
      · exact same
    · rcases same with same | hidle
      · intro a busy'
        have busy : w.attempt = some a := same.symm.trans busy'
        exact (h.stage a busy).grow (hgrows.2 _ (hinv.attempt a busy).past)
      · exact tallyOk_begin hidle step (h.idle hidle)

theorem meterRun_tallyOk {S : Setting} {js : JobSet} (hnew : js.status = .new)
    {u : World × Tally}
    (h : Relation.ReflTransGen (MeterStep S True) (World.initial js, .zero) u) :
    TallyOk u.1 u.2 := by
  induction h with
  | refl =>
    refine ⟨fun _ => Nat.zero_le _, fun _ hpos => absurd hpos (lt_irrefl 0), fun _ => rfl, ?_⟩
    intro a busy
    cases busy
  | @tail u u' hrun hstep ih =>
    have hreach := MeterRun.reachable hrun
    have hinv := reachable_inv hreach
    obtain ⟨hok, -⟩ := reachable_terminal hnew hreach
    obtain ⟨-, habsorbs⟩ := reachable_terminal hnew (hreach.tail hstep.step)
    have hgrows := History.grows_of_push (step_move hinv hstep.step).sets
    apply hstep.tallyOk hinv _ ih
    intro m hpersisted
    have hstep := habsorbs u.1.sets.top u'.1.sets.top hgrows.1 le_rfl
    rw [hgrows.2 _ le_rfl] at hstep
    exact persisted_of_absorbs hstep hok.current hpersisted

/-! ## Runs that are given step by step -/

/-- The calls that `skip` answers. -/
def skipped (clock : Time) : ℕ → Prog ℤ → List Request
  | n + 1, .call r k =>
    match quietAnswer clock r with
    | some x => r :: skipped clock n (k x)
    | none => []
  | _, _ => []

def Request.counts (metric : Metric) : Request → Bool
  | .countMetric m => m = metric
  | _ => false

theorem foldl_next_counts (calls : List Request) (t : Tally) (metric : Metric) :
    (calls.foldl Tally.next t).counts metric =
      t.counts metric + calls.countP (Request.counts metric) := by
  induction calls generalizing t with
  | nil => rfl
  | cons r rest ih =>
    rw [List.foldl_cons, ih, List.countP_cons]
    cases r with
    | countMetric m =>
      by_cases hm : m = metric
      · simp [Tally.next, Request.counts, hm]
        omega
      · simp [Tally.next, Request.counts, hm, Ne.symm hm]
    | _ => rfl

theorem prompt_of_quiet {clock : Time} {r : Request} {x : r.Response}
    (h : quietAnswer clock r = some x) {w : World} {a : Attempt} (hbase : a.base = w.sets.top)
    (t : Tally) (sv' : Server) : Prompt w a t sv' r := by
  cases r with
  | countMetric metric => exact hbase
  | updateStatus js => cases h
  | _ => exact trivial

section Given

variable {S : Setting} {careful : Prop}

/-- The calls outside the model are steps. -/
theorem meter_skip (clock : Time) (n : ℕ) {w : World} {t : Tally} {a : Attempt}
    (busy : w.attempt = some a) (hbase : a.base = w.sets.top) :
    Relation.ReflTransGen (MeterStep S careful) (w, t)
      ({ w with attempt := some { a with rest := skip clock n a.rest } },
        (skipped clock n a.rest).foldl Tally.next t) := by
  have hstay : { w with attempt := some { a with rest := a.rest } } = w := by rw [← busy]
  induction n generalizing w t a with
  | zero =>
    change Relation.ReflTransGen _ _ ({ w with attempt := some { a with rest := a.rest } }, t)
    rw [hstay]
  | succ n ih =>
    cases hrest : a.rest with
    | done x =>
      change Relation.ReflTransGen _ _ ({ w with attempt := some { a with rest := .done x } }, t)
      rw [← hrest, hstay]
    | fail e =>
      change Relation.ReflTransGen _ _ ({ w with attempt := some { a with rest := .fail e } }, t)
      rw [← hrest, hstay]
    | call r k =>
      cases hq : quietAnswer clock r with
      | none =>
        have hskip : skip clock (n + 1) (.call r k) = .call r k := by rw [skip, hq]
        have hskipped : skipped clock (n + 1) (.call r k) = [] := by rw [skipped, hq]
        rw [hskip, hskipped, ← hrest, hstay]
        exact .refl
      | some x =>
        have hskip : skip clock (n + 1) (.call r k) = skip clock n (k x) := by rw [skip, hq]
        have hskipped : skipped clock (n + 1) (.call r k) = r :: skipped clock n (k x) := by
          rw [skipped, hq]
        have hstep := MeterStep.call (S := S) (t := t) busy hrest
          (Reply.outside (outside_of_quiet hq) x) fun _ : careful => prompt_of_quiet hq hbase t _
        rw [seen_of_quiet hq, World.record, if_pos rfl] at hstep
        rw [hskip, hskipped]
        exact Relation.ReflTransGen.head hstep
          (ih (w := { w with attempt := some { a with rest := k x } }) rfl hbase rfl)

/-- A reconcile that reads the current versions, up to its first call that reaches the server. -/
theorem meter_reconcile (clock : Time) (n : ℕ) {env : Env} (allowed : S.allowed env) {w : World}
    {t : Tally} (idle : w.attempt = none) (hsets : w.seenSets ≤ w.sets.top)
    (hjobs : w.seenJobs ≤ w.jobs.top) :
    Relation.ReflTransGen (MeterStep S careful) (w, t)
      ({ w with
          seenSets := w.sets.top, seenJobs := w.jobs.top
          attempt := some { Attempt.start env w.sets.current w.jobs.current w.sets.top with
            rest := skip clock n (reconcileRequest env w.sets.current w.jobs.current) } },
        (skipped clock n (reconcileRequest env w.sets.current w.jobs.current)).foldl
          Tally.next t) := by
  have hbegin : MeterStep S careful (w, t) (_, t) :=
    .other (.begin idle allowed hsets le_rfl hjobs le_rfl (List.Perm.refl _)) (Or.inr idle)
  exact Relation.ReflTransGen.head hbegin (meter_skip clock n rfl rfl)

/-- The next call writes the status. -/
def writesNext : Prog ℤ → Bool
  | .call (.updateStatus _) _ => true
  | _ => false

theorem exists_of_writesNext {p : Prog ℤ} (h : writesNext p = true) :
    ∃ js k, p = .call (.updateStatus js) k := by
  unfold writesNext at h
  split at h
  · exact ⟨_, _, rfl⟩
  · cases h

/-- The reconcile from the current versions counts the metric once and then writes the status. -/
def countsNext (env : Env) (metric : Metric) (w : World) : Bool :=
  let p := reconcileRequest env w.sets.current w.jobs.current
  decide ((skipped 0 20 p).countP (Request.counts metric) = 1) && writesNext (skip 0 20 p)

/-- Up to the status write, which comes next. -/
theorem meter_counts {env : Env} (allowed : S.allowed env) {metric : Metric} {w : World}
    {t : Tally} (idle : w.attempt = none) (hsets : w.seenSets ≤ w.sets.top)
    (hjobs : w.seenJobs ≤ w.jobs.top) (h : countsNext env metric w = true) :
    ∃ a t' js k, a.base = w.sets.top ∧ a.rest = .call (.updateStatus js) k ∧
      t'.counts metric = t.counts metric + 1 ∧
      Relation.ReflTransGen (MeterStep S careful) (w, t)
        ({ w with seenSets := w.sets.top, seenJobs := w.jobs.top, attempt := some a }, t') := by
  simp only [countsNext, Bool.and_eq_true, decide_eq_true_eq] at h
  obtain ⟨hcount, hwrite⟩ := h
  obtain ⟨js, k, hnext⟩ := exists_of_writesNext hwrite
  refine ⟨_, _, js, k, ?_, ?_, ?_, meter_reconcile 0 20 allowed idle hsets hjobs⟩
  · rfl
  · exact hnext
  · rw [foldl_next_counts, hcount]

/-- The status write is refused: the metric is counted and the server is as before. -/
theorem meter_refused {env : Env} (allowed : S.allowed env) {metric : Metric} {w : World}
    {t : Tally} (idle : w.attempt = none) (hsets : w.seenSets ≤ w.sets.top)
    (hjobs : w.seenJobs ≤ w.jobs.top) (h : countsNext env metric w = true) :
    ∃ t', t'.counts metric = t.counts metric + 1 ∧
      Relation.ReflTransGen (MeterStep S False) (w, t)
        ({ w with seenSets := w.sets.top, seenJobs := w.jobs.top, attempt := none }, t') := by
  obtain ⟨a, t', js, k, -, hnext, hcount, hrun⟩ := meter_counts allowed idle hsets hjobs h
  have hreply : Reply w.toServer a.base (.updateStatus js) (.error "") w.toServer a.base :=
    .failed trivial
  have hcall : MeterStep S False
      ({ w with seenSets := w.sets.top, seenJobs := w.jobs.top, attempt := some a }, t')
      (_, t'.next (.updateStatus js)) := .call rfl hnext hreply False.elim
  rw [World.record, if_pos rfl] at hcall
  refine ⟨{ t' with pending := [] }, hcount, (hrun.tail hcall).tail ?_⟩
  exact .stop False.elim

/-- The status write is accepted. -/
theorem meter_accepted {env : Env} (allowed : S.allowed env) {metric : Metric} {w : World}
    {t : Tally} (idle : w.attempt = none) (hsets : w.seenSets ≤ w.sets.top)
    (hjobs : w.seenJobs ≤ w.jobs.top) (h : countsNext env metric w = true) :
    ∃ w' t', t'.counts metric = t.counts metric + 1 ∧ t'.pending = [] ∧
      Relation.ReflTransGen (MeterStep S careful) (w, t) (w', t') := by
  obtain ⟨a, t', js, k, hbase, hnext, hcount, hrun⟩ := meter_counts allowed idle hsets hjobs h
  have heffect : Effect w.toServer a.base (.updateStatus js)
      (w.toServer.putSet { w.sets.current with status := js.status }) := .updateStatus js hbase
  have hreply : Reply w.toServer a.base (.updateStatus js) (.ok ()) _ _ :=
    .accepted heffect trivial
  have hcall : MeterStep S careful
      ({ w with seenSets := w.sets.top, seenJobs := w.jobs.top, attempt := some a }, t')
      (_, t'.next (.updateStatus js)) := .call rfl hnext hreply fun _ _ => heffect
  exact ⟨_, { t' with pending := [] }, hcount, rfl, hrun.tail hcall⟩

end Given

/-- Every run is a run of the counters. -/
theorem meterRun_of_reachable {S : Setting} {js : JobSet} {w : World} (h : Reachable S js w) :
    ∃ t, MeterRun S False js w t := by
  induction h with
  | refl => exact ⟨.zero, .refl⟩
  | @tail w w' _ hstep ih =>
    obtain ⟨t, hrun⟩ := ih
    have hlift : ∃ t', MeterStep S False (w, t) (w', t') := by
      cases hstep with
      | answer busy next reply => exact ⟨_, .call busy next reply False.elim⟩
      | stop => exact ⟨_, .stop False.elim⟩
      | begin idle allowed newer past newerJobs pastJobs listed =>
        exact ⟨t, .other (.begin idle allowed newer past newerJobs pastJobs listed) (Or.inr idle)⟩
      | userUpdate admitted status => exact ⟨t, .other (.userUpdate admitted status) (Or.inl rfl)⟩
      | jobProgress mem status finished =>
        exact ⟨t, .other (.jobProgress mem status finished) (Or.inl rfl)⟩
      | jobAppeared foreign free => exact ⟨t, .other (.jobAppeared foreign free) (Or.inl rfl)⟩
      | jobRemoved mem removable => exact ⟨t, .other (.jobRemoved mem removable) (Or.inl rfl)⟩
    obtain ⟨t', hstep'⟩ := hlift
    exact ⟨t', hrun.tail hstep'⟩

/-! ## Counted once -/

/-- In every run whose reconciles count on the current version of the JobSet and then store what
they counted, each counter is increased at most once, and the condition it stands for is stored
or the reconcile in progress is about to store it. -/
theorem metrics_once {S : Setting} {js : JobSet} (hnew : js.status = .new) {w : World} {t : Tally}
    (h : MeterRun S True js w t) :
    (∀ metric, t.counts metric ≤ 1) ∧
    ∀ metric, 0 < t.counts metric → Persisted metric w.sets.current ∨
      ∃ a, w.attempt = some a ∧ metric ∈ t.pending ∧ Commits t.pending a.rest := by
  have hok := meterRun_tallyOk hnew h
  refine ⟨hok.once, fun metric hpos => ?_⟩
  rcases hok.counted metric hpos with hpersisted | hpending
  · exact Or.inl hpersisted
  · right
    cases hbusy : w.attempt with
    | none =>
      rw [hok.idle hbusy] at hpending
      cases hpending
    | some a =>
      refine ⟨a, rfl, hpending, ?_⟩
      cases hok.stage a hbusy with
      | counting unfinished commits keeps => exact commits
      | deciding none accounts keeps =>
        rw [none] at hpending
        cases hpending
      | written none uncounted =>
        rw [none] at hpending
        cases hpending

/-- The Jobs are created by others, as after a restore. -/
def foreignSetting (env : Env) : Setting := { plainSetting env with foreign := fun _ => True }

/-- A failed Job of a new JobSet. -/
def failedWorld : World :=
  let w := World.initial (plainSet [.single "w" 1] 0 .recreate)
  { w with toServer := w.toServer.addJob (Job.child "js" "w" "0" failedStatus) }

/-- The status write is accepted: the failure is counted once and stored. -/
theorem metrics_once_failedJob :
    ∃ w t, MeterRun (foreignSetting (plainEnv restartJobGates)) True
        (plainSet [.single "w" 1] 0 .recreate) w t ∧
      t.counts .jobSetFailed = 1 ∧ Persisted .jobSetFailed w.sets.current := by
  have happeared : MeterStep (foreignSetting (plainEnv restartJobGates)) True
      (World.initial (plainSet [.single "w" 1] 0 .recreate), .zero) (failedWorld, .zero) :=
    .other (.jobAppeared trivial (by simp [World.initial])) (Or.inl rfl)
  have hcounts : countsNext (plainEnv restartJobGates) .jobSetFailed failedWorld = true := by
    decide +kernel
  obtain ⟨w, t, hone, hpending, hrun⟩ := meter_accepted (w := failedWorld) (t := .zero)
    (S := foreignSetting (plainEnv restartJobGates)) rfl rfl (Nat.zero_le _) (Nat.zero_le _) hcounts
  have hmeter : MeterRun _ True _ w t := hrun.head happeared
  obtain ⟨honce, hstored⟩ := metrics_once rfl hmeter
  have hcounted : 0 < t.counts .jobSetFailed := by
    rw [hone]
    exact Nat.succ_pos _
  refine ⟨w, t, hmeter, le_antisymm (honce _) hcounted, ?_⟩
  rcases hstored .jobSetFailed hcounted with h | ⟨a, -, hmem, -⟩
  · exact h
  · rw [hpending] at hmem
    cases hmem

/-- The only Job has failed and no restarts are left. The final status write is refused twice: the
failure is counted twice, and not stored. -/
theorem metrics_twice_refused :
    ∃ w t, MeterRun (plainSetting (plainEnv restartJobGates)) False
        (plainSet [.single "w" 1] 0 .recreate) w t ∧ w.attempt = none ∧
      2 ≤ t.counts .jobSetFailed ∧ ¬ Persisted .jobSetFailed w.sets.current := by
  obtain ⟨w, hw, hp⟩ := run_reachable (S := plainSetting (plainEnv restartJobGates))
    (p := fun w => countsNext (plainEnv restartJobGates) .jobSetFailed w && w.attempt.isNone &&
      !jobSetFinished w.sets.current)
    rfl (plainSet [.single "w" 1] 0 .recreate)
    [.begin 0 0, .answer 0, .answer 0, .stop, .progress "js-w-0" failedStatus]
    (by simp [Event.Permitted]) (by decide +kernel)
  simp only [Bool.and_eq_true, Bool.not_eq_true', Option.isNone_iff_eq_none] at hp
  obtain ⟨⟨hcounts, hidle⟩, hunfinished⟩ := hp
  have hinv := reachable_inv hw
  obtain ⟨t, hrun⟩ := meterRun_of_reachable hw
  obtain ⟨t₁, hfirst, hrun₁⟩ := meter_refused (S := plainSetting (plainEnv restartJobGates)) (t := t)
    rfl hidle hinv.seenSets hinv.seenJobs hcounts
  obtain ⟨t₂, hsecond, hrun₂⟩ := meter_refused (S := plainSetting (plainEnv restartJobGates))
    (w := { w with seenSets := w.sets.top, seenJobs := w.jobs.top, attempt := none }) (t := t₁)
    rfl rfl le_rfl le_rfl hcounts
  refine ⟨_, t₂, (hrun.trans hrun₁).trans hrun₂, rfl, by omega, fun hpersisted => ?_⟩
  rw [hpersisted.finished] at hunfinished
  cases hunfinished

end JobSetOperator.Cluster
