import JobSetOperator.Controller.Conclusion

/-!
# Counted metrics

The counters of finished JobSets are increased when a terminal condition is set in
memory, before the status write that stores it. `Accounts` says how a reconcile
counts: it counts for an unfinished JobSet only, each metric at most once, and then
writes a status in which the conditions of the counted metrics are true.
-/
namespace JobSetOperator

open Library Library.Program

/-- The condition that the metric stands for is true. -/
def Persisted : Metric → JobSet → Prop
  | .jobSetCompleted, js => CondTrue js.status.conditions .jobSetCompleted
  | .jobSetFailed, js => CondTrue js.status.conditions .jobSetFailed
  | .jobSetActiveDeadlineExceeded, js => ∃ c ∈ js.status.conditions,
    c.type = .jobSetFailed ∧ c.status = .conditionTrue ∧ c.reason = "DeadlineExceeded"

theorem Persisted.finished {metric : Metric} {js : JobSet} (h : Persisted metric js) :
    jobSetFinished js = true := by
  rw [jobSetFinished_iff]
  cases metric with
  | jobSetCompleted => exact Or.inl h
  | jobSetFailed => exact Or.inr h
  | jobSetActiveDeadlineExceeded =>
    obtain ⟨c, hc, htype, hstatus, -⟩ := h
    exact Or.inr ⟨c, hc, htype, hstatus⟩

theorem persisted_of_conditions {metric : Metric} {a b : JobSet}
    (h : b.status.conditions = a.status.conditions) :
    Persisted metric b ↔ Persisted metric a := by
  cases metric <;> simp only [Persisted, h]

/-! ## What a reconcile holds when it ends -/

/-- The pass counts metrics: the JobSet was unfinished, and the pass is about to store the
conditions they stand for. -/
structure Counts (js : JobSet) (p : Pass) : Prop where
  unfinished : jobSetFinished js = false
  counted : p.metrics ≠ []
  nodup : p.metrics.Nodup
  persisted : ∀ metric ∈ p.metrics, Persisted metric p.js
  update : p.opts.shouldUpdate = true

/-- A condition that turns false leaves the conditions of other types in the list. -/
theorem mem_updateConditionLoop {cs : List Condition} {c : Condition} (hc : c ∈ cs)
    {new : Condition} (hfalse : new.status = .conditionFalse) (hne : new.type ≠ c.type) :
    c ∈ (updateConditionLoop cs new).1 := by
  induction cs generalizing new with
  | nil => cases hc
  | cons first rest ih =>
    have hrest : ∀ new : Condition, new.status = .conditionFalse → new.type ≠ c.type →
        c ∈ rest → c ∈ (updateConditionLoop rest new).1 :=
      fun new hfalse hne hmem => ih hmem hfalse hne
    unfold updateConditionLoop
    rcases List.mem_cons.mp hc with rfl | hmem
    · rw [if_neg hne, if_neg (by simp [hfalse])]
      exact List.mem_cons_self
    · split_ifs
      · exact List.mem_cons_of_mem _ (hrest new hfalse hne hmem)
      · apply List.mem_cons_of_mem
        exact hrest { new with lastTransitionTime := first.lastTransitionTime } hfalse hne hmem
      · exact List.mem_cons_of_mem _ (hrest new hfalse hne hmem)
      · exact List.mem_cons_of_mem _ (hrest new hfalse hne hmem)
      · exact List.mem_cons_of_mem _ (hrest new hfalse hne hmem)

theorem mem_updateCondition (now : Time) {cs : List Condition} {c : Condition} (hc : c ∈ cs)
    {o : ConditionOpts} (hfalse : o.condition.status = .conditionFalse)
    (hne : o.condition.type ≠ c.type) : c ∈ (updateCondition now cs o).1 := by
  have hmem : c ∈ (updateConditionLoop cs { o.condition with lastTransitionTime := now }).1 :=
    mem_updateConditionLoop hc hfalse hne
  unfold updateCondition
  dsimp only
  split_ifs
  · exact List.mem_append_left _ hmem
  · exact hmem

/-- The reason of the failure is stored with it. -/
theorem failed_reason (now : Time) (reason msg : String) (p : Pass) :
    ∃ c ∈ (setJobSetFailedCondition now reason msg p).js.status.conditions,
      c.type = .jobSetFailed ∧ c.status = .conditionTrue ∧ c.reason = reason := by
  obtain ⟨c, hc, htype, hstatus, hreason⟩ := updateCondition_found now p.js.status.conditions
    (conditionOpts eventTypeWarning .jobSetFailed .conditionTrue reason msg) rfl
  refine ⟨c, ?_, htype, hstatus, hreason⟩
  change c ∈ (setCondition now _ (setCondition now _ p)).js.status.conditions
  rw [setCondition_js, setCondition_js]
  apply mem_updateCondition now hc rfl
  rw [htype]
  nofun

theorem entryPass_metrics (env : Env) (js : JobSet) (owned : ChildJobs) :
    (entryPass env js owned).metrics = [] := by
  unfold entryPass updateReplicatedJobsStatuses
  dsimp only
  split_ifs <;> rfl

theorem KeepsTerminal.finished {a b : JobSet} (h : KeepsTerminal a b) :
    jobSetFinished b = jobSetFinished a := by
  rw [Bool.eq_iff_iff, jobSetFinished_iff, jobSetFinished_iff, h.terminal _ (Or.inl rfl),
    h.terminal _ (Or.inr rfl)]

/-- An unfinished JobSet with a pass that has counted nothing. -/
structure Uncounting (js : JobSet) (p : Pass) : Prop where
  unfinished : jobSetFinished js = false
  none : p.metrics = []
  keeps : KeepsTerminal js p.js

namespace Uncounting

variable {js : JobSet} {p : Pass}

theorem not_condTrue (h : Uncounting js p) {t : JobSetConditionType} (ht : t.terminal) :
    ¬ CondTrue p.js.status.conditions t := by
  intro hcond
  have hfinished : jobSetFinished p.js = true := by
    rw [jobSetFinished_iff]
    rcases ht with rfl | rfl
    · exact Or.inl hcond
    · exact Or.inr hcond
  rw [h.keeps.finished, h.unfinished] at hfinished
  cases hfinished

theorem completed (h : Uncounting js p) (now : Time) :
    Counts js (setJobSetCompletedCondition now p) := by
  have hmetrics : (setJobSetCompletedCondition now p).metrics = [.jobSetCompleted] := by
    simp [setJobSetCompletedCondition, setRestartingConditionFalse, setCondition_metrics, h.none]
  constructor
  · exact h.unfinished
  · simp [hmetrics]
  · simp [hmetrics]
  · intro metric hmetric
    obtain rfl : metric = .jobSetCompleted := by simpa [hmetrics] using hmetric
    exact (ends_setJobSetCompletedCondition now p).isTrue
  · exact setCondition_shouldUpdate (setCondition_update rfl (h.not_condTrue (Or.inl rfl)))

theorem failed (h : Uncounting js p) (now : Time) (reason msg : String) :
    Counts js (setJobSetFailedCondition now reason msg p) := by
  have hmetrics : (setJobSetFailedCondition now reason msg p).metrics = [.jobSetFailed] := by
    simp [setJobSetFailedCondition, setRestartingConditionFalse, setCondition_metrics, h.none]
  constructor
  · exact h.unfinished
  · simp [hmetrics]
  · simp [hmetrics]
  · intro metric hmetric
    obtain rfl : metric = .jobSetFailed := by simpa [hmetrics] using hmetric
    exact (ends_setJobSetFailedCondition now reason msg p).isTrue
  · exact setCondition_shouldUpdate (setCondition_update rfl (h.not_condTrue (Or.inr rfl)))

theorem expired (h : Uncounting js p) (now : Time) : Counts js (failOnActiveDeadline now p) := by
  let msg := "JobSet was active for longer than the specified deadline of " ++
    itoa (p.js.spec.activeDeadlineSeconds.getD 0) ++ " seconds"
  have hfailed := h.failed now "DeadlineExceeded" msg
  have hmetrics : (failOnActiveDeadline now p).metrics =
      [.jobSetFailed, .jobSetActiveDeadlineExceeded] := by
    simp [failOnActiveDeadline, setJobSetFailedCondition, setRestartingConditionFalse,
      setCondition_metrics, h.none]
  constructor
  · exact h.unfinished
  · simp [hmetrics]
  · simp [hmetrics]
  · intro metric hmetric
    obtain rfl | rfl : metric = .jobSetFailed ∨ metric = .jobSetActiveDeadlineExceeded := by
      simpa [hmetrics] using hmetric
    · exact (ends_failOnActiveDeadline now p).isTrue
    · exact failed_reason now "DeadlineExceeded" msg p
  · exact hfailed.update

end Uncounting

theorem resetStartTimeOnGlobalRestart_metrics (gates : FeatureGates) (now : Time) (before : ℕ)
    (p : Pass) : (resetStartTimeOnGlobalRestart gates now before p).metrics = p.metrics := by
  unfold resetStartTimeOnGlobalRestart
  split_ifs <;> rfl

theorem Counts.resetStartTime {js : JobSet} {p : Pass} (h : Counts js p) (gates : FeatureGates)
    (now : Time) (before : ℕ) : Counts js (resetStartTimeOnGlobalRestart gates now before p) := by
  unfold resetStartTimeOnGlobalRestart
  split_ifs
  · exact h
  · refine ⟨h.unfinished, h.counted, h.nodup, fun metric hmetric => ?_, rfl⟩
    have hsame : (setStartTime (some now) p).js.status.conditions = p.js.status.conditions := rfl
    exact (persisted_of_conditions hsame).mpr (h.persisted metric hmetric)
  · exact h

theorem failurePolicyRecreateJob_metrics {job : Job} {count : Bool} {event : EventParams}
    {p p' : Pass} (h : failurePolicyRecreateJob job count event p = .ok p') :
    p'.metrics = p.metrics := by
  unfold failurePolicyRecreateJob at h
  obtain ⟨name, -, h⟩ := except_bind_ok h
  obtain ⟨text, -, h⟩ := except_bind_ok h
  obtain ⟨index, -, h⟩ := except_bind_ok h
  obtain ⟨total, -, h⟩ := except_bind_ok h
  cases count with
  | false =>
    cases h
    rfl
  | true =>
    obtain ⟨counts, -, h⟩ := except_bind_ok h
    cases h
    rfl

theorem ActivePass.metrics {env : Env} {js : JobSet} {owned : ChildJobs} {p : Pass}
    (h : ActivePass env js owned p) : p.metrics = [] := by
  obtain ⟨now, now', rfl⟩ := h
  have hclear : (clearRestarting (calculateReplicatedJobStatuses env.gates js owned) now
      (entryPass env js owned)).metrics = [] := by
    unfold clearRestarting setRestartingConditionFalse
    split_ifs
    · rw [setCondition_metrics, entryPass_metrics]
    · exact entryPass_metrics env js owned
  unfold syncActiveDeadlineStartTime
  split_ifs <;> exact hclear

theorem Undecided.uncounting {env : Env} {js : JobSet} {jobs : List Job} {owned : ChildJobs}
    {p : Pass} (h : Undecided env js jobs owned p) : Uncounting js p :=
  ⟨h.unfinished, h.passed.metrics,
    (entryPass_keepsTerminal env js owned).trans h.passed.harmless.toKeepsTerminal⟩

/-- A step that neither counts nor ends the JobSet. -/
theorem Uncounting.harmless {js : JobSet} {p p' : Pass} (h : Uncounting js p)
    (hmetrics : p'.metrics = p.metrics) (hstep : Harmless p.js p'.js) : Uncounting js p' :=
  ⟨h.unfinished, hmetrics.trans h.none, h.keeps.trans hstep.toKeepsTerminal⟩

theorem AttemptsStep.metrics {env : Env} {owned : ChildJobs} {active : List Job} {p q : Pass}
    {acked : Option JobSet} (h : AttemptsStep env owned active p acked q) :
    q.metrics = p.metrics := by
  cases h <;> rfl

theorem StartupStep.metrics {p p' : Pass} (h : StartupStep p p') : p'.metrics = p.metrics := by
  rcases h with rfl | ⟨now, rfl | rfl⟩
  · rfl
  · exact setCondition_metrics _ _ _
  · exact setCondition_metrics _ _ _

theorem SuspendStep.metrics {js : JobSet} {p p' : Pass} (h : SuspendStep js p p') :
    p'.metrics = p.metrics := by
  obtain ⟨now, ⟨-, rfl⟩ | ⟨-, rfl | rfl⟩⟩ := h
  · exact (setCondition_metrics _ _ _).trans (setCondition_metrics _ _ _)
  · exact setCondition_metrics _ _ _
  · exact setCondition_metrics _ _ _

/-- A pass that counts nothing keeps the terminal conditions. -/
theorem Concludes.metrics {env : Env} {js : JobSet} {jobs : List Job} {p : Pass}
    (h : Concludes env js jobs p) : (p.metrics = [] ∧ KeepsTerminal js p.js) ∨ Counts js p := by
  have hquiet : ∀ {q : Pass}, Uncounting js q → (q.metrics = [] ∧ KeepsTerminal js q.js) ∨
      Counts js q := fun hq => Or.inl ⟨hq.none, hq.keeps⟩
  cases h with
  | external => exact Or.inl ⟨rfl, (Harmless.refl js).toKeepsTerminal⟩
  | @finished owned live h =>
    exact Or.inl ⟨entryPass_metrics env js owned, entryPass_keepsTerminal env js owned⟩
  | waiting undecided => exact hquiet undecided.uncounting
  | completed undecided now => exact Or.inr (undecided.uncounting.completed now)
  | expired undecided now => exact Or.inr (undecided.uncounting.expired now)
  | @failed owned p p' undecided now now' h =>
    have hp := undecided.uncounting
    have hreset := harmless_resetStartTimeOnGlobalRestart env.gates now' p.js.status.restarts p'
    have hsame := resetStartTimeOnGlobalRestart_metrics env.gates now' p.js.status.restarts p'
    rcases executeFailurePolicy_cases h with ⟨reason, msg, -, rfl⟩ |
      ⟨fp, job, count, event, o, hfp, hcause, ho, hbudget, rfl⟩ |
      ⟨fp, job, count, event, hfp, hcause, hgate, hbudget, hp'⟩
    · exact Or.inr ((hp.failed now reason msg).resetStartTime env.gates now' _)
    · have hall : RestartsAll env owned job p.js
          (failurePolicyRecreateAll env.gates now count event o p).js :=
        restartsAll_failurePolicyRecreateAll hfp hcause ho fun hc => (hbudget hc).2
      refine Or.inl ⟨?_, hp.keeps.trans (hall.toKeepsTerminal.trans hreset.toKeepsTerminal)⟩
      rw [hsame]
      exact (setCondition_metrics now o _).trans hp.none
    · have hone := restartsJob_failurePolicyRecreateJob hfp hcause hgate hbudget hp'
      refine Or.inl ⟨?_, hp.keeps.trans (hone.toKeepsTerminal.trans hreset.toKeepsTerminal)⟩
      rw [hsame, failurePolicyRecreateJob_metrics hp']
      exact hp.none
  | @running owned active p q q₁ q₂ q₃ acked undecided attempts startup suspend inPlace =>
    have hq := ((undecided.uncounting.harmless attempts.metrics attempts.harmless).harmless
      startup.metrics startup.harmless).harmless suspend.metrics suspend.harmless
    rcases inPlace with rfl | ⟨now, pods, h⟩
    · exact hquiet hq
    · rcases reconcileInPlaceRestart_effect h with rfl | rfl | ⟨previous, current, rfl⟩
      · exact Or.inr (hq.failed now _ _)
      · exact hquiet hq
      · exact hquiet (hq.harmless rfl (harmless_of_status rfl rfl rfl rfl rfl))

/-! ## How a reconcile counts -/

/-- The program counts nothing. -/
def Uncounted (p : Prog ℤ) : Prop :=
  Follows (fun (_ : Unit) r => ∀ metric, r ≠ .countMetric metric) (fun _ _ _ => ())
    (fun _ _ => True) () p

/-- Some metrics have been counted: the program may count others, and then it writes a status in
which the conditions of all of them are true. -/
def Commits : List Metric → Prog ℤ → Prop
  | counted, .call (.countMetric metric) k =>
    metric ∉ counted ∧ Commits (metric :: counted) (k ())
  | counted, .call (.updateStatus js) k =>
    (∀ metric ∈ counted, Persisted metric js) ∧ ∀ x, Uncounted (k x)
  | _, _ => False

/-- Nothing has been counted: the program keeps the terminal conditions in its status writes,
until it counts for an unfinished JobSet. -/
def Accounts (js : JobSet) : Prog ℤ → Prop
  | .call (.countMetric metric) k => jobSetFinished js = false ∧ Commits [metric] (k ())
  | .call (.updateStatus js') k => KeepsTerminal js js' ∧ ∀ x, Accounts js (k x)
  | .call _ k => ∀ x, Accounts js (k x)
  | _ => True

theorem accounts_call {js : JobSet} {r : Request} {k : r.Response → Prog ℤ}
    (hcount : ∀ metric, r ≠ .countMetric metric) (hwrite : ∀ js', r ≠ .updateStatus js') :
    Accounts js (.call r k) ↔ ∀ x, Accounts js (k x) := by
  cases r with
  | countMetric metric => exact absurd rfl (hcount metric)
  | updateStatus js' => exact absurd rfl (hwrite js')
  | _ => exact Iff.rfl

theorem not_commits_call {counted : List Metric} {r : Request} {k : r.Response → Prog ℤ}
    (hcount : ∀ metric, r ≠ .countMetric metric) (hwrite : ∀ js', r ≠ .updateStatus js') :
    ¬ Commits counted (.call r k) := by
  cases r with
  | countMetric metric => exact absurd rfl (hcount metric)
  | updateStatus js' => exact absurd rfl (hwrite js')
  | _ => exact id

theorem EarlyWrite.keepsTerminal {env : Env} {js : JobSet} {jobs : List Job} {owned : ChildJobs}
    {active : List Job} {p : Pass} {attempts : ℕ}
    (h : EarlyWrite env js jobs owned active p attempts) :
    KeepsTerminal js (setExecutionAttempts attempts p).js :=
  h.toUndecided.uncounting.keeps.trans (harmless_setExecutionAttempts attempts p).toKeepsTerminal

/-- Up to the final status write nothing is counted. -/
theorem Conducts.accounts {env : Env} {js : JobSet} {jobs : List Job} {α : Type} {Q : α → Prop}
    {p : Prog α} {f : α → Prog ℤ} (h : Conducts env js jobs Q p)
    (hf : ∀ a, Q a → Accounts js (f a)) : Accounts js (p >>= f) := by
  induction p with
  | done a => exact hf a h
  | fail e => exact trivial
  | call r k ih =>
    have hrest : ∀ x, Accounts js (k x >>= f) := fun x => ih x (h.2 x)
    rcases h.1 with hr | ⟨owned, active, p, attempts, hwrite, rfl⟩
    · apply (accounts_call _ _).mpr hrest
      · rintro metric rfl
        exact hr
      · rintro js' rfl
        exact hr
    · exact ⟨hwrite.keepsTerminal, hrest⟩

theorem commits_countMetrics {metrics counted : List Metric} {f : Unit → Prog ℤ}
    (hnodup : (metrics.reverse ++ counted).Nodup) (hf : Commits (metrics.reverse ++ counted) (f ())) :
    Commits counted (countMetrics metrics >>= f) := by
  induction metrics generalizing counted with
  | nil => exact hf
  | cons metric rest ih =>
    have hlist : (metric :: rest).reverse ++ counted = rest.reverse ++ metric :: counted := by simp
    rw [hlist] at hnodup hf
    constructor
    · exact (List.nodup_cons.mp hnodup.of_append_right).1
    · exact ih hnodup hf

theorem uncounted_emitEvents (events : List EventParams) (requeueAfter : ℤ) :
    Uncounted (emitEvents events >>= fun _ => pure requeueAfter) := by
  induction events with
  | nil => exact trivial
  | cons event rest ih => exact ⟨nofun, fun _ => ih⟩

theorem accounts_emitEvents {js : JobSet} (events : List EventParams) (requeueAfter : ℤ) :
    Accounts js (emitEvents events >>= fun _ => pure requeueAfter) := by
  induction events with
  | nil => exact trivial
  | cons event rest ih => exact fun _ => ih

/-- The end of a reconcile that counts. -/
theorem Counts.accounts {js : JobSet} {p : Pass} (h : Counts js p) (requeueAfter : ℤ) :
    Accounts js (updateJobSetStatus p >>= fun _ => pure requeueAfter) := by
  unfold updateJobSetStatus
  rw [Program.assoc]
  obtain ⟨metric, rest, hmetrics⟩ := List.exists_cons_of_ne_nil h.counted
  have hwrite : Commits p.metrics.reverse ((if p.opts.shouldUpdate then do
      let outcome : Outcome ← send (.updateStatus p.js)
      liftExcept outcome
      emitEvents p.opts.events
    else pure ()) >>= fun _ => pure requeueAfter) := by
    rw [if_pos h.update]
    refine ⟨fun metric hmetric => h.persisted metric (List.mem_reverse.mp hmetric), fun x => ?_⟩
    cases x with
    | error e => exact trivial
    | ok _ => exact uncounted_emitEvents _ _
  have hnodup : (rest.reverse ++ [metric]).Nodup := by
    have hreverse := List.nodup_reverse.mpr h.nodup
    rwa [hmetrics, List.reverse_cons] at hreverse
  rw [hmetrics, List.reverse_cons] at hwrite
  rw [hmetrics]
  exact ⟨h.unfinished, commits_countMetrics hnodup hwrite⟩

/-- The end of a reconcile that does not count. -/
theorem accounts_updateJobSetStatus {js : JobSet} {p : Pass} (hmetrics : p.metrics = [])
    (hkeeps : KeepsTerminal js p.js) (requeueAfter : ℤ) :
    Accounts js (updateJobSetStatus p >>= fun _ => pure requeueAfter) := by
  unfold updateJobSetStatus
  rw [hmetrics]
  split_ifs
  · refine ⟨hkeeps, fun x => ?_⟩
    cases x with
    | error e => exact trivial
    | ok _ => exact accounts_emitEvents _ _
  · exact trivial

theorem accounts_reconcileRequest (env : Env) (js : JobSet) (jobs : List Job) :
    Accounts js (reconcileRequest env js jobs) := by
  unfold reconcileRequest
  by_cases hdel : jobSetMarkedForDeletion js = true
  · rw [if_pos hdel]
    exact trivial
  · rw [if_neg hdel]
    apply (conducts_reconcile (by simpa using hdel)).accounts
    rintro ⟨p, requeueAfter⟩ hp
    rcases hp.metrics with ⟨hnone, hkeeps⟩ | hcounts
    · exact accounts_updateJobSetStatus hnone hkeeps requeueAfter
    · exact hcounts.accounts requeueAfter

end JobSetOperator
