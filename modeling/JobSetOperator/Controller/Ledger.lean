import JobSetOperator.Controller.Conclusion

/-!
# Emitted events and persisted changes

The ledger of a reconcile holds the conditions that are stored and the events that
were emitted from the queue. They match when the stored conditions come from those
before the reconcile by changes whose events are the emitted ones, each once.
-/
namespace JobSetOperator

open Library Library.Program

/-! ## The ledger -/

structure Ledger where
  stored : List Condition
  emitted : List EventParams

/-- An acknowledged status write stores the conditions; an event that reports a failed call does
not come from the queue. -/
def Ledger.next (s : Ledger) : (r : Request) → r.Response → Ledger
  | .updateStatus js, .ok _ => { s with stored := js.status.conditions }
  | .emitEvent event, _ =>
    if event.eventReason ∈ failureReasons then s else { s with emitted := s.emitted ++ [event] }
  | _, _ => s

/-- The API answers as it likes, and the ledger follows. -/
def records (s : Ledger) (r : Request) (x : r.Response) (s' : Ledger) : Prop := s' = s.next r x

/-- The ledger before the reconcile. -/
def Ledger.start (js : JobSet) : Ledger := ⟨js.status.conditions, []⟩

/-- The stored conditions and the emitted events belong together. -/
def Ledger.Matches (js : JobSet) (s : Ledger) : Prop :=
  ∃ steps, Leads js.status.conditions steps s.stored ∧ s.emitted = steps.map QueueStep.event

theorem Ledger.next_unlogged {r : Request} (hr : r.Unlogged) (s : Ledger) (x : r.Response) :
    s.next r x = s := by
  cases r with
  | updateStatus js => exact hr.elim
  | emitEvent event => exact if_pos hr
  | _ => rfl

/-- A program whose calls leave the ledger alone. -/
theorem ensures_of_unmoved {α : Type} {P : Request → Prop} {Q : α → Prop} {p : Prog α} {s : Ledger}
    (h : Follows (fun (_ : Unit) r => P r) (fun _ _ _ => ()) (fun _ a => Q a) () p)
    (hP : ∀ r, P r → ∀ x, s.next r x = s) :
    Ensures records (fun _ => True) (fun s' res => s' = s ∧ ∀ a, res = .ok a → Q a) s p := by
  induction p with
  | done a =>
    refine ⟨rfl, fun b hb => ?_⟩
    cases hb
    exact h
  | fail e => exact ⟨rfl, fun b hb => by cases hb⟩
  | call r k ih =>
    refine ⟨trivial, fun x s' hs => ?_⟩
    have hsame : s' = s := hs.trans (hP r h.1 x)
    rw [hsame]
    exact ih x (h.2 x)

theorem Silently.ensures {α : Type} {Q : α → Prop} {p : Prog α} (h : Silently Q p) (s : Ledger) :
    Ensures records (fun _ => True) (fun s' res => s' = s ∧ ∀ a, res = .ok a → Q a) s p :=
  ensures_of_unmoved h fun _ hr x => Ledger.next_unlogged hr s x

/-- A silent part that can return a value does so without touching the ledger. -/
theorem Silently.allows {α : Type} {Q : α → Prop} {p : Prog α} (h : Silently Q p) {a : α}
    (ha : Returns a p) (s : Ledger) :
    Allows records (fun s' res => s' = s ∧ res = .ok a) s p := by
  induction p with
  | done b =>
    cases ha
    exact ⟨rfl, rfl⟩
  | fail e => exact ha.elim
  | call r k ih =>
    obtain ⟨x, hx⟩ := ha
    refine ⟨x, s, (Ledger.next_unlogged h.1 s x).symm, ih x (h.2 x) hx⟩

/-! ## The pending change -/

/-- The clock does not decide whether a condition changes. -/
theorem updateConditionLoop_flags (cs : List Condition) {new new' : Condition}
    (h : new' = { new with lastTransitionTime := new'.lastTransitionTime }) :
    (updateConditionLoop cs new').2 = (updateConditionLoop cs new).2 := by
  obtain ⟨htype, hstatus, hreason, hmessage⟩ : new'.type = new.type ∧ new'.status = new.status ∧
      new'.reason = new.reason ∧ new'.message = new.message := by
    rw [h]
    exact ⟨rfl, rfl, rfl, rfl⟩
  induction cs generalizing new new' with
  | nil => rfl
  | cons c cs ih =>
    have hexclusive : exclusiveConditions c new' = exclusiveConditions c new := by
      unfold exclusiveConditions
      rw [htype]
    unfold updateConditionLoop
    rw [htype, hstatus, hreason, hmessage, hexclusive]
    split_ifs
    · rfl
    · rfl
    · exact congrArg (fun r => (true, r.2)) (ih h htype hstatus hreason hmessage)
    · exact congrArg (fun r => (r.1, true)) (ih h htype hstatus hreason hmessage)
    · exact ih h htype hstatus hreason hmessage

theorem updateCondition_flag (now now' : Time) (cs : List Condition) (o : ConditionOpts) :
    (updateCondition now' cs o).2 = (updateCondition now cs o).2 := by
  have hflags := @updateConditionLoop_flags cs { o.condition with lastTransitionTime := now }
    { o.condition with lastTransitionTime := now' } rfl
  unfold updateCondition
  dsimp only
  rw [hflags]
  split_ifs <;> rfl

theorem length_updateConditionLoop (cs : List Condition) (new : Condition) :
    (updateConditionLoop cs new).1.length = cs.length := by
  induction cs generalizing new with
  | nil => rfl
  | cons c cs ih =>
    unfold updateConditionLoop
    split_ifs <;> simp [ih]

/-- A change changes the list. -/
theorem updateConditionLoop_changed (cs : List Condition) (new : Condition)
    (h : (updateConditionLoop cs new).2.2 = true) : (updateConditionLoop cs new).1 ≠ cs := by
  induction cs generalizing new with
  | nil => simp [updateConditionLoop] at h
  | cons c cs ih =>
    unfold updateConditionLoop at h ⊢
    split_ifs at h ⊢ with htype hstatus htext hexclusive
    · intro heq
      exact hstatus (congrArg Condition.status (List.cons.inj heq).1)
    · intro heq
      have hkept := (List.cons.inj heq).1
      have hsame : new.reason = c.reason ∧ new.message = c.message := by
        rw [← hkept]
        exact ⟨rfl, rfl⟩
      exact htext.elim (fun h => h hsame.1) fun h => h hsame.2
    · exact fun heq => ih new h (List.cons.inj heq).2
    · intro heq
      have hfalse := congrArg Condition.status (List.cons.inj heq).1
      rw [hexclusive.2.1] at hfalse
      cases hfalse
    · exact fun heq => ih new h (List.cons.inj heq).2

theorem updateCondition_changed {now : Time} {cs : List Condition} {o : ConditionOpts}
    (h : (updateCondition now cs o).2 = true) : (updateCondition now cs o).1 ≠ cs := by
  unfold updateCondition at h ⊢
  dsimp only at h ⊢
  split_ifs at h ⊢
  · intro heq
    have hlength := congrArg List.length heq
    simp [length_updateConditionLoop] at hlength
  · exact updateConditionLoop_changed _ _ h

/-- A condition that turns false leaves the others alone. -/
theorem find_updateConditionLoop (cs : List Condition) (new : Condition)
    (hfalse : new.status = .conditionFalse) {t : JobSetConditionType} (ht : new.type ≠ t) :
    (updateConditionLoop cs new).1.find? (fun c => c.type = t) =
      cs.find? (fun c => c.type = t) := by
  induction cs generalizing new with
  | nil => rfl
  | cons c cs ih =>
    have hrest := ih new hfalse ht
    unfold updateConditionLoop
    split_ifs with htype hstatus htext hexclusive
    · rw [List.find?_cons_of_neg (by simpa using ht), List.find?_cons_of_neg (by simpa [← htype] using ht)]
      exact hrest
    · rw [List.find?_cons_of_neg (by simpa using ht), List.find?_cons_of_neg (by simpa [← htype] using ht)]
      exact ih { new with lastTransitionTime := c.lastTransitionTime } hfalse ht
    · rw [List.find?_cons, List.find?_cons, hrest]
    · rw [hfalse] at hexclusive
      cases hexclusive.2.2
    · rw [List.find?_cons, List.find?_cons, hrest]

theorem isStatusConditionTrue_updateCondition (now : Time) (cs : List Condition)
    {o : ConditionOpts} (hfalse : o.condition.status = .conditionFalse) {t : JobSetConditionType}
    (ht : o.condition.type ≠ t) :
    isStatusConditionTrue (updateCondition now cs o).1 t = isStatusConditionTrue cs t := by
  have hlist : (updateCondition now cs o).1 =
      (updateConditionLoop cs { o.condition with lastTransitionTime := now }).1 := by
    unfold updateCondition
    dsimp only
    rw [hfalse]
    simp
  unfold isStatusConditionTrue
  rw [hlist, find_updateConditionLoop cs { o.condition with lastTransitionTime := now } hfalse ht]

/-- The request that ends the restarting condition once all Jobs are ready. -/
def jobsReadyOpts : ConditionOpts :=
  conditionOpts eventTypeNormal .jobSetRestarting .conditionFalse "JobsReady" "all jobs are ready"

/-- The reconcile changes the restarting condition before the policies decide. -/
def restartingPending (js : JobSet) (statuses : List ReplicatedJobStatus) : Bool :=
  !jobSetSuspended js && allJobsReady js statuses &&
    (updateCondition 0 js.status.conditions jobsReadyOpts).2

/-- The conditions before the policies decide. -/
theorem ActivePass.conditions {env : Env} {js : JobSet} {owned : ChildJobs} {p : Pass}
    (h : ActivePass env js owned p) :
    ∃ now, p.js.status.conditions =
      if restartingPending js (calculateReplicatedJobStatuses env.gates js owned) then
        (updateCondition now js.status.conditions jobsReadyOpts).1
      else js.status.conditions := by
  obtain ⟨now, now', rfl⟩ := h
  obtain ⟨startTime, hsync⟩ := syncActiveDeadlineStartTime_js env.gates now' (clearRestarting
    (calculateReplicatedJobStatuses env.gates js owned) now (entryPass env js owned))
  refine ⟨now, ?_⟩
  rw [hsync]
  have hready : allJobsReady (entryPass env js owned).js
      (calculateReplicatedJobStatuses env.gates js owned) =
        allJobsReady js (calculateReplicatedJobStatuses env.gates js owned) := by
    rw [entryPass_js]
    rfl
  have hsuspended : jobSetSuspended (entryPass env js owned).js = jobSetSuspended js := by
    rw [entryPass_js]
    rfl
  have hconditions : (entryPass env js owned).js.status.conditions = js.status.conditions := by
    rw [entryPass_js]
  unfold clearRestarting restartingPending
  rw [hready, hsuspended]
  by_cases hclear : (!jobSetSuspended js) = true ∧
      allJobsReady js (calculateReplicatedJobStatuses env.gates js owned) = true
  · rw [if_pos hclear, hclear.1, hclear.2]
    dsimp only [setRestartingConditionFalse]
    rw [setCondition_js, hconditions]
    change (updateCondition now js.status.conditions jobsReadyOpts).1 = _
    cases hflag : (updateCondition 0 js.status.conditions jobsReadyOpts).2 with
    | true => rfl
    | false =>
      rw [updateCondition_flag now] at hflag
      exact updateCondition_unchanged now _ _ hflag
  · rw [if_neg hclear, hconditions]
    have hfalse : (!jobSetSuspended js &&
        allJobsReady js (calculateReplicatedJobStatuses env.gates js owned)) = false := by
      simpa using hclear
    rw [hfalse]
    rfl

theorem ActivePass.conditions_kept {env : Env} {js : JobSet} {owned : ChildJobs} {p : Pass}
    (h : ActivePass env js owned p)
    (hpending : restartingPending js (calculateReplicatedJobStatuses env.gates js owned) = false) :
    p.js.status.conditions = js.status.conditions := by
  obtain ⟨now, hconditions⟩ := h.conditions
  rw [hconditions, hpending]
  rfl

theorem ActivePass.conditions_changed {env : Env} {js : JobSet} {owned : ChildJobs} {p : Pass}
    (h : ActivePass env js owned p)
    (hpending : restartingPending js (calculateReplicatedJobStatuses env.gates js owned) = true) :
    p.js.status.conditions ≠ js.status.conditions := by
  obtain ⟨now, hconditions⟩ := h.conditions
  rw [hconditions, hpending, if_pos rfl]
  apply updateCondition_changed
  rw [updateCondition_flag 0]
  simp only [restartingPending, Bool.and_eq_true] at hpending
  exact hpending.2

/-- The change does not touch what the execution attempts are decided from. -/
theorem ActivePass.nextExecutionAttempts {env : Env} {js : JobSet} {owned : ChildJobs} {p : Pass}
    (h : ActivePass env js owned p) (active successful failed : List Job) :
    JobSetOperator.nextExecutionAttempts env p.js active successful failed =
      JobSetOperator.nextExecutionAttempts env js active successful failed := by
  have hsuspended : isStatusConditionTrue p.js.status.conditions .jobSetSuspended =
      isStatusConditionTrue js.status.conditions .jobSetSuspended := by
    obtain ⟨now, hconditions⟩ := h.conditions
    rw [hconditions]
    split_ifs
    · exact isStatusConditionTrue_updateCondition now _ rfl (by decide)
    · rfl
  obtain ⟨conditions, startTime, hjs⟩ := h.js
  rw [hjs] at hsuspended ⊢
  unfold JobSetOperator.nextExecutionAttempts
  dsimp only at hsuspended ⊢
  rw [hsuspended]
  rfl

/-! ## When an event can be lost -/

/-- The write of the execution attempts finds the change of the restarting condition pending:
the JobSet is resumed, all its Jobs count as ready, and neither policy has ended the reconcile. -/
structure LosesEvent (env : Env) (js : JobSet) (jobs : List Job) (owned : ChildJobs)
    (active : List Job) : Prop extends Live env js jobs owned where
  unfinished : jobSetFinished js = false
  noFailed : owned.failed = []
  unmet : owned.successful = [] ∨ successPolicyMet js owned.successful = .ok false
  fresh : staleSchedulingJobs env js owned.active = false
  pending : restartingPending js (calculateReplicatedJobStatuses env.gates js owned) = true
  scaled : List.Forall₂ (PatchedCopy env js) owned.active active
  resumes : ∃ attempts, nextExecutionAttempts env js active owned.successful owned.failed =
    some (attempts, true)

def CanLoseEvent (env : Env) (js : JobSet) (jobs : List Job) : Prop :=
  ∃ owned active, LosesEvent env js jobs owned active

/-! ## Without a loss -/

/-- The write of the execution attempts stores the conditions as they were. -/
theorem EarlyWrite.conditions {env : Env} {js : JobSet} {jobs : List Job} {owned : ChildJobs}
    {active : List Job} {p : Pass} {attempts : ℕ}
    (h : EarlyWrite env js jobs owned active p attempts) (hsafe : ¬ CanLoseEvent env js jobs) :
    p.js.status.conditions = js.status.conditions := by
  have hnext := h.resumes
  rw [h.passed.nextExecutionAttempts] at hnext
  apply h.passed.conditions_kept
  by_contra hpending
  exact hsafe ⟨owned, active, h.toLive, h.unfinished, h.noFailed, h.unmet, h.fresh,
    by simpa using hpending, h.scaled, attempts, hnext⟩

/-- No call before the final status write moves the ledger. -/
theorem Ledger.next_reconcileCalls {env : Env} {js : JobSet} {jobs : List Job} {r : Request}
    (h : ReconcileCalls env js jobs r) (hsafe : ¬ CanLoseEvent env js jobs) (x : r.Response) :
    (Ledger.start js).next r x = .start js := by
  rcases h with h | ⟨owned, active, p, attempts, hwrite, rfl⟩
  · exact Ledger.next_unlogged h _ x
  · cases x with
    | error e => rfl
    | ok u =>
      have hsame : (setExecutionAttempts attempts p).js.status.conditions =
        js.status.conditions := hwrite.conditions hsafe
      simp only [Ledger.next, Ledger.start, hsame]

theorem ensures_reconcile {env : Env} {js : JobSet} {jobs : List Job}
    (hdel : jobSetMarkedForDeletion js = false) (hsafe : ¬ CanLoseEvent env js jobs) :
    Ensures records (fun _ => True)
      (fun s' res => s' = .start js ∧ ∀ r, res = .ok r → Tracks (.start js) r.1) (.start js)
      (reconcile env js jobs) := by
  apply (ensures_of_unmoved (conducts_reconcile hdel) _).mono (fun _ h => h)
  · rintro s res ⟨hs, hres⟩
    exact ⟨hs, fun r hr => (hres r hr).tracks⟩
  · exact fun r h x => Ledger.next_reconcileCalls h hsafe x

/-- Counting moves no ledger. -/
theorem ensures_countMetrics (metrics : List Metric) (s : Ledger) :
    Ensures records (fun _ => True) (fun s' _ => s' = s) s (countMetrics metrics) := by
  induction metrics with
  | nil => rfl
  | cons metric rest ih =>
    refine ⟨trivial, fun x s' hs => ?_⟩
    have hsame : s' = s := hs
    rw [hsame]
    exact ih

/-- The queue is emitted in order. -/
theorem ensures_emitEvents {events : List EventParams}
    (h : ∀ event ∈ events, event.eventReason ∉ failureReasons) (s : Ledger) :
    Ensures records (fun _ => True)
      (fun s' _ => s' = { s with emitted := s.emitted ++ events }) s (emitEvents events) := by
  induction events generalizing s with
  | nil => simp [emitEvents]
  | cons event rest ih =>
    obtain ⟨hevent, hrest⟩ := List.forall_mem_cons.mp h
    refine ⟨trivial, fun x s' hs => ?_⟩
    have hnext : s' = { s with emitted := s.emitted ++ [event] } := hs.trans (if_neg hevent)
    subst hnext
    apply (ih hrest _).mono (fun _ h => h)
    intro s' res hs'
    rw [hs', List.append_assoc]
    rfl

/-- The final write stores the changes and their events are emitted, or neither happens. -/
theorem ensures_updateJobSetStatus {js : JobSet} {p : Pass} (hp : Tracks (.start js) p) :
    Ensures records (fun _ => True) (fun s' _ => s'.Matches js) (.start js)
      (updateJobSetStatus p) := by
  have hnothing : (Ledger.start js).Matches js := ⟨[], rfl, rfl⟩
  unfold updateJobSetStatus
  apply (ensures_countMetrics p.metrics (.start js)).bind _ (by rintro s e rfl; exact hnothing)
  rintro s _ rfl
  split_ifs with hupdate
  · refine ⟨trivial, fun outcome s' hs => ?_⟩
    cases outcome with
    | error e =>
      have hsame : s' = .start js := hs
      rw [hsame]
      exact hnothing
    | ok u =>
      obtain ⟨steps, hleads, hevents, hreasons, -⟩ := hp
      have hqueue : p.opts.events = steps.map QueueStep.event := hevents
      have hemit : ∀ event ∈ p.opts.events, event.eventReason ∉ failureReasons := by
        intro event hevent
        rw [hqueue] at hevent
        obtain ⟨step, hstep, rfl⟩ := List.mem_map.mp hevent
        exact hreasons step hstep
      apply (ensures_emitEvents hemit s').mono (fun _ h => h)
      intro s'' res hs''
      have hstored : s' = ⟨p.js.status.conditions, []⟩ := hs
      rw [hs'', hstored]
      exact ⟨steps, hleads, by simpa using hqueue⟩
  · exact hnothing

theorem ensures_reconcileRequest {env : Env} {js : JobSet} {jobs : List Job}
    (hsafe : ¬ CanLoseEvent env js jobs) :
    Ensures records (fun _ => True) (fun s' _ => s'.Matches js) (.start js)
      (reconcileRequest env js jobs) := by
  have hnothing : (Ledger.start js).Matches js := ⟨[], rfl, rfl⟩
  unfold reconcileRequest
  by_cases hdel : jobSetMarkedForDeletion js = true
  · rw [if_pos hdel]
    exact hnothing
  · rw [if_neg hdel]
    apply (ensures_reconcile (by simpa using hdel) hsafe).bind
    · rintro s ⟨p, requeueAfter⟩ ⟨rfl, htracks⟩
      apply (ensures_updateJobSetStatus (htracks _ rfl)).bind
      · exact fun s' _ h => h
      · exact fun s' _ h => h
    · rintro s e ⟨rfl, -⟩
      exact hnothing

end JobSetOperator
