import JobSetOperator.Controller.Metering
import JobSetOperator.Convergence.Turns

/-!
# The outcome of one reconcile

With all feature gates off, what a reconcile does is decided by the site it starts
from. It leaves a JobSet that is being deleted alone, cleans up a finished one, lets
the policies finish or restart one with failed or successful Jobs, and otherwise
brings the service, the claims, the Jobs and the status up to date.
-/
namespace JobSetOperator.Convergence

open Library Library.Program

def gatesOff : FeatureGates where
  inPlaceRestart := false
  restartJob := false
  elasticJobSet := false
  executionAttemptsTracking := false
  jobSetActiveDeadlineSeconds := false
  jobSetWorkloadAwareSchedulingAPI := false

/-! ## The snapshot -/

/-- The bucket of a Job by its restart label. -/
def bucket (js : JobSet) (job : Job) : Bucket :=
  if (restartLabel job).getD 0 < js.status.restarts then .previous else finishedBucket job

/-- The Jobs by bucket. -/
def snapshot (js : JobSet) (jobs : List Job) : ChildJobs where
  active := jobs.filter fun job => bucket js job = .active
  successful := jobs.filter fun job => bucket js job = .successful
  failed := jobs.filter fun job => bucket js job = .failed
  previous := jobs.filter fun job => bucket js job = .previous

theorem classifyJob_eq {gates : FeatureGates} (hgate : gates.restartJob = false) (js : JobSet)
    {job : Job} {r : ℤ} (h : restartLabel job = some r) :
    classifyJob gates js job = .ok (bucket js job) := by
  have hlabel : requireInt restartsKey (job.labels.get restartsKey) = .ok r := by
    unfold requireInt
    rw [show parseInt (job.labels.get restartsKey) = some r from h]
  unfold classifyJob bucket
  rw [hlabel, except_ok_bind, h, Option.getD_some]
  split_ifs with hprevious hrestartJob
  · rfl
  · cases hgate.symm.trans hrestartJob
  · rfl

theorem getChildJobs_eq {gates : FeatureGates} (hgate : gates.restartJob = false) (js : JobSet)
    {jobs : List Job} (h : ∀ job ∈ jobs, ∃ r, restartLabel job = some r) :
    getChildJobs gates js jobs = .ok (snapshot js jobs) := by
  induction jobs with
  | nil => rfl
  | cons job rest ih =>
    obtain ⟨⟨r, hr⟩, hrest⟩ := List.forall_mem_cons.mp h
    unfold getChildJobs
    rw [classifyJob_eq hgate js hr, ih hrest]
    simp only [except_ok_bind]
    cases hb : bucket js job <;> simp [snapshot, ChildJobs.add, hb, pure, Except.pure]

theorem mem_snapshot {js : JobSet} {jobs : List Job} {job : Job} {b : Bucket} :
    job ∈ (snapshot js jobs).jobs b ↔ job ∈ jobs ∧ bucket js job = b := by
  cases b <;> simp [snapshot, ChildJobs.jobs]

theorem mem_snapshot_all {js : JobSet} {jobs : List Job} {job : Job} :
    job ∈ (snapshot js jobs).all ↔ job ∈ jobs := by
  simp only [ChildJobs.all, snapshot, List.mem_append, List.mem_filter, decide_eq_true_eq]
  cases bucket js job <;> simp

/-! ## What the site asks for -/

namespace Site

variable (env : Env) (s : Site)

def owned : ChildJobs := snapshot s.js s.jobs

/-- The counts of the ReplicatedJobs. -/
def counts : List ReplicatedJobStatus := calculateReplicatedJobStatuses env.gates s.js s.owned

/-- Whose turn it is. -/
def turn : List ReplicatedJob × Bool :=
  turns (s.counts env) (waitsInOrder s.js) s.js.spec.replicatedJobs fun _ => 0

/-- The requests for conditions of a running pass. -/
def requests : List ConditionOpts :=
  readyRequests s.js (s.counts env) ++ startupRequests s.js (s.turn env).2 ++
    suspendRequests s.js (s.turn env).2

/-- The indexes a running pass creates Jobs for. -/
def freeSlots : List (ReplicatedJob × ℕ) :=
  if recreationBlocked s.js s.owned then []
  else ((s.turn env).1.flatMap fun rjob => (List.range rjob.replicas).map fun i =>
    (rjob, i)).filter fun slot => slotName s.js slot ∉ s.owned.all.map (·.name)

/-- The Jobs a running pass suspends or resumes. -/
def toRework : List Job := reworkedJobs s.js s.owned.active (s.turn env).1

/-- A running pass would not change the status. -/
structure StatusSettled : Prop where
  counts : sortStatuses s.js.status.replicatedJobsStatus = sortStatuses (s.counts env)
  startTime : s.js.status.startTime = none
  requests : ∀ o ∈ s.requests env, SettledIn o s.js.status.conditions

end Site

/-- The failure policy ends in an error. -/
def policyErrs (env : Env) (js : JobSet) (failed : List Job) : Bool :=
  match executeFailurePolicy env.platform env.gates 0 failed (.start js) with
  | .ok _ => false
  | .error _ => true

inductive Phase
  | deleted
  | finished
  | unhandled
  | decided
  | running
  deriving DecidableEq, Repr

/-- What the policies make of a JobSet that has not finished. -/
def Site.decision (env : Env) (s : Site) : Phase :=
  if s.owned.failed ≠ [] then
    if policyErrs env s.js s.owned.failed then .unhandled else .decided
  else if s.owned.successful = [] then .running
  else
    match successPolicyMet s.js s.owned.successful with
    | .error _ => .unhandled
    | .ok true => .decided
    | .ok false => .running

/-- What the JobSet is about to go through. -/
def Site.phase (env : Env) (s : Site) : Phase :=
  if jobSetMarkedForDeletion s.js then .deleted
  else if jobSetFinished s.js then .finished
  else s.decision env

/-! ## What a pass writes down -/

/-- The pass at the end of a reconcile of running Jobs. -/
structure Drafts (env : Env) (s : Site) (p : Pass) : Prop where
  js : p.js = { s.js with status := { s.js.status with
    conditions := p.js.status.conditions
    startTime := none
    replicatedJobsStatus := sortStatuses (s.counts env) } }
  settles : ∀ o ∈ s.requests env, SettledIn o p.js.status.conditions
  finished : jobSetFinished p.js = jobSetFinished s.js
  update : p.opts.shouldUpdate = true ↔ ¬ s.StatusSettled env

/-- A Job that was just created for the index. -/
structure StoredFor (js : JobSet) (slot : ReplicatedJob × ℕ) (stored : Job) : Prop where
  name : stored.name = slotName js slot
  labelled : LabelledBy js stored
  bucket : bucket js stored = .active
  suspend : jobSuspended stored = jobSetSuspended js
  live : stored.deletionTimestamp = none

/-- The site after the Jobs of earlier attempts are deleted. -/
def Site.cleared (s : Site) : Session :=
  Session.delete ⟨s, false⟩ ((liveJobs s.owned.previous).map (·.name))

/-- How a reconcile of the site ends. -/
inductive Outcome (env : Env) (s : Site) : Session → Except String ℤ → Prop
  | deleted (h : s.phase env = .deleted) {requeueAfter : ℤ} :
    Outcome env s ⟨s, false⟩ (.ok requeueAfter)
  | finished (h : s.phase env = .finished) {requeueAfter : ℤ} :
    Outcome env s ((Session.delete ⟨s, false⟩ ((liveJobs s.owned.active).map (·.name))).record
      (entryPass env s.js s.owned)) (.ok requeueAfter)
  | unhandled (h : s.phase env = .unhandled) {err : String} :
    Outcome env s s.cleared (.error err)
  | decided (h : s.phase env = .decided) {status : JobSetStatus}
    (ends : jobSetFinished { s.js with status := status } = true ∨
      (s.owned.failed ≠ [] ∧ status.restarts = s.js.status.restarts + 1)) {requeueAfter : ℤ} :
    Outcome env s
      { s.cleared with js := { s.js with status := status }, wrote := true } (.ok requeueAfter)
  | running (h : s.phase env = .running) {stored : List Job} {mid : Session} {p : Pass}
    (created : List.Forall₂ (StoredFor s.js) (s.freeSlots env) stored)
    (reworked : ((s.cleared.provide s.js).create stored).Reworks (jobSetSuspended s.js)
      ((s.toRework env).map (·.name)) mid)
    (drafts : Drafts env s p) {requeueAfter : ℤ} :
    Outcome env s (mid.record p) (.ok requeueAfter)

/-- What every site of an iteration meets: the JobSet is managed here, has no TTL, and the
Jobs are its own and have different names. -/
structure Sound (s : Site) : Prop where
  names : s.js.jobNames.Nodup
  internal : managedByExternalController s.js = none
  ttl : s.js.spec.ttlSecondsAfterFinished = none
  labelled : ∀ job ∈ s.jobs, LabelledBy s.js job
  distinct : (s.jobs.map (·.name)).Nodup

/-! ## Parts of the proof -/

theorem restartLabel_of_labelledBy {js : JobSet} {job : Job} (h : LabelledBy js job) :
    ∃ r, restartLabel job = some r := by
  obtain ⟨platform, gates, status, rjob, -, i, -, built, hbuilt, -, hlabels⟩ := h
  obtain ⟨hrestarts, -⟩ := constructJob_labels hbuilt
  refine ⟨status.restarts, ?_⟩
  unfold restartLabel StrMap.get
  rw [hlabels, hrestarts, Option.getD_some]
  exact parseInt_itoa _

/-- A Job that is stored from a constructed one is an active Job of the current attempt. -/
theorem storedFor_of_constructed {platform : Platform} {gates : FeatureGates} {js : JobSet}
    {status : JobSetStatus} (hrestarts : status.restarts = js.status.restarts)
    {slot : ReplicatedJob × ℕ} (hrjob : slot.1 ∈ js.spec.replicatedJobs)
    (hindex : slot.2 < slot.1.replicas) {job stored : Job}
    (h : Constructed platform gates { js with status := status } slot job)
    (hstores : Stores job stored) : StoredFor js slot stored := by
  have hbuilt := constructJob_builtFor h
  obtain ⟨hlabel, -⟩ := constructJob_labels h
  constructor
  · exact hstores.name.trans hbuilt.name
  · exact ⟨platform, gates, status, slot.1, hrjob, slot.2, hindex, job, h, hstores.name,
      hstores.labels⟩
  · have hparse : restartLabel stored = some (js.status.restarts : ℤ) := by
      unfold restartLabel StrMap.get
      rw [hstores.labels, hlabel, Option.getD_some, ← hrestarts]
      exact parseInt_itoa _
    unfold bucket finishedBucket
    rw [hparse, Option.getD_some, if_neg (lt_irrefl _), hstores.active]
  · unfold jobSuspended
    rw [hstores.suspend, hbuilt.suspend]
    rfl
  · exact hstores.live

theorem entryPass_update {env : Env} {js : JobSet} {owned : ChildJobs} :
    (entryPass env js owned).opts.shouldUpdate = true ↔
      sortStatuses js.status.replicatedJobsStatus ≠
        sortStatuses (calculateReplicatedJobStatuses env.gates js owned) := by
  unfold entryPass updateReplicatedJobsStatuses
  dsimp only [Pass.start]
  split_ifs with h
  · simp [h]
  · simp [h]

/-- The pass with its start time cleared, if there was one. -/
def withoutStart (had : Bool) (p : Pass) : Pass := if had then setStartTime none p else p

theorem setCondition_setStartTime (now : Time) (o : ConditionOpts) (startTime : Option Time)
    (p : Pass) :
    setCondition now o (setStartTime startTime p) = setStartTime startTime (setCondition now o p) := by
  unfold setCondition setStartTime
  dsimp only
  split_ifs <;> rfl

/-- Requests do not look at the start time. -/
theorem asks_withoutStart {os : List ConditionOpts} {had : Bool} {p q p' : Pass}
    (h : Asks os q p') (hq : q = withoutStart had p) :
    ∃ p'', Asks os p p'' ∧ p' = withoutStart had p'' := by
  induction h generalizing p with
  | nil q => exact ⟨p, .nil p, hq⟩
  | @cons o os q p' now rest ih =>
    have hstep : setCondition now o q = withoutStart had (setCondition now o p) := by
      rw [hq]
      unfold withoutStart
      split_ifs
      · exact setCondition_setStartTime now o none p
      · rfl
    obtain ⟨p'', hasks, hp''⟩ := ih hstep
    exact ⟨p'', .cons now hasks, hp''⟩

theorem withoutStart_conditions (had : Bool) (p : Pass) :
    (withoutStart had p).js.status.conditions = p.js.status.conditions := by
  unfold withoutStart
  split_ifs <;> rfl

/-- The requests of a running pass, from the counts on. -/
theorem drafts_of_asks {env : Env} {s : Site} {p : Pass}
    (h : Asks (s.requests env) (entryPass env s.js s.owned) p) :
    Drafts env s (withoutStart (decide (s.js.status.startTime ≠ none)) p) := by
  have hjs := h.js
  rw [entryPass_js] at hjs
  have hentry : (entryPass env s.js s.owned).js.status.conditions = s.js.status.conditions := by
    rw [entryPass_js]
  constructor
  · rw [withoutStart_conditions]
    by_cases hstart : s.js.status.startTime = none
    · rw [decide_eq_false (not_not.mpr hstart)]
      change p.js = _
      rw [hjs]
      simp [hstart, Site.counts]
    · rw [decide_eq_true hstart]
      change { p.js with status := { p.js.status with startTime := none } } = _
      rw [hjs]
      rfl
  · intro o ho
    rw [withoutStart_conditions]
    exact h.settles (requests_compatible s.js (s.counts env) (s.turn env).2) o ho
  · rw [Bool.eq_iff_iff, jobSetFinished_iff, jobSetFinished_iff, withoutStart_conditions,
      h.condTrue (Or.inl rfl) (requests_nonterminal _ _ _ (Or.inl rfl)),
      h.condTrue (Or.inr rfl) (requests_nonterminal _ _ _ (Or.inr rfl)), hentry]
  · by_cases hstart : s.js.status.startTime = none
    · rw [decide_eq_false (not_not.mpr hstart)]
      change p.opts.shouldUpdate = true ↔ _
      by_cases hrequests : ∀ o ∈ s.requests env, SettledIn o s.js.status.conditions
      · rw [h.of_settled (by rwa [hentry]), entryPass_update]
        constructor
        · exact fun hne hsettled => hne hsettled.counts
        · exact fun hnot heq => hnot ⟨heq, hstart, hrequests⟩
      · constructor
        · exact fun _ hsettled => hrequests hsettled.requests
        · exact fun _ => h.of_unsettled (by rwa [hentry])
    · rw [decide_eq_true hstart]
      constructor
      · exact fun _ hsettled => hstart hsettled.startTime
      · exact fun _ => rfl

/-! ## The policies -/

/-- Without the gate exactly the actions that restart a single Job end in an error. -/
theorem applyFailurePolicyRuleAction_errs {gates : FeatureGates} (hgate : gates.restartJob = false)
    (now : Time) (fp : FailurePolicy) (rule : Option FailurePolicyRule) (job : Job) (p : Pass)
    (action : FailurePolicyAction) :
    (∃ err, applyFailurePolicyRuleAction gates now fp rule job p action = .error err) ↔
      action = .restartJob ∨ action = .restartJobAndIgnoreMaxRestarts := by
  cases action with
  | failJobSet => simp [applyFailurePolicyRuleAction, failJobSetActionApplier]
  | restartJobSet =>
    simp only [applyFailurePolicyRuleAction, restartJobSetActionApplier]
    split_ifs <;> simp
  | restartJobSetAndIgnoreMaxRestarts =>
    simp [applyFailurePolicyRuleAction, restartJobSetAndIgnoreMaxRestartsActionApplier]
  | restartJob => simp [applyFailurePolicyRuleAction, restartJobActionApplier, hgate]
  | restartJobAndIgnoreMaxRestarts =>
    simp [applyFailurePolicyRuleAction, restartJobAndIgnoreMaxRestartsActionApplier, hgate]

/-- Whether the failure policy ends in an error does not depend on the clock or the status. -/
theorem executeFailurePolicy_errs {platform : Platform} {gates : FeatureGates}
    (hgate : gates.restartJob = false) {p q : Pass} (hspec : p.js.spec = q.js.spec)
    (now now' : Time) (failed : List Job) :
    (∃ err, executeFailurePolicy platform gates now failed p = .error err) ↔
      ∃ err, executeFailurePolicy platform gates now' failed q = .error err := by
  unfold executeFailurePolicy
  rw [hspec]
  cases q.js.spec.failurePolicy with
  | none =>
    cases findFirstFailedJob failed with
    | none => rfl
    | some job => simp
  | some fp =>
    dsimp only
    rcases selectFailure platform fp.rules failed with ⟨rule, _ | job⟩
    · rfl
    · dsimp only
      rw [applyFailurePolicyRuleAction_errs hgate, applyFailurePolicyRuleAction_errs hgate]

theorem policyErrs_iff {env : Env} (hgate : env.gates.restartJob = false) {js : JobSet} {p : Pass}
    (hspec : p.js.spec = js.spec) (now : Time) (failed : List Job) :
    policyErrs env js failed = true ↔
      ∃ err, executeFailurePolicy env.platform env.gates now failed p = .error err := by
  rw [@executeFailurePolicy_errs env.platform env.gates hgate p (.start js) hspec now 0 failed]
  unfold policyErrs
  split
  · rename_i hok
    simp [hok]
  · rename_i herr
    simp [herr]

/-- A policy that decides asks for a status update, and it finishes or restarts the JobSet. -/
theorem decides_of_executeFailurePolicy {env : Env} (hgate : env.gates.restartJob = false)
    {js : JobSet} {p p' : Pass} (hu : Uncounting js p) {now : Time} {failed : List Job}
    (h : executeFailurePolicy env.platform env.gates now failed p = .ok p') :
    p'.opts.shouldUpdate = true ∧
      (jobSetFinished p'.js = true ∨ p'.js.status.restarts = p.js.status.restarts + 1) := by
  rcases executeFailurePolicy_cases h with ⟨reason, msg, -, rfl⟩ |
    ⟨fp, job, count, event, condOpts, -, -, -, -, rfl⟩ | ⟨-, -, -, -, -, -, hg, -⟩
  · have hcounts := hu.failed now reason msg
    refine ⟨hcounts.update, Or.inl ?_⟩
    rw [jobSetFinished_iff]
    exact Or.inr (ends_setJobSetFailedCondition now reason msg p).isTrue
  · constructor
    · exact setCondition_shouldUpdate rfl
    · right
      change (setCondition now condOpts _).js.status.restarts = _
      rw [setCondition_js]
      rfl
  · cases hgate.symm.trans hg

end JobSetOperator.Convergence
