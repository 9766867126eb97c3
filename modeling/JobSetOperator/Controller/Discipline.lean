import JobSetOperator.Controller.Reconcile

/-!
# Which calls a reconcile makes

`Calls env js jobs` says, for every call that reads or writes Jobs or the status,
what the reconcile of the snapshot `(js, jobs)` has established when it makes the
call and what the call carries. That every path through `Reconcile` keeps to it is
`reconcileRequest_follows`, in the next module.

A ghost value `Seen` records the answers that move the copies in memory: the
status write in the middle of a reconcile and the patches of Jobs.
-/
namespace JobSetOperator

open Library Library.Program

/-! ## Calls that touch neither Jobs nor the status -/

/-- The call neither writes a Job nor the status of the JobSet. -/
def Request.Neutral : Request → Prop
  | .createJob _ => False
  | .deleteJob _ => False
  | .patchScaling _ => False
  | .updateJobStatus _ => False
  | .updateJob _ => False
  | .updateStatus _ => False
  | _ => True

/-- A program with neutral calls only. -/
def Quiet {α : Type} (p : Prog α) : Prop :=
  Follows (fun (_ : Unit) r => Request.Neutral r) (fun _ _ _ => ()) (fun _ _ => True) () p

theorem Quiet.bind {α β : Type} {p : Prog α} {f : α → Prog β} (hp : Quiet p)
    (hf : ∀ a, Quiet (f a)) : Quiet (p >>= f) :=
  Follows.bind hp fun _ a _ => hf a

theorem quiet_liftExcept {α : Type} (e : Except String α) : Quiet (liftExcept e) := by
  cases e <;> exact trivial

theorem quiet_joinErrors (errs : List String) : Quiet (joinErrors errs) := by
  unfold joinErrors
  split_ifs <;> exact trivial

theorem quiet_done {α : Type} (a : α) : Quiet (.done a : Prog α) := trivial

theorem quiet_fail {α : Type} (e : String) : Quiet (.fail e : Prog α) := trivial

theorem quiet_send {r : Request} (hr : r.Neutral) : Quiet (send r) := ⟨hr, fun _ => trivial⟩

theorem quiet_recordEvent (event : EventParams) : Quiet (recordEvent event) := quiet_send trivial

theorem quiet_requeueFinished (js : JobSet) : Quiet (requeueFinished js) := by
  unfold requeueFinished executeTTLAfterFinishedPolicy
  refine Quiet.bind ?_ fun _ => quiet_done _
  cases js.spec.ttlSecondsAfterFinished with
  | none => exact quiet_done _
  | some ttlSeconds =>
    refine Quiet.bind (quiet_send trivial) fun now => ?_
    refine Quiet.bind (quiet_liftExcept _) fun expired => ?_
    by_cases h : expired = true
    · rw [if_pos h]
      exact Quiet.bind (quiet_send trivial) fun _ => quiet_liftExcept _
    · rw [if_neg h]
      exact Quiet.bind (quiet_send trivial) fun _ => quiet_liftExcept _

theorem quiet_createHeadlessSvcIfNecessary (js : JobSet) :
    Quiet (createHeadlessSvcIfNecessary js) := by
  unfold createHeadlessSvcIfNecessary
  split_ifs
  · exact quiet_done _
  · refine Quiet.bind (quiet_send trivial) fun lookup => ?_
    cases lookup with
    | failed err => exact quiet_fail _
    | notFound =>
      refine Quiet.bind (quiet_send trivial) fun outcome => ?_
      cases outcome with
      | ok _ => exact quiet_done _
      | error err => exact Quiet.bind (quiet_recordEvent _) fun _ => quiet_fail _
    | found controlled ports =>
      dsimp only
      split_ifs
      · exact Quiet.bind (quiet_send trivial) fun _ => quiet_liftExcept _
      · exact quiet_done _

theorem quiet_createPVCsIfNecessary (js : JobSet) (policy : VolumeClaimPolicy)
    (templates : List PersistentVolumeClaim) :
    Quiet (createPVCsIfNecessary js policy templates) := by
  induction templates with
  | nil => exact quiet_done _
  | cons template rest ih =>
    refine Quiet.bind (quiet_send trivial) fun result => ?_
    cases result with
    | failed err => exact Quiet.bind (quiet_recordEvent _) fun _ => quiet_done _
    | created => exact ih
    | alreadyExists => exact ih

theorem quiet_reconcileVolumeClaimPolicies (js : JobSet) :
    Quiet (reconcileVolumeClaimPolicies js) := by
  have hloop : ∀ policies, Quiet (reconcileClaimsLoop js policies) := by
    intro policies
    induction policies with
    | nil => exact quiet_done _
    | cons policy rest ih =>
      refine Quiet.bind (quiet_createPVCsIfNecessary _ _ _) fun _ => ?_
      exact Quiet.bind ih fun _ => quiet_done _
  exact Quiet.bind (hloop _) fun _ => quiet_joinErrors _

theorem quiet_schedulingOutcome {α : Type} (outcome : Except String α) :
    Quiet (schedulingOutcome outcome) := by
  cases outcome with
  | ok a => exact quiet_done _
  | error err => exact Quiet.bind (quiet_recordEvent _) fun _ => quiet_fail _

theorem quiet_reconcileScheduling (env : Env) (js : JobSet) :
    Quiet (reconcileScheduling env js) := by
  unfold reconcileScheduling
  split_ifs
  · exact quiet_done _
  · refine Quiet.bind (quiet_send trivial) fun _ => ?_
    exact Quiet.bind (quiet_schedulingOutcome _) fun _ => quiet_done _
  · refine Quiet.bind (quiet_send trivial) fun _ => ?_
    refine Quiet.bind (quiet_schedulingOutcome _) fun _ => ?_
    exact Quiet.bind (quiet_send trivial) fun _ => quiet_schedulingOutcome _

theorem quiet_reconcileResources (env : Env) (js : JobSet) : Quiet (reconcileResources env js) := by
  unfold reconcileResources
  refine Quiet.bind (quiet_createHeadlessSvcIfNecessary js) fun _ => ?_
  split_ifs
  · refine Quiet.bind (quiet_reconcileVolumeClaimPolicies js) fun _ => ?_
    exact quiet_reconcileScheduling env js
  · exact quiet_reconcileScheduling env js

theorem quiet_countMetrics (metrics : List Metric) : Quiet (countMetrics metrics) := by
  induction metrics with
  | nil => exact quiet_done _
  | cons metric rest ih => exact Quiet.bind (quiet_send trivial) fun _ => ih

theorem quiet_emitEvents (events : List EventParams) : Quiet (emitEvents events) := by
  induction events with
  | nil => exact quiet_done _
  | cons event rest ih => exact Quiet.bind (quiet_recordEvent _) fun _ => ih

/-! ## The stages of a reconcile -/

/-- The answers that moved the copies in memory. -/
structure Seen where
  acked : Option JobSet
  answers : List Job

def Seen.none : Seen := ⟨.none, []⟩

/-- What an answer adds. -/
def Seen.next (s : Seen) : (r : Request) → r.Response → Seen
  | .updateStatus js, .ok _ => { s with acked := some js }
  | .patchScaling _, .ok stored => { s with answers := stored :: s.answers }
  | .updateJobStatus job, .ok version =>
    { s with answers := { job with resourceVersion := version } :: s.answers }
  | _, _ => s

/-- More Jobs have been answered, and the status has not been written. -/
structure Seen.Extends (s s' : Seen) : Prop where
  acked : s'.acked = s.acked
  answers : s.answers ⊆ s'.answers

theorem Seen.Extends.refl (s : Seen) : s.Extends s := ⟨rfl, List.Subset.refl _⟩

theorem Seen.Extends.trans {s₁ s₂ s₃ : Seen} (h₁ : s₁.Extends s₂) (h₂ : s₂.Extends s₃) :
    s₁.Extends s₃ :=
  ⟨h₂.acked.trans h₁.acked, List.Subset.trans h₁.answers h₂.answers⟩

/-- The pass after the counts of the ReplicatedJobs. -/
def entryPass (env : Env) (js : JobSet) (owned : ChildJobs) : Pass :=
  updateReplicatedJobsStatuses (calculateReplicatedJobStatuses env.gates js owned) (.start js)

/-- The pass an unfinished JobSet goes on with: the restarting condition and the
start time are up to date. -/
def ActivePass (env : Env) (js : JobSet) (owned : ChildJobs) (p : Pass) : Prop :=
  ∃ now now', p = syncActiveDeadlineStartTime env.gates now'
    (clearRestarting (calculateReplicatedJobStatuses env.gates js owned) now
      (entryPass env js owned))

theorem entryPass_js (env : Env) (js : JobSet) (owned : ChildJobs) :
    (entryPass env js owned).js = { js with
      status := { js.status with
        replicatedJobsStatus := sortStatuses
          (calculateReplicatedJobStatuses env.gates js owned) } } := by
  unfold entryPass updateReplicatedJobsStatuses
  dsimp only
  split_ifs <;> rfl

theorem clearRestarting_js (statuses : List ReplicatedJobStatus) (now : Time) (p : Pass) :
    ∃ conditions, (clearRestarting statuses now p).js = { p.js with
      status := { p.js.status with conditions := conditions } } := by
  unfold clearRestarting
  split_ifs
  · exact ⟨_, setCondition_js _ _ _⟩
  · exact ⟨_, rfl⟩

theorem syncActiveDeadlineStartTime_js (gates : FeatureGates) (now : Time) (p : Pass) :
    ∃ startTime, (syncActiveDeadlineStartTime gates now p).js = { p.js with
      status := { p.js.status with startTime := startTime } } := by
  unfold syncActiveDeadlineStartTime setStartTime
  split_ifs <;> exact ⟨_, rfl⟩

/-- Up to here only the counts, the conditions and the start time have changed. -/
theorem ActivePass.js {env : Env} {js : JobSet} {owned : ChildJobs} {p : Pass}
    (h : ActivePass env js owned p) : ∃ conditions startTime, p.js = { js with
      status := { js.status with
        conditions := conditions
        startTime := startTime
        replicatedJobsStatus := sortStatuses
          (calculateReplicatedJobStatuses env.gates js owned) } } := by
  obtain ⟨now, now', rfl⟩ := h
  obtain ⟨startTime, h₁⟩ := syncActiveDeadlineStartTime_js env.gates now' (clearRestarting
    (calculateReplicatedJobStatuses env.gates js owned) now (entryPass env js owned))
  obtain ⟨conditions, h₂⟩ := clearRestarting_js
    (calculateReplicatedJobStatuses env.gates js owned) now (entryPass env js owned)
  refine ⟨conditions, startTime, ?_⟩
  rw [h₁, h₂, entryPass_js]

theorem ActivePass.spec {env : Env} {js : JobSet} {owned : ChildJobs} {p : Pass}
    (h : ActivePass env js owned p) : p.js.spec = js.spec := by
  obtain ⟨_, _, hjs⟩ := h.js
  rw [hjs]

/-- The reconcile is allowed to act, and has sorted the Jobs of its snapshot. -/
structure Live (env : Env) (js : JobSet) (jobs : List Job) (owned : ChildJobs) : Prop where
  present : jobSetMarkedForDeletion js = false
  internal : managedByExternalController js = none
  sorted : getChildJobs env.gates js jobs = .ok owned

/-- The JobSet has not finished and the policies are about to decide. -/
structure Undecided (env : Env) (js : JobSet) (jobs : List Job) (owned : ChildJobs) (p : Pass) :
    Prop extends Live env js jobs owned where
  unfinished : jobSetFinished js = false
  passed : ActivePass env js owned p

/-- The active Jobs as they are in memory once scaling is done. -/
def Scaled (s : Seen) (jobs active : List Job) : Prop :=
  List.Forall₂ (fun job job' => job' = job ∨ job' ∈ s.answers) jobs active

theorem Scaled.mono {s s' : Seen} {l active : List Job} (h : Scaled s l active)
    (hs : s.answers ⊆ s'.answers) : Scaled s' l active :=
  List.Forall₂.imp (fun _ _ h => h.imp id fun h => hs h) h

/-- What `syncExecutionAttempts` does to the pass. -/
inductive AttemptsStep (env : Env) (owned : ChildJobs) (active : List Job) (p : Pass) :
    Option JobSet → Pass → Prop
  | keep (h : nextExecutionAttempts env p.js active owned.successful owned.failed = none) :
    AttemptsStep env owned active p none p
  | start {attempts : ℕ}
    (h : nextExecutionAttempts env p.js active owned.successful owned.failed =
      some (attempts, false)) :
    AttemptsStep env owned active p none (setExecutionAttempts attempts p).requestUpdate
  | resume {attempts : ℕ}
    (h : nextExecutionAttempts env p.js active owned.successful owned.failed =
      some (attempts, true)) :
    AttemptsStep env owned active p (some (setExecutionAttempts attempts p).js)
      (setExecutionAttempts attempts p)

theorem AttemptsStep.spec {env : Env} {owned : ChildJobs} {active : List Job} {p q : Pass}
    {acked : Option JobSet} (h : AttemptsStep env owned active p acked q) :
    q.js.spec = p.js.spec := by
  cases h <;> rfl

/-- The JobSet goes on: nothing has failed or completed it, the active Jobs are
scaled and the execution attempts are settled. -/
structure Running (env : Env) (js : JobSet) (jobs : List Job) (s : Seen) (owned : ChildJobs)
    (active : List Job) (p q : Pass) : Prop extends Undecided env js jobs owned p where
  noFailed : owned.failed = []
  scaled : Scaled s owned.active active
  attempts : AttemptsStep env owned active p s.acked q

theorem Running.spec {env : Env} {js : JobSet} {jobs : List Job} {s : Seen} {owned : ChildJobs}
    {active : List Job} {p q : Pass} (h : Running env js jobs s owned active p q) :
    q.js.spec = js.spec :=
  h.attempts.spec.trans h.passed.spec

theorem Running.extends {env : Env} {js : JobSet} {jobs : List Job} {s s' : Seen}
    {owned : ChildJobs} {active : List Job} {p q : Pass}
    (h : Running env js jobs s owned active p q) (hs : s.Extends s') :
    Running env js jobs s' owned active p q :=
  ⟨h.toUndecided, h.noFailed, h.scaled.mono hs.answers, hs.acked ▸ h.attempts⟩

/-- The map of replicas once the loop has passed the ReplicatedJobs. -/
def replicaMap (rjobs : List ReplicatedJob) : String → ℕ := rjobs.foldl addReplicas fun _ => 0

/-- With the startup order, the loop has passed each of `before` because its
dependencies were missing or because it had started. -/
def Waited (statuses : List ReplicatedJobStatus) (inOrder : Bool) (before : List ReplicatedJob) :
    Prop :=
  inOrder = true → ∀ front r back, before = front ++ r :: back →
    dependencyReachedStatus r (replicaMap (front ++ [r])) statuses = false ∨
      replicasStarted statuses r = .ok true

/-- The loop reaches a ReplicatedJob behind `before` and acts on it. -/
structure Turn (statuses : List ReplicatedJobStatus) (inOrder : Bool)
    (before : List ReplicatedJob) (rjob : ReplicatedJob) : Prop where
  reached : dependencyReachedStatus rjob (replicaMap (before ++ [rjob])) statuses = true
  waited : Waited statuses inOrder before
  pending : inOrder = true → replicasStarted statuses rjob = .ok false

/-- The ReplicatedJobs that have their turn. -/
def HasTurn (env : Env) (js : JobSet) (owned : ChildJobs) (inOrder : Bool)
    (rjob : ReplicatedJob) : Prop :=
  ∃ before after, js.spec.replicatedJobs = before ++ rjob :: after ∧
    Turn (calculateReplicatedJobStatuses env.gates js owned) inOrder before rjob

/-! ## Where the Jobs in memory come from -/

theorem Scaled.source {s : Seen} {l active : List Job} (h : Scaled s l active) {job : Job}
    (hjob : job ∈ active) : job ∈ l ∨ job ∈ s.answers := by
  induction h with
  | nil => simp at hjob
  | cons hfirst hrest ih =>
    rcases List.mem_cons.mp hjob with rfl | hjob
    · rcases hfirst with rfl | hans
      · exact Or.inl List.mem_cons_self
      · exact Or.inr hans
    · exact (ih hjob).imp (List.mem_cons_of_mem _) id

theorem Running.source {env : Env} {js : JobSet} {jobs : List Job} {s : Seen} {owned : ChildJobs}
    {active : List Job} {p q : Pass} (h : Running env js jobs s owned active p q) {job : Job}
    (hjob : job ∈ active) : job ∈ jobs ∨ job ∈ s.answers := by
  rcases h.scaled.source hjob with hmem | hans
  · exact Or.inl ((getChildJobs_mem h.sorted (b := .active)).mp hmem).1
  · exact Or.inr hans

/-! ## The calls -/

/-- A Job that is created. -/
def Creates (env : Env) (js : JobSet) (jobs : List Job) (s : Seen) (job : Job) : Prop :=
  ∃ owned active p q rjob created, Running env js jobs s owned active p q ∧
    HasTurn env js owned (waitsInOrder js) rjob ∧
    constructJobsFromTemplate env.platform env.gates q.js rjob owned = .ok created ∧
    job ∈ created

/-- A Job that is suspended. -/
def Suspends (env : Env) (js : JobSet) (jobs : List Job) (s : Seen) (job : Job) : Prop :=
  ∃ owned active p q, Running env js jobs s owned active p q ∧ jobSetSuspended js = true ∧
    ∃ running ∈ active, jobSuspended running = false ∧
      job = { running with spec := { running.spec with suspend := some true } }

/-- A suspended Job whose turn it is. -/
def Resumable (env : Env) (js : JobSet) (jobs : List Job) (s : Seen) (q : Pass) (job : Job) :
    Prop :=
  ∃ owned active p rjob, Running env js jobs s owned active p q ∧ jobSetSuspended js = false ∧
    HasTurn env js owned (inOrderStartupPolicy js.spec.startupPolicy) rjob ∧
    job ∈ activeJobsOf active rjob ∧ jobSuspended job = true

theorem Resumable.extends {env : Env} {js : JobSet} {jobs : List Job} {s s' : Seen} {q : Pass}
    {job : Job} (h : Resumable env js jobs s q job) (hs : s.Extends s') :
    Resumable env js jobs s' q job := by
  obtain ⟨owned, active, p, rjob, hr, hrest⟩ := h
  exact ⟨owned, active, p, rjob, hr.extends hs, hrest⟩

theorem Resumable.source {env : Env} {js : JobSet} {jobs : List Job} {s : Seen} {q : Pass}
    {job : Job} (h : Resumable env js jobs s q job) : job ∈ jobs ∨ job ∈ s.answers := by
  obtain ⟨owned, active, p, rjob, hr, -, -, hmem, -⟩ := h
  exact hr.source (List.mem_of_mem_filter hmem)

/-- A Job that is resumed. -/
def Resumes (env : Env) (js : JobSet) (jobs : List Job) (s : Seen) (job : Job) : Prop :=
  ∃ q suspended, Resumable env js jobs s q suspended ∧
    ((suspended.status.startTime = none ∧ job = resumedJob env.gates q.js suspended) ∨
      ∃ version, { suspended.cleared with resourceVersion := version } ∈ s.answers ∧
        job = resumedJob env.gates q.js { suspended.cleared with resourceVersion := version })

/-- A Job that is deleted, by its name. -/
def Deletes (env : Env) (js : JobSet) (jobs : List Job) (name : String) : Prop :=
  ∃ owned, Live env js jobs owned ∧ ∃ job, job.name = name ∧ job.deletionTimestamp = none ∧
    ((jobSetFinished js = true ∧ job ∈ owned.active) ∨
      (jobSetFinished js = false ∧ job ∈ owned.previous) ∨
      (∃ p, Undecided env js jobs owned p ∧ job ∈ owned.active ∧
        ((∃ now remaining, activeDeadlineRemaining env.gates now p.js = some remaining ∧
            remaining ≤ 0) ∨
          (owned.failed = [] ∧ staleSchedulingJobs env js owned.active = true))))

/-- A patch of the scaling of an active Job. -/
def Patches (env : Env) (js : JobSet) (jobs : List Job) (job : Job) : Prop :=
  ∃ owned p, Undecided env js jobs owned p ∧ owned.failed = [] ∧
    ∃ active ∈ owned.active, ∃ parallelism completions, job = { active with
      spec := { active.spec with parallelism := parallelism, completions := completions } }

/-- What `reconcileReplicatedJobs` does to the pass. -/
def StartupStep (p p' : Pass) : Prop :=
  p' = p ∨ ∃ now, p' = setInOrderStartupPolicyCompletedCondition now p ∨
    p' = setInOrderStartupPolicyInProgressCondition now p

/-- What suspending or resuming does to the pass. -/
def SuspendStep (js : JobSet) (p p' : Pass) : Prop :=
  ∃ now, (jobSetSuspended js = true ∧ p' = setJobSetSuspendedCondition now p) ∨
    (jobSetSuspended js = false ∧ (p' = setJobSetResumedCondition now p ∨
      p' = setInOrderStartupPolicyInProgressCondition now p))

/-- What the in-place restart does to the pass. -/
def InPlaceStep (p p' : Pass) : Prop :=
  p' = p ∨ ∃ now pods, reconcileInPlaceRestart now pods p = .ok p'

/-- The status writes of a reconcile. -/
inductive Writes (env : Env) (js : JobSet) (jobs : List Job) (s : Seen) : JobSet → Prop
  | finished {owned : ChildJobs} (live : Live env js jobs owned) (first : s.acked = none)
    (h : jobSetFinished js = true) : Writes env js jobs s (entryPass env js owned).js
  | waiting {owned : ChildJobs} {p : Pass} (undecided : Undecided env js jobs owned p)
    (first : s.acked = none) : Writes env js jobs s p.js
  | completed {owned : ChildJobs} {p : Pass} (undecided : Undecided env js jobs owned p)
    (first : s.acked = none) (now : Time) (some_successful : owned.successful ≠ [])
    (met : successPolicyMet p.js owned.successful = .ok true) :
    Writes env js jobs s (setJobSetCompletedCondition now p).js
  | expired {owned : ChildJobs} {p : Pass} (undecided : Undecided env js jobs owned p)
    (first : s.acked = none) (now now' : Time) {remaining : ℤ}
    (armed : activeDeadlineRemaining env.gates now p.js = some remaining) (passed : remaining ≤ 0) :
    Writes env js jobs s (failOnActiveDeadline now' p).js
  | failed {owned : ChildJobs} {p p' : Pass} (undecided : Undecided env js jobs owned p)
    (first : s.acked = none) (now now' : Time) (some_failed : owned.failed ≠ [])
    (h : executeFailurePolicy env.platform env.gates now owned.failed p = .ok p') :
    Writes env js jobs s
      (resetStartTimeOnGlobalRestart env.gates now' p.js.status.restarts p').js
  | attempts {owned : ChildJobs} {active : List Job} {p : Pass} {attempts : ℕ}
    (undecided : Undecided env js jobs owned p) (first : s.acked = none)
    (noFailed : owned.failed = []) (scaled : Scaled s owned.active active)
    (h : nextExecutionAttempts env p.js active owned.successful owned.failed =
      some (attempts, true)) :
    Writes env js jobs s (setExecutionAttempts attempts p).js
  | running {owned : ChildJobs} {active : List Job} {p q q₁ q₂ q₃ : Pass}
    (running : Running env js jobs s owned active p q) (startup : StartupStep q q₁)
    (suspend : SuspendStep js q₁ q₂) (inPlace : InPlaceStep q₂ q₃) :
    Writes env js jobs s q₃.js

/-- What every call of a reconcile of the snapshot carries. -/
def Calls (env : Env) (js : JobSet) (jobs : List Job) (s : Seen) : Request → Prop
  | .createJob job => Creates env js jobs s job
  | .deleteJob name => Deletes env js jobs name
  | .patchScaling job => Patches env js jobs job
  | .updateJobStatus job => ∃ q suspended, Resumable env js jobs s q suspended ∧
      job = suspended.cleared
  | .updateJob job => Suspends env js jobs s job ∨ Resumes env js jobs s job
  | .updateStatus js' => Writes env js jobs s js'
  | _ => True

end JobSetOperator
