import JobSetOperator.Controller.FailurePolicy
import JobSetOperator.Controller.InPlaceRestart
import JobSetOperator.Controller.JobPhase

/-!
# The reconcile loop

`reconcile` and `Reconcile` of the JobSet controller, as programs over their API
calls. The JobSet and the child Jobs are the cached copies they start from. The
programs keep the source's order of steps and its early returns.
-/
namespace JobSetOperator

open Library

/-- The in-place restart part of `reconcile`; without its gate the strategy does nothing. -/
def reconcileInPlace (env : Env) (p : Pass) : Prog Pass :=
  if isInPlaceRestartStrategy p.js && env.gates.inPlaceRestart then do
    let answer : Except String (List Pod) ← send .listPods
    let pods ← liftExcept answer
    let now ← readClock
    liftExcept (reconcileInPlaceRestart now pods p)
  else .done p

/-- Suspend the active Jobs, or resume those whose turn it is. -/
def suspendOrResume (env : Env) (active : List Job) (statuses : List ReplicatedJobStatus)
    (p : Pass) : Prog Pass :=
  if jobSetSuspended p.js then suspendJobs active p
  else resumeJobsIfNecessary env active statuses p

/-- The Jobs of a JobSet that goes on. -/
def reconcileJobs (env : Env) (ownedJobs : ChildJobs) (statuses : List ReplicatedJobStatus)
    (requeueAfter : ℤ) (p : Pass) : Prog (Pass × ℤ) := do
  let active ← syncJobScaling env p.js ownedJobs.active
  let p ← syncExecutionAttempts env active ownedJobs.successful ownedJobs.failed p
  let p ← reconcileReplicatedJobs env ownedJobs statuses p
  let p ← suspendOrResume env active statuses p
  let p ← reconcileInPlace env p
  pure (p, requeueAfter)

/-- Active Jobs that still reference an older scheduling configuration. -/
def staleSchedulingJobs (env : Env) (js : JobSet) (active : List Job) : Bool :=
  schedulingConfigured env js && !jobSetSuspended js &&
    schedulingJobsNeedRecreation env.platform js active

/-- The part of `reconcile` after the policies: nothing has failed or succeeded. -/
def reconcileRunning (env : Env) (ownedJobs : ChildJobs) (statuses : List ReplicatedJobStatus)
    (requeueAfter : ℤ) (p : Pass) : Prog (Pass × ℤ) := do
  let goOn ← reconcileResources env p.js
  if !goOn then pure (p, 0)
  else if staleSchedulingJobs env p.js ownedJobs.active then do
    deleteJobs ownedJobs.active
    pure (p, 0)
  else reconcileJobs env ownedJobs statuses requeueAfter p

/-- Complete the JobSet if its success policy is met. -/
def executeSuccessPolicy (successful : List Job) (p : Pass) : Prog (Option Pass) :=
  if successful = [] then .done none
  else do
    let completed ← liftExcept (successPolicyMet p.js successful)
    if completed then do
      let now ← readClock
      pure (some (setJobSetCompletedCondition now p))
    else pure none

/-- An expired deadline: success still wins, otherwise the JobSet fails. -/
def reconcileExpired (ownedJobs : ChildJobs) (p : Pass) : Prog (Pass × ℤ) := do
  let completed ← executeSuccessPolicy ownedJobs.successful p
  match completed with
  | some p => pure (p, 0)
  | none => do
    deleteJobs ownedJobs.active
    let now ← readClock
    pure (failOnActiveDeadline now p, 0)

/-- A failed Job: the failure policy decides and the reconcile ends. -/
def reconcileFailed (env : Env) (failed : List Job) (p : Pass) : Prog (Pass × ℤ) := do
  let now ← readClock
  let p' ← liftExcept (executeFailurePolicy env.platform env.gates now failed p)
  let now ← readClock
  pure (resetStartTimeOnGlobalRestart env.gates now p.js.status.restarts p', 0)

/-- Failure before success, for a deadline that is not armed or not expired. -/
def reconcilePolicies (env : Env) (ownedJobs : ChildJobs) (statuses : List ReplicatedJobStatus)
    (requeueAfter : ℤ) (p : Pass) : Prog (Pass × ℤ) :=
  if ownedJobs.failed ≠ [] then reconcileFailed env ownedJobs.failed p
  else do
    let completed ← executeSuccessPolicy ownedJobs.successful p
    match completed with
    | some p => pure (p, 0)
    | none => reconcileRunning env ownedJobs statuses requeueAfter p

/-- The restarting condition is cleared once all Jobs are ready again. -/
def clearRestarting (statuses : List ReplicatedJobStatus) (now : Time) (p : Pass) : Pass :=
  if !jobSetSuspended p.js ∧ allJobsReady p.js statuses then
    setRestartingConditionFalse now "JobsReady" "all jobs are ready" p
  else p

/-- The part of `reconcile` for a JobSet that has not finished. -/
def reconcileUnfinished (env : Env) (ownedJobs : ChildJobs) (statuses : List ReplicatedJobStatus)
    (p : Pass) : Prog (Pass × ℤ) := do
  deleteJobs ownedJobs.previous
  let now ← readClock
  let p := clearRestarting statuses now p
  let now ← readClock
  let p := syncActiveDeadlineStartTime env.gates now p
  let now ← readClock
  match activeDeadlineRemaining env.gates now p.js with
  | some remaining =>
    if remaining ≤ 0 then reconcileExpired ownedJobs p
    else reconcilePolicies env ownedJobs statuses remaining p
  | none => reconcilePolicies env ownedJobs statuses 0 p

/-- `reconcile`: the JobSet as it is in memory at the end, and the requeue time. -/
def reconcile (env : Env) (js : JobSet) (childJobList : List Job) : Prog (Pass × ℤ) :=
  if (managedByExternalController js).isSome then
    -- another controller owns the Jobs and the status; only the TTL is honoured
    if jobSetFinished js then do
      let requeueAfter ← requeueFinished js
      pure (.start js, requeueAfter)
    else .done (.start js, 0)
  else do
    let ownedJobs ← liftExcept (getChildJobs env.gates js childJobList)
    let statuses := calculateReplicatedJobStatuses env.gates js ownedJobs
    let p := updateReplicatedJobsStatuses statuses (.start js)
    if jobSetFinished p.js then reconcileFinished env ownedJobs p
    else reconcileUnfinished env ownedJobs statuses p

def countMetrics : List Metric → Prog Unit
  | [] => .done ()
  | metric :: rest => do
    let _ : Unit ← send (.countMetric metric)
    countMetrics rest

def emitEvents : List EventParams → Prog Unit
  | [] => .done ()
  | event :: rest => do
    recordEvent event
    emitEvents rest

/-- `updateJobSetStatus`; the metrics were counted when the conditions were set. -/
def updateJobSetStatus (p : Pass) : Prog Unit := do
  countMetrics p.metrics
  if p.opts.shouldUpdate then do
    let outcome : Outcome ← send (.updateStatus p.js)
    liftExcept outcome
    emitEvents p.opts.events
  else pure ()

/-- `Reconcile`, with the requeue time it returns. A JobSet being deleted is left alone. -/
def reconcileRequest (env : Env) (js : JobSet) (childJobList : List Job) : Prog ℤ :=
  if jobSetMarkedForDeletion js then .done 0
  else do
    let (p, requeueAfter) ← reconcile env js childJobList
    updateJobSetStatus p
    pure requeueAfter

end JobSetOperator
