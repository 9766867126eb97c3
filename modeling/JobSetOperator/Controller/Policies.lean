import JobSetOperator.Controller.ChildJobs

/-!
# Success, startup and lifetime policies

The pure parts of the success policy, the startup order, DependsOn, the active
deadline and the TTL of finished JobSets. Each decides from the JobSet and the
counts of its child Jobs; instants are nanoseconds and clock readings are
arguments.
-/
namespace JobSetOperator

/-! ## Success policy -/

/-- `jobMatchesSuccessPolicy` and `replicatedJobMatchesSuccessPolicy`, on a ReplicatedJob's name. -/
def matchesSuccessPolicy (policy : SuccessPolicy) (replicatedJobName : String) : Bool :=
  policy.targetReplicatedJobs = [] ∨ replicatedJobName ∈ policy.targetReplicatedJobs

/-- `numJobsMatchingSuccessPolicy`. -/
def numJobsMatchingSuccessPolicy (policy : SuccessPolicy) (jobs : List Job) : ℕ :=
  (jobs.filter fun job =>
    matchesSuccessPolicy policy (job.labels.get replicatedJobNameKey)).length

/-- `numJobsExpectedToSucceed`. -/
def numJobsExpectedToSucceed (policy : SuccessPolicy) (js : JobSet) : ℕ :=
  match policy.operator with
  | .operatorAny => 1
  | .operatorAll =>
    ((js.spec.replicatedJobs.filter fun rjob => matchesSuccessPolicy policy rjob.name).map
      (·.replicas)).sum

/-- `executeSuccessPolicy`: whether the JobSet is completed. The policy is
dereferenced without a check. -/
def successPolicyMet (js : JobSet) (successful : List Job) : Except String Bool :=
  match js.spec.successPolicy with
  | none => .error "nil pointer dereference"
  | some policy =>
    .ok (numJobsMatchingSuccessPolicy policy successful ≥ numJobsExpectedToSucceed policy js)

/-! ## Startup order -/

/-- `inOrderStartupPolicy`. -/
def inOrderStartupPolicy (sp : Option StartupPolicy) : Bool :=
  match sp with
  | some policy => policy.startupPolicyOrder = .inOrder
  | none => false

/-- `allReplicasStarted`. -/
def allReplicasStarted (replicas : ℕ) (status : ReplicatedJobStatus) : Bool :=
  replicas = status.failed + status.ready + status.succeeded

/-- The check of one dependency in `dependencyReachedStatus`. -/
def dependencyReached (rJobReplicas : String → ℕ) (statuses : List ReplicatedJobStatus)
    (dependsOn : DependsOn) : Bool :=
  match findReplicatedJobStatus statuses dependsOn.name with
  | none => false
  | some actual =>
    match dependsOn.status with
    | .dependencyComplete => rJobReplicas dependsOn.name = actual.succeeded
    | .dependencyReady =>
      rJobReplicas dependsOn.name = actual.failed + actual.ready + actual.succeeded

/-- `dependencyReachedStatus`. A name missing in the map of replicas counts as zero. -/
def dependencyReachedStatus (rJob : ReplicatedJob) (rJobReplicas : String → ℕ)
    (statuses : List ReplicatedJobStatus) : Bool :=
  (rJob.dependsOn.getD []).all (dependencyReached rJobReplicas statuses)

/-- `allJobsReady`. -/
def allJobsReady (js : JobSet) (statuses : List ReplicatedJobStatus) : Bool :=
  (js.spec.replicatedJobs.map (·.replicas)).sum =
    (statuses.map fun status => status.ready + status.succeeded).sum

/-! ## Active deadline -/

def nanosecondsPerSecond : ℤ := 1000000000

def minDuration : ℤ := -(2 ^ 63)
def maxDuration : ℤ := 2 ^ 63 - 1

/-- `Time.Sub`: a duration has 64 bits, and a longer one saturates. -/
def timeSub (t u : Time) : ℤ := max minDuration (min maxDuration (t - u))

/-- Deadlines above this many seconds overflow a duration of 64 bits. -/
def maxDeadlineSeconds : ℤ := maxDuration / nanosecondsPerSecond

/-- The assignment to `js.Status.StartTime`, with the status update it asks for. -/
def setStartTime (startTime : Option Time) (p : Pass) : Pass :=
  { p with
    js := { p.js with status := { p.js.status with startTime := startTime } }
    opts := { p.opts with shouldUpdate := true } }

/-- `syncActiveDeadlineStartTime`. -/
def syncActiveDeadlineStartTime (gates : FeatureGates) (now : Time) (p : Pass) : Pass :=
  if !gates.jobSetActiveDeadlineSeconds ∨ jobSetSuspended p.js then
    if p.js.status.startTime ≠ none then setStartTime none p else p
  else if p.js.status.startTime = none then setStartTime (some now) p
  else p

/-- `resetStartTimeOnGlobalRestart`. -/
def resetStartTimeOnGlobalRestart (gates : FeatureGates) (now : Time) (restartsBefore : ℕ)
    (p : Pass) : Pass :=
  if !gates.jobSetActiveDeadlineSeconds then p
  else if p.js.status.restarts > restartsBefore ∧ p.js.status.startTime ≠ none then
    setStartTime (some now) p
  else p

/-- `activeDeadlineRemaining`: the time left, when a deadline is armed. -/
def activeDeadlineRemaining (gates : FeatureGates) (now : Time) (js : JobSet) : Option ℤ :=
  if !gates.jobSetActiveDeadlineSeconds then none
  else
    match js.spec.activeDeadlineSeconds, js.status.startTime with
    | some seconds, some startTime =>
      if jobSetSuspended js then none
      else if seconds > maxDeadlineSeconds then none
      else some (timeSub (startTime + seconds * nanosecondsPerSecond) now)
    | _, _ => none

/-- The failure `failJobSetOnActiveDeadline` records after it has deleted the active Jobs. -/
def failOnActiveDeadline (now : Time) (p : Pass) : Pass :=
  let p := setJobSetFailedCondition now "DeadlineExceeded"
    ("JobSet was active for longer than the specified deadline of " ++
      itoa (p.js.spec.activeDeadlineSeconds.getD 0) ++ " seconds") p
  { p with metrics := p.metrics ++ [.jobSetActiveDeadlineExceeded] }

/-! ## TTL after finished -/

/-- The zero value of `metav1.Time` stands for a missing time. -/
def zeroTime : Time := 0

/-- `jobSetFinishTime`. -/
def jobSetFinishTime (js : JobSet) : Except String Time :=
  match js.status.conditions.find? fun c =>
      (c.type = .jobSetCompleted ∨ c.type = .jobSetFailed) ∧ c.status = .conditionTrue with
  | some c =>
    if c.lastTransitionTime = zeroTime then
      .error ("unable to find the time when the JobSet " ++ js.inNamespace ++ "/" ++ js.name ++
        " finished")
    else .ok c.lastTransitionTime
  | none =>
    .error ("unable to find the status of the finished JobSet " ++ js.inNamespace ++ "/" ++ js.name)

/-- `timeLeft`, and `requeueJobSetAfter`: the time until the TTL expires. -/
def ttlRemaining (js : JobSet) (ttlSeconds : ℤ) (now : Time) : Except String ℤ := do
  let finishAt ← jobSetFinishTime js
  pure (timeSub (finishAt + ttlSeconds * nanosecondsPerSecond) now)

/-- `checkIfTTLExpired`, for a JobSet with a TTL. -/
def checkIfTTLExpired (js : JobSet) (ttlSeconds : ℤ) (now : Time) : Except String Bool :=
  if js.deletionTimestamp.isSome then .ok false
  else (ttlRemaining js ttlSeconds now).map fun remaining => decide (remaining ≤ 0)

end JobSetOperator
