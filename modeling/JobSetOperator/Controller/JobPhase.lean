import JobSetOperator.Controller.Calls

/-!
# Scaling, creating, suspending and resuming Jobs

The part of `reconcile` that runs when the JobSet has neither failed nor
succeeded. Both loops over the ReplicatedJobs, the creation in
`reconcileReplicatedJobs` and the resumption in `resumeJobsIfNecessary`, fill
their map of replicas as they go and decide from the counts of the snapshot.
-/
namespace JobSetOperator

open Library

/-! ## Scaling -/

/-- `jobScalingNeedsPatch`. -/
def jobScalingNeedsPatch (job : Job) (parallelism completions : Option ℤ) : Bool :=
  parallelism = completions ∧
    (job.spec.parallelism ≠ parallelism ∨ job.spec.completions ≠ completions)

/-- The desired scaling of a Job; the last ReplicatedJob with the name decides. -/
def desiredScaling (js : JobSet) (job : Job) : Option (Option ℤ × Option ℤ) :=
  (job.labels.lookup replicatedJobNameKey).bind fun name =>
    (js.spec.replicatedJobs.reverse.find? fun rjob => rjob.name = name).map fun rjob =>
      (rjob.template.spec.parallelism, rjob.template.spec.completions)

/-- The loop of `syncJobScaling`: the active Jobs as they are in memory
afterwards, and the errors. The answer to a patch replaces the copy in memory. -/
def syncJobScalingLoop (js : JobSet) : List Job → Prog (List Job × List String)
  | [] => .done ([], [])
  | job :: rest =>
    match desiredScaling js job with
    | some (parallelism, completions) =>
      if jobScalingNeedsPatch job parallelism completions then do
        let scaled : Job := { job with
          spec := { job.spec with parallelism := parallelism, completions := completions } }
        let answer : Except String Job ← send (.patchScaling scaled)
        let (jobs, errs) ← syncJobScalingLoop js rest
        match answer with
        | .ok stored => pure (stored :: jobs, errs)
        | .error e => pure (scaled :: jobs,
            ("failed to patch job \"" ++ job.name ++ "\" for scaling: " ++ e) :: errs)
      else do
        let (jobs, errs) ← syncJobScalingLoop js rest
        pure (job :: jobs, errs)
    | none => do
      let (jobs, errs) ← syncJobScalingLoop js rest
      pure (job :: jobs, errs)

/-- `syncJobScaling`. -/
def syncJobScaling (env : Env) (js : JobSet) (active : List Job) : Prog (List Job) :=
  if !env.gates.elasticJobSet then .done active
  else do
    let (jobs, errs) ← syncJobScalingLoop js active
    joinErrors errs
    pure jobs

/-! ## Execution attempts -/

/-- The attempt recorded on a Job; `none` when the text is no integer. -/
def executionAttempt (job : Job) : Option ℤ :=
  (job.annotations.lookup executionAttemptsKey).bind parseInt

/-- The Job records an attempt below the counter. -/
def recordsLess (attempts : ℕ) (job : Job) : Bool :=
  match executionAttempt job with
  | some attempt => (attempts : ℤ) > attempt
  | none => false

/-- The loop over the active Jobs in `syncExecutionAttempts`: whether none of
them shows that the attempt has already been counted. -/
def activeAllowIncrement (attempts : ℕ) (active : List Job) : Bool :=
  active.all fun job =>
    jobSuspended job && (job.annotations.lookup executionAttemptsKey).isSome &&
      !recordsLess attempts job

/-- The loop over the finished Jobs, used when no Job is active. -/
def finishedAllowIncrement (attempts : ℕ) (finished : List Job) : Bool :=
  finished.all fun job => !recordsLess attempts job

/-- `shouldIncrement` of `syncExecutionAttempts`. -/
def shouldIncrement (attempts : ℕ) (active successful failed : List Job) : Bool :=
  if active ≠ [] then activeAllowIncrement attempts active
  else if successful ≠ [] ∨ failed ≠ [] then finishedAllowIncrement attempts (successful ++ failed)
  else false

/-- The attempts a reconcile moves to, if it changes them, and whether the new
value is written at once. -/
def nextExecutionAttempts (env : Env) (js : JobSet) (active successful failed : List Job) :
    Option (ℕ × Bool) :=
  if !env.gates.executionAttemptsTracking ∨ jobSetSuspended js then none
  else if !isStatusConditionTrue js.status.conditions .jobSetSuspended then
    match js.status.executionAttempts with
    | none => some (js.status.restarts, false)
    | some _ => none
  else
    match js.status.executionAttempts with
    | none => some (if js.status.restarts > 0 then js.status.restarts + 1 else js.status.restarts, true)
    | some attempts =>
      if shouldIncrement attempts active successful failed then some (attempts + 1, true) else none

/-- The assignment to `js.Status.ExecutionAttempts`. -/
def setExecutionAttempts (attempts : ℕ) (p : Pass) : Pass :=
  { p with
    js := { p.js with status := { p.js.status with executionAttempts := some attempts } } }

/-- `syncExecutionAttempts`. A resume is written in the middle of the reconcile. -/
def syncExecutionAttempts (env : Env) (active successful failed : List Job) (p : Pass) :
    Prog Pass :=
  match nextExecutionAttempts env p.js active successful failed with
  | none => .done p
  | some (attempts, false) =>
    let p := setExecutionAttempts attempts p
    .done { p with opts := { p.opts with shouldUpdate := true } }
  | some (attempts, true) => do
    let p := setExecutionAttempts attempts p
    let outcome : Outcome ← send (.updateStatus p.js)
    liftExcept outcome
    pure p

/-! ## Creating Jobs -/

/-- The map of replicas after one more ReplicatedJob. -/
def addReplicas (rJobsReplicas : String → ℕ) (rjob : ReplicatedJob) : String → ℕ :=
  Function.update rJobsReplicas rjob.name rjob.replicas

/-- The ReplicatedJob has started. A missing status is dereferenced in Go. -/
def replicasStarted (statuses : List ReplicatedJobStatus) (rjob : ReplicatedJob) :
    Except String Bool :=
  match findReplicatedJobStatus statuses rjob.name with
  | some status => .ok (allReplicasStarted rjob.replicas status)
  | none => .error "nil pointer dereference"

/-- The startup order applies to the loop of `reconcileReplicatedJobs`. -/
def waitsInOrder (js : JobSet) : Bool :=
  !jobSetSuspended js && inOrderStartupPolicy js.spec.startupPolicy

/-- The loop of `reconcileReplicatedJobs`. -/
def reconcileReplicatedJobsLoop (env : Env) (ownedJobs : ChildJobs)
    (statuses : List ReplicatedJobStatus) (p : Pass) :
    List ReplicatedJob → (String → ℕ) → Prog Pass
  | [], _ =>
    if waitsInOrder p.js then do
      let now ← readClock
      pure (setInOrderStartupPolicyCompletedCondition now p)
    else .done p
  | rjob :: rest, rJobsReplicas => do
    let jobs ← liftExcept (constructJobsFromTemplate env.platform env.gates p.js rjob ownedJobs)
    let rJobsReplicas := addReplicas rJobsReplicas rjob
    if !dependencyReachedStatus rjob rJobsReplicas statuses then
      reconcileReplicatedJobsLoop env ownedJobs statuses p rest rJobsReplicas
    else if waitsInOrder p.js then do
      let started ← liftExcept (replicasStarted statuses rjob)
      if started then reconcileReplicatedJobsLoop env ownedJobs statuses p rest rJobsReplicas
      else do
        createJobs jobs
        let now ← readClock
        pure (setInOrderStartupPolicyInProgressCondition now p)
    else do
      createJobs jobs
      reconcileReplicatedJobsLoop env ownedJobs statuses p rest rJobsReplicas

/-- `reconcileReplicatedJobs`. -/
def reconcileReplicatedJobs (env : Env) (ownedJobs : ChildJobs)
    (statuses : List ReplicatedJobStatus) (p : Pass) : Prog Pass :=
  reconcileReplicatedJobsLoop env ownedJobs statuses p p.js.spec.replicatedJobs fun _ => 0

/-! ## Suspending and resuming -/

/-- The loop of `suspendJobs`; it stops at the first error. -/
def suspendJobsLoop : List Job → Prog Unit
  | [] => .done ()
  | job :: rest =>
    if jobSuspended job then suspendJobsLoop rest
    else do
      let outcome : Outcome ←
        send (.updateJob { job with spec := { job.spec with suspend := some true } })
      liftExcept outcome
      suspendJobsLoop rest

/-- `suspendJobs`. -/
def suspendJobs (active : List Job) (p : Pass) : Prog Pass := do
  suspendJobsLoop active
  let now ← readClock
  pure (setJobSetSuspendedCondition now p)

/-- `collections.MergeSlices`: the union; the order of the result is not specified. -/
def mergeSlices {α : Type} [DecidableEq α] (s1 s2 : List α) : List α := (s1 ++ s2).dedup

/-- A toleration in memory: its seconds stand behind a pointer, and two pointers are equal
when their addresses are. -/
structure LoadedToleration where
  key : String
  operator : String
  value : String
  effect : String
  tolerationSeconds : Option (ℕ × ℤ)
  deriving DecidableEq

def Toleration.load (t : Toleration) (address : ℕ) : LoadedToleration :=
  ⟨t.key, t.operator, t.value, t.effect, t.tolerationSeconds.map fun seconds => (address, seconds)⟩

def LoadedToleration.stored (t : LoadedToleration) : Toleration :=
  ⟨t.key, t.operator, t.value, t.effect, t.tolerationSeconds.map (·.2)⟩

/-- The tolerations of an object that was read: each has a pointer of its own. -/
def loadTolerations (start : ℕ) (ts : List Toleration) : List LoadedToleration :=
  (ts.zipIdx start).map fun entry => entry.1.load entry.2

/-- `MergeSlices` of the tolerations of a Job and of a template, which were read separately. -/
def mergeTolerations (job template : List Toleration) : List Toleration :=
  (mergeSlices (loadTolerations 0 job) (loadTolerations job.length template)).map (·.stored)

/-- The pod template of a ReplicatedJob; the last one with the name decides, and
a missing one is the zero value. -/
def replicatedJobTemplate (js : JobSet) (name : String) : PodTemplateSpec :=
  match js.spec.replicatedJobs.reverse.find? fun rjob => rjob.name = name with
  | some rjob => rjob.template.spec.template
  | none => .zero

/-- What `resumeJob` merges into the pod template of the Job. -/
def mergeTemplate (template source : PodTemplateSpec) : PodTemplateSpec :=
  { template with
    labels := mergeMaps template.labels source.labels
    annotations := mergeMaps template.annotations source.annotations
    nodeSelector := mergeMaps template.nodeSelector source.nodeSelector
    tolerations := mergeTolerations template.tolerations source.tolerations
    schedulingGates := mergeSlices template.schedulingGates source.schedulingGates }

/-- The execution attempt `resumeJob` stamps on the Job and its pod template. -/
def stampAttempt (gates : FeatureGates) (js : JobSet) (job : Job) : Job :=
  if !gates.executionAttemptsTracking then job
  else
    let attempts := itoa (js.status.executionAttempts.getD 0 : ℕ)
    { job with
      annotations := job.annotations.insert executionAttemptsKey attempts
      spec := { job.spec with
        template := { job.spec.template with
          annotations := job.spec.template.annotations.insert executionAttemptsKey attempts } } }

/-- The Job `resumeJob` writes. A Job without the label is unsuspended as it is. -/
def resumedJob (gates : FeatureGates) (js : JobSet) (job : Job) : Job :=
  let name := job.labels.get replicatedJobNameKey
  let merged :=
    if name ≠ "" then
      stampAttempt gates js { job with
        spec := { job.spec with
          template := mergeTemplate job.spec.template (replicatedJobTemplate js name) } }
    else job
  { merged with spec := { merged.spec with suspend := some false } }

/-- The Job without its start time. -/
def Job.cleared (job : Job) : Job := { job with status := { job.status with startTime := none } }

/-- `resumeJob`. A Job that has started gets its start time cleared first. -/
def resumeJob (env : Env) (js : JobSet) (job : Job) : Prog Unit :=
  if job.status.startTime.isSome then do
    let answer : Except String ℕ ← send (.updateJobStatus job.cleared)
    let resourceVersion ← liftExcept answer
    let outcome : Outcome ← send (.updateJob
      (resumedJob env.gates js { job.cleared with resourceVersion := resourceVersion }))
    liftExcept outcome
  else do
    let outcome : Outcome ← send (.updateJob (resumedJob env.gates js job))
    liftExcept outcome

/-- The suspended Jobs of one ReplicatedJob are resumed; it stops at the first error. -/
def resumeJobsOf (env : Env) (js : JobSet) : List Job → Prog Unit
  | [] => .done ()
  | job :: rest =>
    if !jobSuspended job then resumeJobsOf env js rest
    else do
      resumeJob env js job
      resumeJobsOf env js rest

/-- The active Jobs of a ReplicatedJob. -/
def activeJobsOf (active : List Job) (rjob : ReplicatedJob) : List Job :=
  active.filter fun job => job.labels.get replicatedJobNameKey = rjob.name

/-- The loop of `resumeJobsIfNecessary`. -/
def resumeJobsLoop (env : Env) (active : List Job) (statuses : List ReplicatedJobStatus)
    (p : Pass) : List ReplicatedJob → (String → ℕ) → Prog Pass
  | [], _ => do
    let now ← readClock
    pure (setJobSetResumedCondition now p)
  | rjob :: rest, rJobsReplicas => do
    let rJobsReplicas := addReplicas rJobsReplicas rjob
    if !dependencyReachedStatus rjob rJobsReplicas statuses then
      resumeJobsLoop env active statuses p rest rJobsReplicas
    else if inOrderStartupPolicy p.js.spec.startupPolicy then do
      let started ← liftExcept (replicasStarted statuses rjob)
      if started then resumeJobsLoop env active statuses p rest rJobsReplicas
      else do
        resumeJobsOf env p.js (activeJobsOf active rjob)
        let now ← readClock
        pure (setInOrderStartupPolicyInProgressCondition now p)
    else do
      resumeJobsOf env p.js (activeJobsOf active rjob)
      resumeJobsLoop env active statuses p rest rJobsReplicas

/-- `resumeJobsIfNecessary`. -/
def resumeJobsIfNecessary (env : Env) (active : List Job) (statuses : List ReplicatedJobStatus)
    (p : Pass) : Prog Pass :=
  resumeJobsLoop env active statuses p p.js.spec.replicatedJobs fun _ => 0

end JobSetOperator
