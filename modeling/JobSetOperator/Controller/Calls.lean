import JobSetOperator.Controller.Construct
import JobSetOperator.Controller.Policies
import JobSetOperator.Library.Programs

/-!
# The calls of a reconcile

The API calls and clock readings of the JobSet controller, and the parts of a
reconcile that create or delete objects without looking at the startup order:
Jobs to delete, the TTL, the headless service, claims and scheduling objects.
Jobs that the source creates or deletes in parallel are handled one after the
other.

The reconciliation of the scheduling objects (Workload and PodGroups) touches
nothing else of the JobSet, so each of its three entry points is one request.
-/
namespace JobSetOperator

open Library

/-! ## Calls -/

/-- The result of a write: success or an error text. -/
abbrev Outcome := Except String Unit

structure ServicePort where
  name : String
  port : ℤ
  protocol : String
  deriving DecidableEq, Repr

structure Service where
  name : String
  selector : String
  publishNotReadyAddresses : Bool
  ports : List ServicePort
  deriving DecidableEq, Repr

/-- What a read of the headless service returns. -/
inductive ServiceLookup
  | found (controlled : Bool) (ports : List ServicePort)
  | notFound
  | failed (err : String)

/-- The outcome of creating a claim. -/
inductive ClaimCreation
  | created
  | alreadyExists
  | failed (err : String)

/-- A claim to create; `owned` says whether the JobSet becomes its owner. -/
structure ClaimRequest where
  name : String
  labels : StrMap
  annotations : StrMap
  spec : String
  owned : Bool

/-- The calls of one reconcile. Deleting a Job names it only. A status update
carries the whole JobSet, and an update of a Job the whole Job; both are checked
against the version they were read at. -/
inductive Request
  | now
  | listPods
  | getService (name : String)
  | createService (service : Service)
  | updateServicePorts (ports : List ServicePort)
  | createClaim (claim : ClaimRequest)
  | deleteSchedulingObjects
  | reconcileSchedulingObjects
  | schedulingObjectsReady
  | createJob (job : Job)
  | deleteJob (name : String)
  | patchScaling (job : Job)
  | updateJobStatus (job : Job)
  | updateJob (job : Job)
  | updateStatus (js : JobSet)
  | deleteJobSet (js : JobSet)
  | emitEvent (event : EventParams)
  | countMetric (metric : Metric)

/-- The answers. A patch returns the object as the server then has it. A status
update of a Job is checked against the version, so the object it returns is the
one that was sent, with its new version. -/
def Request.Response : Request → Type
  | .now => Time
  | .listPods => Except String (List Pod)
  | .getService _ => ServiceLookup
  | .createService _ => Outcome
  | .updateServicePorts _ => Outcome
  | .createClaim _ => ClaimCreation
  | .deleteSchedulingObjects => Outcome
  | .reconcileSchedulingObjects => Outcome
  | .schedulingObjectsReady => Except String Bool
  | .createJob _ => Outcome
  | .deleteJob _ => Outcome
  | .patchScaling _ => Except String Job
  | .updateJobStatus _ => Except String ℕ
  | .updateJob _ => Outcome
  | .updateStatus _ => Outcome
  | .deleteJobSet _ => Outcome
  | .emitEvent _ => Unit
  | .countMetric _ => Unit

/-- A part of a reconcile. -/
abbrev Prog (α : Type) := Program Request Request.Response String α

/-- The controller's configuration. -/
structure Env where
  platform : Platform
  gates : FeatureGates

/-- The controller with the given gates. -/
def plainEnv (gates : FeatureGates) : Env := ⟨⟨id, fun _ _ => none⟩, gates⟩

/-- Make one call. -/
def send (r : Request) : Prog r.Response := Program.ask r

def readClock : Prog Time := send .now

/-- Continue with a computed value, or end the reconcile with the error. -/
def liftExcept {α : Type} : Except String α → Prog α
  | .ok a => .done a
  | .error e => .fail e

/-- `errors.Join`, as the end of a loop that collects errors. -/
def joinErrors (errs : List String) : Prog Unit :=
  if errs = [] then .done () else .fail ("\n".intercalate errs)

def consError (outcome : Outcome) (errs : List String) : List String :=
  match outcome with
  | .ok _ => errs
  | .error e => e :: errs

/-- `Record.Eventf`, for an event about the JobSet. -/
def recordEvent (event : EventParams) : Prog Unit := send (.emitEvent event)

/-! ## Creating and deleting Jobs -/

def deleteJobsLoop : List Job → Prog (List String)
  | [] => .done []
  | job :: rest =>
    if job.deletionTimestamp.isSome then deleteJobsLoop rest
    else do
      let outcome : Outcome ← send (.deleteJob job.name)
      let errs ← deleteJobsLoop rest
      pure (consError outcome errs)

/-- `deleteJobs`: every Job that is not being deleted already, whatever the others answer. -/
def deleteJobs (jobs : List Job) : Prog Unit := do
  let errs ← deleteJobsLoop jobs
  joinErrors errs

def createJobsLoop : List Job → Prog (List String)
  | [] => .done []
  | job :: rest => do
    let outcome : Outcome ← send (.createJob job)
    let errs ← createJobsLoop rest
    let wrapped := outcome.mapError fun e =>
      "job \"" ++ job.name ++ "\" creation failed with error: " ++ e
    pure (consError wrapped errs)

/-- `createJobs`, with the event its caller emits on errors. -/
def createJobs (jobs : List Job) : Prog Unit := do
  let errs ← createJobsLoop jobs
  if errs = [] then pure ()
  else do
    recordEvent ⟨eventTypeWarning, "JobCreationFailed", "\n".intercalate errs⟩
    joinErrors errs

/-! ## Finished JobSets -/

/-- `executeTTLAfterFinishedPolicy`; the remaining time is computed from a second reading. -/
def executeTTLAfterFinishedPolicy (js : JobSet) : Prog ℤ :=
  match js.spec.ttlSecondsAfterFinished with
  | none => .done 0
  | some ttlSeconds => do
    let now ← readClock
    let expired ← liftExcept ((checkIfTTLExpired js ttlSeconds now).mapError fun err =>
      "error checking if ttl expired: " ++ err)
    if expired then do
      let outcome : Outcome ← send (.deleteJobSet js)
      liftExcept (outcome.map fun _ => 0)
    else do
      let now ← readClock
      liftExcept (ttlRemaining js ttlSeconds now)

/-- The requeue time of a finished JobSet. -/
def requeueFinished (js : JobSet) : Prog ℤ := do
  let requeueAfter ← executeTTLAfterFinishedPolicy js
  pure (if requeueAfter > 0 then requeueAfter else 0)

/-- The scheduling API is enabled and configured. -/
def schedulingConfigured (env : Env) (js : JobSet) : Bool :=
  env.gates.jobSetWorkloadAwareSchedulingAPI && js.spec.scheduling.isSome

/-- The clean-up of a JobSet that has completed or failed. -/
def reconcileFinished (env : Env) (ownedJobs : ChildJobs) (p : Pass) : Prog (Pass × ℤ) := do
  deleteJobs ownedJobs.active
  if schedulingConfigured env p.js then do
    let outcome : Outcome ← send .deleteSchedulingObjects
    liftExcept outcome
    let requeueAfter ← requeueFinished p.js
    pure (p, requeueAfter)
  else do
    let requeueAfter ← requeueFinished p.js
    pure (p, requeueAfter)

/-! ## Services, claims and scheduling objects -/

/-- The ports of one container, skipping zero ports; TCP is the default protocol. -/
def containerServicePorts (c : Container) : List ServicePort :=
  (c.ports.filter fun p => p.containerPort ≠ 0).map fun p =>
    let proto := if p.protocol = "" then "TCP" else p.protocol
    ⟨proto.toLower ++ "-" ++ itoa p.containerPort, p.containerPort, proto⟩

/-- `headlessSvcPorts`: the first of several ports with one number and protocol is kept. -/
def headlessSvcPorts (js : JobSet) : List ServicePort :=
  let ports := js.spec.replicatedJobs.flatMap fun rjob =>
    rjob.template.spec.template.containers.flatMap containerServicePorts
  (ports.reverse.dedup).reverse

/-- `createHeadlessSvcIfNecessary`. -/
def createHeadlessSvcIfNecessary (js : JobSet) : Prog Unit :=
  if !dnsHostnamesEnabled js then .done ()
  else do
    let lookup : ServiceLookup ← send (.getService (getSubdomain js))
    match lookup with
    | .failed err => .fail err
    | .notFound => do
      let publish := (js.spec.network.bind (·.publishNotReadyAddresses)).getD true
      let service : Service := ⟨getSubdomain js, js.name, publish, headlessSvcPorts js⟩
      let outcome : Outcome ← send (.createService service)
      match outcome with
      | .ok _ => pure ()
      | .error err => do
        recordEvent ⟨eventTypeWarning, "HeadlessServiceCreationFailed", err⟩
        .fail err
    | .found controlled ports =>
      if controlled ∧ ports ≠ headlessSvcPorts js then do
        let outcome : Outcome ← send (.updateServicePorts (headlessSvcPorts js))
        liftExcept outcome
      else pure ()

/-- The claim created for a template. -/
def claimRequest (js : JobSet) (policy : VolumeClaimPolicy) (template : PersistentVolumeClaim) :
    ClaimRequest where
  name := generatePVCName js.name template.name
  labels := template.labels.insert jobSetNameKey js.name
  annotations := template.annotations
  spec := template.spec
  owned :=
    match policy.retentionPolicy with
    | some retention => retention.whenDeleted.getD .retentionPolicyDelete = .retentionPolicyDelete
    | none => false

/-- `createPVCsIfNecessary`: it stops at the first error, which it returns. -/
def createPVCsIfNecessary (js : JobSet) (policy : VolumeClaimPolicy) :
    List PersistentVolumeClaim → Prog Outcome
  | [] => .done (.ok ())
  | template :: rest => do
    let result : ClaimCreation ← send (.createClaim (claimRequest js policy template))
    match result with
    | .failed err => do
      recordEvent ⟨eventTypeWarning, "PVCCreationFailed", err⟩
      pure (.error err)
    | _ => createPVCsIfNecessary js policy rest

def reconcileClaimsLoop (js : JobSet) : List VolumeClaimPolicy → Prog (List String)
  | [] => .done []
  | policy :: rest => do
    let outcome ← createPVCsIfNecessary js policy policy.templates
    let errs ← reconcileClaimsLoop js rest
    pure (consError outcome errs)

/-- `reconcileVolumeClaimPolicies`. -/
def reconcileVolumeClaimPolicies (js : JobSet) : Prog Unit := do
  let errs ← reconcileClaimsLoop js js.spec.volumeClaimPolicies
  joinErrors errs

/-- Report a failure of the scheduling objects on the JobSet and end the reconcile. -/
def schedulingFailed {α : Type} (err : String) : Prog α := do
  recordEvent ⟨eventTypeWarning, "SchedulingObjectsReconcileFailed", err⟩
  .fail err

def schedulingOutcome {α : Type} : Except String α → Prog α
  | .ok a => .done a
  | .error err => schedulingFailed err

/-- The scheduling part of `reconcile`: whether the reconcile goes on to the Jobs. -/
def reconcileScheduling (env : Env) (js : JobSet) : Prog Bool :=
  if !schedulingConfigured env js then .done true
  else if jobSetSuspended js then do
    let outcome : Outcome ← send .deleteSchedulingObjects
    schedulingOutcome outcome
    pure true
  else do
    let outcome : Outcome ← send .reconcileSchedulingObjects
    schedulingOutcome outcome
    let ready : Except String Bool ← send .schedulingObjectsReady
    schedulingOutcome ready

/-- Service, claims and scheduling objects, in this order. -/
def reconcileResources (env : Env) (js : JobSet) : Prog Bool := do
  createHeadlessSvcIfNecessary js
  if js.spec.volumeClaimPolicies ≠ [] then do
    reconcileVolumeClaimPolicies js
    reconcileScheduling env js
  else reconcileScheduling env js

/-! ## Usual answers -/

/-- The usual answer to a call that writes neither Jobs nor the JobSet, at the given
time. -/
def quietAnswer (clock : Time) : (r : Request) → Option r.Response
  | .now => some clock
  | .listPods => some (Except.ok [])
  | .getService _ => some ServiceLookup.notFound
  | .createService _ => some (Except.ok ())
  | .updateServicePorts _ => some (Except.ok ())
  | .createClaim _ => some ClaimCreation.created
  | .deleteSchedulingObjects => some (Except.ok ())
  | .reconcileSchedulingObjects => some (Except.ok ())
  | .schedulingObjectsReady => some (Except.ok true)
  | .emitEvent _ => some ()
  | .countMetric _ => some ()
  | _ => none

/-- The program at its next other call, if it comes soon enough. -/
def skip {α : Type} (clock : Time) : ℕ → Prog α → Prog α
  | 0, p => p
  | _ + 1, .done a => .done a
  | _ + 1, .fail e => .fail e
  | n + 1, .call r k =>
    match quietAnswer clock r with
    | some x => skip clock n (k x)
    | none => .call r k

/-- The Job the program creates next, after calls with the usual answers. -/
def nextCreated {α : Type} (p : Prog α) : Option Job :=
  match skip 0 100 p with
  | .call (.createJob job) _ => some job
  | _ => none

theorem issues_of_skip {α : Type} {clock : Time} {n : ℕ} {p : Prog α} {r : Request}
    {k : r.Response → Prog α} (h : skip clock n p = .call r k) : Program.Issues r p := by
  induction n generalizing p with
  | zero =>
    rw [skip] at h
    rw [h]
    exact Or.inl rfl
  | succ n ih =>
    cases p with
    | done a => cases h
    | fail e => cases h
    | call r' k' =>
      rw [skip] at h
      cases hq : quietAnswer clock r' with
      | some x =>
        rw [hq] at h
        exact Or.inr ⟨x, ih h⟩
      | none =>
        rw [hq] at h
        cases h
        exact Or.inl rfl

theorem issues_of_nextCreated {α : Type} {p : Prog α} {job : Job} (h : nextCreated p = some job) :
    Program.Issues (.createJob job) p := by
  unfold nextCreated at h
  split at h
  · rename_i hskip
    cases h
    exact issues_of_skip hskip
  · cases h

end JobSetOperator
