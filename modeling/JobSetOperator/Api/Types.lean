import JobSetOperator.Api.Strings

/-!
# The JobSet and Job objects

The fields follow `api/jobset/v1alpha2` and the parts of `batch/v1` and
`core/v1` the operator reads or writes. A field named `rest` stands for the
remaining fields of an object, which are copied and compared but never looked
into. Restart counters are natural numbers: each counts events of one JobSet.
The attempts of the in-place restart protocol are 32-bit integers, since the
agent and the controller exchange them as decimal strings.
-/
namespace JobSetOperator

/-- Instants, in nanoseconds. -/
abbrev Time := ℤ

/-! ## Jobs -/

inductive ConditionStatus
  | conditionTrue
  | conditionFalse
  | conditionUnknown
  deriving DecidableEq, Repr

inductive JobConditionType
  | jobComplete
  | jobFailed
  | other (name : String)
  deriving DecidableEq, Repr

structure JobCondition where
  type : JobConditionType
  status : ConditionStatus
  reason : String
  message : String
  lastTransitionTime : Time
  deriving DecidableEq, Repr

inductive CompletionMode
  | indexedCompletion
  | nonIndexedCompletion
  deriving DecidableEq, Repr

inductive PodReplacementPolicy
  | terminatingOrFailed
  | failed
  deriving DecidableEq, Repr

structure Toleration where
  key : String
  operator : String
  value : String
  effect : String
  tolerationSeconds : Option ℤ
  deriving DecidableEq, Repr

structure ContainerPort where
  containerPort : ℤ
  protocol : String
  deriving DecidableEq, Repr

structure Container where
  name : String
  ports : List ContainerPort
  volumeMounts : List String
  rest : String
  deriving DecidableEq, Repr

/-- A volume and, when it is backed by a claim, the claim's name. -/
structure Volume where
  name : String
  claimName : Option String
  rest : String
  deriving DecidableEq, Repr

structure PodTemplateSpec where
  labels : StrMap
  annotations : StrMap
  nodeSelector : StrMap
  tolerations : List Toleration
  schedulingGates : List String
  restartPolicy : String
  priorityClassName : String
  subdomain : String
  schedulingGroup : Option (Option String)
  initContainers : List Container
  containers : List Container
  volumes : List Volume
  rest : String
  deriving DecidableEq

structure JobSpec where
  parallelism : Option ℤ
  completions : Option ℤ
  completionMode : Option CompletionMode
  backoffLimit : Option ℤ
  podReplacementPolicy : Option PodReplacementPolicy
  suspend : Option Bool
  scheduling : Option String
  template : PodTemplateSpec
  rest : String
  deriving DecidableEq

structure JobTemplateSpec where
  labels : StrMap
  annotations : StrMap
  spec : JobSpec
  deriving DecidableEq

structure JobStatus where
  conditions : List JobCondition
  active : ℤ
  ready : Option ℤ
  succeeded : ℤ
  startTime : Option Time
  deriving DecidableEq

/-- A child Job. `uid` tells incarnations of one name apart; `resourceVersion`
is what a full update is checked against. -/
structure Job where
  name : String
  uid : ℕ
  resourceVersion : ℕ
  labels : StrMap
  annotations : StrMap
  deletionTimestamp : Option Time
  spec : JobSpec
  status : JobStatus
  deriving DecidableEq

/-! ## The JobSet spec -/

inductive DependsOnStatus
  | dependencyReady
  | dependencyComplete
  deriving DecidableEq, Repr

structure DependsOn where
  name : String
  status : DependsOnStatus
  deriving DecidableEq, Repr

structure ReplicatedJob where
  name : String
  groupName : String
  template : JobTemplateSpec
  replicas : ℕ
  dependsOn : Option (List DependsOn)
  deriving DecidableEq

structure Network where
  enableDNSHostnames : Option Bool
  subdomain : String
  publishNotReadyAddresses : Option Bool
  deriving DecidableEq, Repr

inductive Operator
  | operatorAll
  | operatorAny
  deriving DecidableEq, Repr

structure SuccessPolicy where
  operator : Operator
  targetReplicatedJobs : List String
  deriving DecidableEq, Repr

inductive FailurePolicyAction
  | failJobSet
  | restartJobSet
  | restartJobSetAndIgnoreMaxRestarts
  | restartJob
  | restartJobAndIgnoreMaxRestarts
  deriving DecidableEq, Repr

structure FailurePolicyRule where
  name : String
  action : FailurePolicyAction
  onJobFailureReasons : List String
  onJobFailureMessagePatterns : List String
  targetReplicatedJobs : List String
  deriving DecidableEq, Repr

inductive JobSetRestartStrategy
  | recreate
  | blockingRecreate
  | inPlaceRestart
  deriving DecidableEq, Repr

structure FailurePolicy where
  maxRestarts : ℤ
  restartStrategy : JobSetRestartStrategy
  rules : List FailurePolicyRule
  deriving DecidableEq, Repr

inductive StartupPolicyOptions
  | anyOrder
  | inOrder
  deriving DecidableEq, Repr

structure StartupPolicy where
  startupPolicyOrder : StartupPolicyOptions
  deriving DecidableEq, Repr

structure Coordinator where
  replicatedJob : String
  jobIndex : ℤ
  podIndex : ℤ
  deriving DecidableEq, Repr

/-- The composite scheduling policy; `minGroupCount` is part of `gang`. -/
structure CompositeSchedulingPolicy where
  basic : Option Unit
  gang : Option (Option ℤ)
  deriving DecidableEq, Repr

/-- The policy of one Job's own group; `gang` carries its `minCount`. -/
structure PodGroupSchedulingPolicy where
  basic : Option Unit
  gang : Option (Option ℤ)
  deriving DecidableEq, Repr

structure JobScheduling where
  schedulingPolicy : Option PodGroupSchedulingPolicy
  schedulingConstraints : Option String
  disruptionMode : Option String
  resourceClaims : List String
  deriving DecidableEq, Repr

structure ReplicatedJobScheduling where
  targetReplicatedJobs : List String
  schedulingPolicy : Option CompositeSchedulingPolicy
  schedulingConstraints : Option String
  disruptionMode : Option String
  job : Option JobScheduling
  deriving DecidableEq, Repr

structure JobSetScheduling where
  schedulingPolicy : Option CompositeSchedulingPolicy
  schedulingConstraints : Option String
  disruptionMode : Option String
  replicatedJobs : List ReplicatedJobScheduling
  deriving DecidableEq, Repr

inductive RetentionPolicyType
  | retentionPolicyDelete
  | retentionPolicyRetain
  deriving DecidableEq, Repr

structure PersistentVolumeClaim where
  name : String
  labels : StrMap
  annotations : StrMap
  spec : String
  deriving DecidableEq

structure VolumeRetentionPolicy where
  whenDeleted : Option RetentionPolicyType
  deriving DecidableEq, Repr

structure VolumeClaimPolicy where
  templates : List PersistentVolumeClaim
  retentionPolicy : Option VolumeRetentionPolicy
  deriving DecidableEq

structure JobSetSpec where
  replicatedJobs : List ReplicatedJob
  network : Option Network
  successPolicy : Option SuccessPolicy
  failurePolicy : Option FailurePolicy
  startupPolicy : Option StartupPolicy
  suspend : Option Bool
  coordinator : Option Coordinator
  managedBy : Option String
  ttlSecondsAfterFinished : Option ℤ
  activeDeadlineSeconds : Option ℤ
  volumeClaimPolicies : List VolumeClaimPolicy
  scheduling : Option JobSetScheduling
  deriving DecidableEq

/-! ## The JobSet status -/

inductive JobSetConditionType
  | jobSetCompleted
  | jobSetFailed
  | jobSetSuspended
  | jobSetRestarting
  | jobSetStartupPolicyInProgress
  | jobSetStartupPolicyCompleted
  | other (name : String)
  deriving DecidableEq, Repr

structure Condition where
  type : JobSetConditionType
  status : ConditionStatus
  reason : String
  message : String
  lastTransitionTime : Time
  deriving DecidableEq, Repr

structure ReplicatedJobStatus where
  name : String
  ready : ℕ
  succeeded : ℕ
  failed : ℕ
  active : ℕ
  suspended : ℕ
  jobRestarts : List ℕ
  jobRestartsCountTowardsMax : List ℕ
  deriving DecidableEq, Repr

/-- `terminalState` is `none` for the empty string. -/
structure JobSetStatus where
  conditions : List Condition
  startTime : Option Time
  restarts : ℕ
  restartsCountTowardsMax : ℕ
  executionAttempts : Option ℕ
  terminalState : Option JobSetConditionType
  replicatedJobsStatus : List ReplicatedJobStatus
  previousInPlaceRestartAttempt : Option ℤ
  currentInPlaceRestartAttempt : Option ℤ
  deriving DecidableEq, Repr

structure JobSet where
  name : String
  generateName : String
  inNamespace : String
  uid : String
  annotations : StrMap
  deletionTimestamp : Option Time
  spec : JobSetSpec
  status : JobSetStatus
  deriving DecidableEq

/-- The status of a JobSet nobody has reconciled yet. -/
def JobSetStatus.new : JobSetStatus where
  conditions := []
  startTime := none
  restarts := 0
  restartsCountTowardsMax := 0
  executionAttempts := none
  terminalState := none
  replicatedJobsStatus := []
  previousInPlaceRestartAttempt := none
  currentInPlaceRestartAttempt := none

/-! ## Pods, gates and the label keys -/

inductive PodPhase
  | podPending
  | podRunning
  | podSucceeded
  | podFailed
  deriving DecidableEq, Repr

/-- The two status lists hold the restart counts of the containers. -/
structure Pod where
  name : String
  labels : StrMap
  annotations : StrMap
  phase : PodPhase
  initContainerStatuses : List ℤ
  containerStatuses : List ℤ
  deriving DecidableEq

structure FeatureGates where
  inPlaceRestart : Bool
  restartJob : Bool
  elasticJobSet : Bool
  executionAttemptsTracking : Bool
  jobSetActiveDeadlineSeconds : Bool
  jobSetWorkloadAwareSchedulingAPI : Bool
  deriving DecidableEq, Repr

/-- What the operator takes from its platform: the hexadecimal SHA-1 digest of a
string, and `regexp.MatchString`, which is `none` on an invalid pattern. -/
structure Platform where
  sha1Hash : String → String
  matchString : String → String → Option Bool

def jobSetNameKey := "jobset.sigs.k8s.io/jobset-name"
def jobSetUIDKey := "jobset.sigs.k8s.io/jobset-uid"
def replicatedJobReplicas := "jobset.sigs.k8s.io/replicatedjob-replicas"
def globalReplicasKey := "jobset.sigs.k8s.io/global-replicas"
def replicatedJobNameKey := "jobset.sigs.k8s.io/replicatedjob-name"
def jobIndexKey := "jobset.sigs.k8s.io/job-index"
def jobGlobalIndexKey := "jobset.sigs.k8s.io/job-global-index"
def jobKey := "jobset.sigs.k8s.io/job-key"
def exclusiveKey := "alpha.jobset.sigs.k8s.io/exclusive-topology"
def nodeSelectorStrategyKey := "alpha.jobset.sigs.k8s.io/node-selector"
def namespacedJobKey := "alpha.jobset.sigs.k8s.io/namespaced-job"
def noScheduleTaintKey := "alpha.jobset.sigs.k8s.io/no-schedule"
def jobSetControllerName := "jobset.sigs.k8s.io/jobset-controller"
def coordinatorKey := "jobset.sigs.k8s.io/coordinator"
def groupNameKey := "jobset.sigs.k8s.io/group-name"
def groupReplicasKey := "jobset.sigs.k8s.io/group-replicas"
def jobGroupIndexKey := "jobset.sigs.k8s.io/job-group-index"
def inPlaceRestartAttemptKey := "jobset.sigs.k8s.io/in-place-restart-attempt"
def disableInPlaceRestartKey := "jobset.sigs.k8s.io/disable-in-place-restart"
def restartsKey := "jobset.sigs.k8s.io/restart-attempt"
def jobRestartAttemptKey := "jobset.sigs.k8s.io/job-restart-attempt"
def executionAttemptsKey := "jobset.sigs.k8s.io/execution-attempt"
def schedulingGroupTemplateNameKey := "scheduling.k8s.io/group-template-name"

/-! ## Zero values -/

def PodTemplateSpec.zero : PodTemplateSpec where
  labels := ∅
  annotations := ∅
  nodeSelector := ∅
  tolerations := []
  schedulingGates := []
  restartPolicy := ""
  priorityClassName := ""
  subdomain := ""
  schedulingGroup := none
  initContainers := []
  containers := []
  volumes := []
  rest := ""

def JobSpec.zero : JobSpec where
  parallelism := none
  completions := none
  completionMode := none
  backoffLimit := none
  podReplacementPolicy := none
  suspend := none
  scheduling := none
  template := .zero
  rest := ""

/-- A ReplicatedJob whose Jobs run one pod. -/
def ReplicatedJob.single (name : String) (replicas : ℕ) : ReplicatedJob where
  name := name
  groupName := "default"
  template := ⟨∅, ∅, { JobSpec.zero with parallelism := some 1, completions := some 1 }⟩
  replicas := replicas
  dependsOn := none

def JobSetSpec.zero : JobSetSpec where
  replicatedJobs := []
  network := none
  successPolicy := none
  failurePolicy := none
  startupPolicy := none
  suspend := none
  coordinator := none
  managedBy := none
  ttlSecondsAfterFinished := none
  activeDeadlineSeconds := none
  volumeClaimPolicies := []
  scheduling := none

def JobSet.zero : JobSet where
  name := ""
  generateName := ""
  inNamespace := ""
  uid := ""
  annotations := ∅
  deletionTimestamp := none
  spec := .zero
  status := .new

/-- A JobSet with the given ReplicatedJobs and restarts. -/
def plainSet (rjobs : List ReplicatedJob) (maxRestarts : ℤ)
    (strategy : JobSetRestartStrategy) : JobSet :=
  { JobSet.zero with
    name := "js"
    spec := { JobSetSpec.zero with
      replicatedJobs := rjobs
      network := some ⟨some false, "", none⟩
      successPolicy := some ⟨.operatorAll, []⟩
      failurePolicy := some ⟨maxRestarts, strategy, []⟩ } }

/-- Only the RestartJob gate. -/
def restartJobGates : FeatureGates where
  inPlaceRestart := false
  restartJob := true
  elasticJobSet := false
  executionAttemptsTracking := false
  jobSetActiveDeadlineSeconds := false
  jobSetWorkloadAwareSchedulingAPI := false

/-- A child Job of the first attempt. -/
def Job.child (jobSetName rjobName index : String) (status : JobStatus) : Job where
  name := jobSetName ++ "-" ++ rjobName ++ "-" ++ index
  uid := 0
  resourceVersion := 0
  labels := [(restartsKey, "0"), (jobRestartAttemptKey, "0"), (replicatedJobNameKey, rjobName),
    (jobIndexKey, index)].foldl (fun m entry => m.insert entry.1 entry.2) ∅
  annotations := ∅
  deletionTimestamp := none
  spec := { JobSpec.zero with parallelism := some 1, completions := some 1 }
  status := status

/-! ## Small readers -/

/-- `jobSetSuspended`. -/
def jobSetSuspended (js : JobSet) : Bool := js.spec.suspend.getD false

/-- `jobSuspended`. -/
def jobSuspended (job : Job) : Bool := job.spec.suspend.getD false

/-- `jobSetMarkedForDeletion`. -/
def jobSetMarkedForDeletion (js : JobSet) : Bool := js.deletionTimestamp.isSome

/-- `managedByExternalController`. -/
def managedByExternalController (js : JobSet) : Option String :=
  js.spec.managedBy.filter fun name => name ≠ jobSetControllerName

/-- `JobFinished`: the type of the first terminal condition that is true. -/
def jobFinished (job : Job) : Option JobConditionType :=
  (job.status.conditions.find? fun c =>
    (c.type = .jobComplete ∨ c.type = .jobFailed) ∧ c.status = .conditionTrue).map (·.type)

/-- `apimeta.IsStatusConditionTrue`: the first condition of the type decides. -/
def isStatusConditionTrue (conditions : List Condition) (type : JobSetConditionType) : Bool :=
  match conditions.find? fun c => c.type = type with
  | some c => c.status = .conditionTrue
  | none => false

/-- `jobSetFinished`. -/
def jobSetFinished (js : JobSet) : Bool :=
  js.status.conditions.any fun c =>
    (c.type = .jobSetCompleted ∨ c.type = .jobSetFailed) ∧ c.status = .conditionTrue

/-- `findReplicatedJobStatus`. -/
def findReplicatedJobStatus (statuses : List ReplicatedJobStatus) (name : String) :
    Option ReplicatedJobStatus :=
  statuses.find? fun s => s.name = name

/-- `getReplicatedJobReplicas`. -/
def getReplicatedJobReplicas (js : JobSet) (replicatedJobName : String) : ℕ :=
  match js.spec.replicatedJobs.find? fun rj => rj.name = replicatedJobName with
  | some rj => rj.replicas
  | none => 0

end JobSetOperator
