import JobSetOperator.Admission.Create

/-!
# Updates of a JobSet

`ValidateUpdate` of the JobSet webhook, the rules the CRD declares for a spec and
for the step from an old spec to a new one, and the JobSets that get through both.
A transition rule of the CRD is evaluated when the field is present on both sides.
-/
namespace JobSetOperator

/-! ## What an update may change -/

/-- The old ReplicatedJob of the same name; the last one decides. -/
abbrev oldJobsMap (oldJs : JobSet) (name : String) : Option ReplicatedJob := rjobsByName oldJs name

def isIndexedJob (rjob : ReplicatedJob) : Bool :=
  rjob.template.spec.completionMode = some .indexedCompletion

/-- The JobSet is in a terminal state. -/
def isTerminal (js : JobSet) : Bool :=
  isStatusConditionTrue js.status.conditions .jobSetCompleted ||
    isStatusConditionTrue js.status.conditions .jobSetFailed

/-- The elastic checks of one Indexed ReplicatedJob against its old version. -/
def validateElasticJob (oldJs : JobSet) (index : ℕ) (newRJob : ReplicatedJob) : List FieldError :=
  match oldJobsMap oldJs newRJob.name with
  | none => []
  | some oldRJob =>
    let new := newRJob.template.spec
    let old := oldRJob.template.spec
    let path := replicatedJobPath index ++ ".template.spec"
    if isIndexedJob newRJob ∧
        (new.parallelism ≠ old.parallelism ∨ new.completions ≠ old.completions) then
      if isTerminal oldJs then
        [⟨.forbidden, path, "Cannot mutate parallelism or completions when JobSet is in a " ++
          "terminal state (Completed or Failed)"⟩]
      else
        errorIf (new.parallelism ≠ old.parallelism && new.parallelism.any (· < 1))
          ⟨.invalid, path ++ ".parallelism", "parallelism must be >= 1"⟩ ++
        errorIf (new.completions ≠ old.completions && new.completions.any (· < 1))
          ⟨.invalid, path ++ ".completions", "completions must be >= 1"⟩ ++
        errorIf (new.parallelism.isSome && new.completions.isSome &&
            new.parallelism ≠ new.completions)
          ⟨.invalid, path ++ ".completions",
            "completions must be equal to parallelism for Elastic Indexed Jobs"⟩
    else []

/-- The elastic part of the mask: the sizes of an Indexed Job may change. -/
def mungeElastic (oldJs : JobSet) (rjob : ReplicatedJob) : ReplicatedJob :=
  match oldJobsMap oldJs rjob.name with
  | none => rjob
  | some oldRJob =>
    if isIndexedJob rjob then
      { rjob with
        template := { rjob.template with
          spec := { rjob.template.spec with
            parallelism := oldRJob.template.spec.parallelism
            completions := oldRJob.template.spec.completions } } }
    else rjob

/-- The mask of a suspended JobSet: the fields Kueue writes. -/
def mungeSuspended (oldJs : JobSet) (rjob : ReplicatedJob) : ReplicatedJob :=
  match oldJobsMap oldJs rjob.name with
  | none => rjob
  | some oldRJob =>
    let old := oldRJob.template.spec.template
    { rjob with
      template := { rjob.template with
        spec := { rjob.template.spec with
          template := { rjob.template.spec.template with
            annotations := old.annotations
            labels := old.labels
            nodeSelector := old.nodeSelector
            tolerations := old.tolerations
            schedulingGates := old.schedulingGates } } } }

/-- One of the two JobSets is suspended. -/
def suspendedUpdate (oldJs newJs : JobSet) : Bool :=
  oldJs.spec.suspend.getD false || newJs.spec.suspend.getD false

/-- The ReplicatedJob of `mungedSpec`. -/
def mungedReplicatedJob (gates : FeatureGates) (oldJs newJs : JobSet) (rjob : ReplicatedJob) :
    ReplicatedJob :=
  let elastic := if gates.elasticJobSet then mungeElastic oldJs rjob else rjob
  if suspendedUpdate oldJs newJs then mungeSuspended oldJs elastic else elastic

/-- What semantic equality compares: a missing list is an empty one. -/
def ReplicatedJob.semantic (rjob : ReplicatedJob) : ReplicatedJob :=
  { rjob with dependsOn := some (rjob.dependsOn.getD []) }

/-- The JobSet stays suspended, and the controller has recorded that it is. -/
def staysSuspended (oldJs newJs : JobSet) : Bool :=
  oldJs.spec.suspend.getD false && newJs.spec.suspend.getD false &&
    isStatusConditionTrue oldJs.status.conditions .jobSetSuspended

/-- The rules for `spec.scheduling`. -/
def validateSchedulingUpdate (w : Webhook) (oldJs newJs : JobSet) : List FieldError :=
  if newJs.spec.scheduling = oldJs.spec.scheduling then []
  else if !staysSuspended oldJs newJs then
    [⟨.invalid, "spec.scheduling", "field is immutable"⟩]
  else if oldJs.spec.scheduling.isSome ∧ newJs.spec.scheduling = none then
    [⟨.forbidden, "spec.scheduling", "cannot be removed once set"⟩]
  else validateScheduling w newJs (replicatedJobNames newJs)

/-- `ValidateUpdate`. -/
def validateUpdate (w : Webhook) (oldJs newJs : JobSet) : List FieldError :=
  (if w.gates.elasticJobSet then
    (newJs.spec.replicatedJobs.mapIdx (validateElasticJob oldJs)).flatten ++
      validateSchedulingGangMinCounts newJs
  else []) ++
  errorIf (!w.gates.jobSetActiveDeadlineSeconds &&
      newJs.spec.activeDeadlineSeconds ≠ oldJs.spec.activeDeadlineSeconds &&
      newJs.spec.activeDeadlineSeconds.isSome)
    ⟨.invalid, "spec.activeDeadlineSeconds",
      "cannot be set when JobSetActiveDeadlineSeconds feature gate is disabled"⟩ ++
  errorIf ((newJs.spec.replicatedJobs.map fun rjob =>
        (mungedReplicatedJob w.gates oldJs newJs rjob).semantic) ≠
      oldJs.spec.replicatedJobs.map ReplicatedJob.semantic)
    ⟨.invalid, "spec.replicatedJobs", "field is immutable"⟩ ++
  errorIf (newJs.spec.managedBy ≠ oldJs.spec.managedBy)
    ⟨.invalid, "spec.managedBy", "field is immutable"⟩ ++
  validateSchedulingUpdate w oldJs newJs

/-! ## The rules of the CRD -/

def isInt32 (n : ℤ) : Bool := decide (-(2 ^ 31) ≤ n ∧ n < 2 ^ 31)

/-- A composite policy is basic or a gang, without a minimum of groups. -/
def compositePolicyValid (policy : Option CompositeSchedulingPolicy) : Bool :=
  policy.all fun policy =>
    policy.basic.isSome != policy.gang.isSome && policy.gang.all fun minGroupCount =>
      minGroupCount.isNone

/-- The policy of a Job is basic or a gang, whose minimum is positive. -/
def jobPolicyValid (policy : Option PodGroupSchedulingPolicy) : Bool :=
  policy.all fun policy =>
    policy.basic.isSome != policy.gang.isSome && policy.gang.all fun minCount =>
      minCount.all fun n => 1 ≤ n && isInt32 n

/-- An entry of `replicatedJobs`. -/
def schedulingEntryValid (entry : ReplicatedJobScheduling) : Bool :=
  decide (entry.targetReplicatedJobs ≠ []) && decide entry.targetReplicatedJobs.Nodup &&
    compositePolicyValid entry.schedulingPolicy &&
    entry.job.all fun job => decide (entry.targetReplicatedJobs.length = 1) &&
      entry.schedulingPolicy.isNone && entry.schedulingConstraints.isNone &&
      entry.disruptionMode.isNone && jobPolicyValid job.schedulingPolicy

/-- `JobSetScheduling`: one of the two models. -/
def schedulingValid (scheduling : JobSetScheduling) : Bool :=
  (decide (scheduling.replicatedJobs = []) || !usesTopLevelAPI scheduling) &&
    compositePolicyValid scheduling.schedulingPolicy &&
    scheduling.replicatedJobs.all schedulingEntryValid

/-- The Jobs start one after the other. -/
def sequencedStartup (spec : JobSetSpec) : Bool :=
  (spec.startupPolicy.any fun policy => policy.startupPolicyOrder = .inOrder) ||
    spec.replicatedJobs.any fun rjob => decide (rjob.dependsOn.getD [] ≠ [])

/-- What the CRD declares about a spec. -/
def schemaValid (spec : JobSetSpec) : Bool :=
  decide (spec.replicatedJobs.map (·.name)).Nodup &&
    (spec.replicatedJobs.all fun rjob => isInt32 rjob.replicas &&
      rjob.template.spec.parallelism.all isInt32 && rjob.template.spec.completions.all isInt32) &&
    !(spec.startupPolicy.any (fun policy => policy.startupPolicyOrder = .inOrder) &&
      spec.replicatedJobs.any fun rjob => rjob.dependsOn.isSome) &&
    spec.scheduling.all fun scheduling => schedulingValid scheduling &&
      (decide (scheduling.replicatedJobs ≠ []) || !sequencedStartup spec)

/-- A field that is set on both sides is the same. -/
def unchanged {α : Type} [DecidableEq α] (old new : Option α) : Bool :=
  match old, new with
  | some old, some new => decide (new = old)
  | _, _ => true

/-- An empty list is a missing field. -/
def present {α : Type} (l : List α) : Option (List α) := if l.isEmpty then none else some l

/-- What the CRD declares about the step from an old spec to a new one. -/
def transitionValid (old new : JobSetSpec) : Bool :=
  unchanged old.network new.network && unchanged old.successPolicy new.successPolicy &&
    unchanged old.failurePolicy new.failurePolicy && unchanged old.startupPolicy new.startupPolicy &&
    unchanged (present old.volumeClaimPolicies) (present new.volumeClaimPolicies) &&
    new.replicatedJobs.all fun rjob =>
      (old.replicatedJobs.find? fun oldRJob => oldRJob.name = rjob.name).all fun oldRJob =>
        unchanged oldRJob.dependsOn rjob.dependsOn

/-! ## Admitted JobSets -/

/-- The two JobSets are versions of one object. -/
structure SameObject (old new : JobSet) : Prop where
  name : new.name = old.name
  inNamespace : new.inNamespace = old.inNamespace
  uid : new.uid = old.uid

/-- The JobSets that were created and updated through the webhook and the CRD. Their
status belongs to the controller. -/
inductive Admitted (w : Webhook) : JobSet → Prop
  | create {js : JobSet} (schema : schemaValid (defaultJobSet w.gates js).spec = true)
    (valid : validateCreate w (defaultJobSet w.gates js) = .ok []) :
    Admitted w (defaultJobSet w.gates js)
  | update {old new : JobSet} (admitted : Admitted w old) (same : SameObject old new)
    (schema : schemaValid new.spec = true) (transition : transitionValid old.spec new.spec = true)
    (valid : validateUpdate w old new = []) : Admitted w new
  | status {js : JobSet} (admitted : Admitted w js) (status : JobSetStatus) :
    Admitted w { js with status := status }

end JobSetOperator
