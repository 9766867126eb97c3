import JobSetOperator.Scheduling.Builder

/-!
# Defaulting and validation of a new JobSet

`Default` and `ValidateCreate` of the JobSet webhook, with the checks of
`spec.scheduling`, which updates repeat. Every check appends to a list of errors;
a plain error becomes an internal error without a field, as in `toFieldErrorList`.

The validators of the Kubernetes libraries, the name generator and the lookup of
claims in the cluster are parameters.
-/
namespace JobSetOperator

/-- What a lookup of a claim returns. -/
inductive ClaimLookup
  | found (spec : String)
  | notFound
  | failed (err : String)

/-- The libraries the webhook calls. A validator returns its complaints. -/
structure Validators where
  isDNS1035Label : String → List String
  isDNS1123Subdomain : String → List String
  isDomainPrefixedPath : String → List String
  isValidLabelValue : String → List String
  generateName : String → String

/-- The configuration of the webhook and the claims of the cluster. -/
structure Webhook where
  platform : Platform
  gates : FeatureGates
  validators : Validators
  lib : BuilderLibrary
  claims : String → ClaimLookup

/-! ## Defaults -/

/-- The defaults of one ReplicatedJob. -/
def defaultReplicatedJob (rjob : ReplicatedJob) : ReplicatedJob :=
  let spec := rjob.template.spec
  let template := spec.template
  { rjob with
    template := { rjob.template with
      spec := { spec with
        completionMode := some (spec.completionMode.getD .indexedCompletion)
        template := { template with
          restartPolicy :=
            if template.restartPolicy = "" then "OnFailure" else template.restartPolicy } } } }

def defaultNetwork (network : Option Network) : Network :=
  let network := network.getD ⟨none, "", none⟩
  { network with
    enableDNSHostnames := some (network.enableDNSHostnames.getD true)
    publishNotReadyAddresses := some (network.publishNotReadyAddresses.getD true) }

/-- The names of rules without one, from their position. -/
def defaultFailurePolicy (fp : FailurePolicy) : FailurePolicy :=
  { fp with
    rules := fp.rules.mapIdx fun i rule =>
      if rule.name = "" then { rule with name := "failurePolicyRule" ++ itoa i } else rule }

def defaultVolumeClaimPolicy (policy : VolumeClaimPolicy) : VolumeClaimPolicy :=
  { policy with
    retentionPolicy := some (policy.retentionPolicy.getD ⟨some .retentionPolicyDelete⟩) }

/-- The top-level policy is a gang when nothing else is configured. -/
def defaultScheduling (gates : FeatureGates) (scheduling : JobSetScheduling) : JobSetScheduling :=
  if gates.jobSetWorkloadAwareSchedulingAPI ∧ scheduling.schedulingPolicy = none ∧
      scheduling.replicatedJobs = [] then
    { scheduling with schedulingPolicy := some ⟨none, some none⟩ }
  else scheduling

/-- `Default`. -/
def defaultJobSet (gates : FeatureGates) (js : JobSet) : JobSet :=
  { js with
    spec := { js.spec with
      successPolicy := some (js.spec.successPolicy.getD ⟨.operatorAll, []⟩)
      startupPolicy := some (js.spec.startupPolicy.getD ⟨.anyOrder⟩)
      replicatedJobs := js.spec.replicatedJobs.map defaultReplicatedJob
      network := some (defaultNetwork js.spec.network)
      failurePolicy := js.spec.failurePolicy.map defaultFailurePolicy
      volumeClaimPolicies := js.spec.volumeClaimPolicies.map defaultVolumeClaimPolicy
      scheduling := js.spec.scheduling.map (defaultScheduling gates) } }

/-! ## Errors and paths -/

/-- A plain error, as `toFieldErrorList` wraps it. -/
def plainError (text : String) : FieldError := ⟨.internalError, "<nil>", text⟩

/-- The error when the condition holds. -/
def errorIf (condition : Bool) (error : FieldError) : List FieldError :=
  if condition then [error] else []

theorem errorIf_eq_nil {condition : Bool} {error : FieldError} :
    errorIf condition error = [] ↔ condition = false := by
  cases condition <;> simp [errorIf]

/-- Checks of the elements of a list report nothing just when none of them does. -/
theorem flatten_mapIdx_eq_nil {α β : Type} {l : List α} {f : ℕ → α → List β} :
    (l.mapIdx f).flatten = [] ↔ ∀ (i : ℕ) (hi : i < l.length), f i l[i] = [] := by
  rw [List.flatten_eq_nil_iff]
  constructor
  · intro h i hi
    exact h _ (List.mem_mapIdx.mpr ⟨i, hi, rfl⟩)
  · intro h errs herrs
    obtain ⟨i, hi, rfl⟩ := List.mem_mapIdx.mp herrs
    exact h i hi

def maxInt32 : ℤ := 2 ^ 31 - 1

def replicatedJobPath (index : ℕ) : String := "spec.replicatedJobs[" ++ itoa index ++ "]"

def schedulingEntryPath (index : ℕ) : String :=
  "spec.scheduling.replicatedJobs[" ++ itoa index ++ "]"

/-- `strings.Contains`. -/
def containsText (s sub : String) : Bool := decide (sub.toList <:+: s.toList)

def dns1035MaxLengthExceededErrorMsg := "must be no more than 63 characters"

/-- The complaints about a name, with another text for one that is too long. -/
def nameErrors (field tooLong : String) (complaints : List String) : List FieldError :=
  complaints.map fun complaint =>
    ⟨.invalid, field,
      if containsText complaint dns1035MaxLengthExceededErrorMsg then tooLong else complaint⟩

theorem nameErrors_eq_nil {field tooLong : String} {complaints : List String} :
    nameErrors field tooLong complaints = [] ↔ complaints = [] := by
  simp [nameErrors]

/-! ## One ReplicatedJob -/

def groupNameTooLongErrorMsg :=
  ".spec.replicatedJob[].groupName is too long, must be less than 63 characters"
def jobNameTooLongErrorMsg :=
  "JobSet name is too long, job names generated for this JobSet will exceed 63 characters"
def podNameTooLongErrorMsg :=
  "JobSet name is too long, pod names generated for this JobSet will exceed 63 characters"
def subdomainTooLongErrMsg :=
  ".spec.network.subdomain is too long, must be less than 63 characters"

/-- The number of pods of all Jobs fits 32 bits. -/
def validatePodCount (rjob : ReplicatedJob) : List FieldError :=
  errorIf (rjob.template.spec.parallelism.getD 1 * rjob.replicas > maxInt32)
    (plainError ("the product of replicas and parallelism must not exceed " ++ itoa maxInt32 ++
      " for replicatedJob '" ++ rjob.name ++ "'"))

/-- The longest name of a Job of the ReplicatedJob. -/
def longestJobName (jobSetName : String) (rjob : ReplicatedJob) : String :=
  genJobName jobSetName rjob.name ((rjob.replicas : ℤ) - 1)

/-- The longest name of a pod, with a suffix of five characters, for Indexed Jobs. -/
def longestPodName (jobSetName : String) (rjob : ReplicatedJob) : Option String :=
  if rjob.template.spec.completionMode = some .indexedCompletion then
    rjob.template.spec.completions.map fun completions =>
      genPodName jobSetName rjob.name (itoa ((rjob.replicas : ℤ) - 1)) (itoa (completions - 1)) ++
        "-abcde"
  else none

/-- The names generated for the ReplicatedJob. -/
def validateNames (validators : Validators) (jobSetName : String) (index : ℕ)
    (rjob : ReplicatedJob) : List FieldError :=
  nameErrors (replicatedJobPath index ++ ".groupName") groupNameTooLongErrorMsg
    (validators.isDNS1035Label rjob.groupName) ++
  nameErrors (replicatedJobPath index ++ ".name") jobNameTooLongErrorMsg
    (validators.isDNS1035Label (longestJobName jobSetName rjob)) ++
  match longestPodName jobSetName rjob with
  | some podName => nameErrors (replicatedJobPath index ++ ".name") podNameTooLongErrorMsg
      (validators.isDNS1035Label podName)
  | none => []

/-- The in-place restart is enabled and configured. -/
def usesInPlaceRestart (gates : FeatureGates) (js : JobSet) : Bool :=
  gates.inPlaceRestart && js.spec.failurePolicy.any fun fp => fp.restartStrategy = .inPlaceRestart

/-- What the in-place restart asks of a ReplicatedJob. -/
def validateInPlaceRestart (index : ℕ) (rjob : ReplicatedJob) : List FieldError :=
  let spec := rjob.template.spec
  let path := replicatedJobPath index ++ ".template.spec."
  errorIf (spec.backoffLimit ≠ some maxInt32) ⟨.invalid, path ++ "backoffLimit",
    "replicatedJob " ++ rjob.name ++ ": must be set to " ++ itoa maxInt32 ++
      " (MaxInt32) when in-place restart is enabled"⟩ ++
  errorIf (spec.podReplacementPolicy ≠ some .failed) ⟨.invalid, path ++ "podReplacementPolicy",
    "replicatedJob " ++ rjob.name ++ ": must be set to Failed when in-place restart is enabled"⟩ ++
  errorIf (spec.completions = none ∨ spec.parallelism = none ∨ spec.completions ≠ spec.parallelism)
    ⟨.invalid, path ++ "completions", "replicatedJob " ++ rjob.name ++
      ": completions and parallelism must be set and equal to each other when in-place restart is enabled"⟩

/-- `DependsOn` names earlier ReplicatedJobs only. -/
def validateDependsOn (earlier : List String) (rjob : ReplicatedJob) : List FieldError :=
  (rjob.dependsOn.getD []).flatMap fun item =>
    errorIf (item.name ∉ earlier) (plainError ("replicatedJob: " ++ rjob.name ++
      " cannot depend on replicatedJob: " ++ item.name))

/-- The checks of one ReplicatedJob. -/
def validateReplicatedJob (w : Webhook) (js : JobSet) (jobSetName : String) (index : ℕ)
    (rjob : ReplicatedJob) : List FieldError :=
  validatePodCount rjob ++
  validateNames w.validators jobSetName index rjob ++
  validateDependsOn ((js.spec.replicatedJobs.take index).map (·.name)) rjob ++
  if usesInPlaceRestart w.gates js then validateInPlaceRestart index rjob else []

/-! ## Policies -/

def maxReplicasPerReplicatedJob := 1024
def minRuleNameLength := 1
def maxRuleNameLength := 128
def ruleNameFmt := "^[A-Za-z]([A-Za-z0-9_,:]*[A-Za-z0-9_])?$"

def validOnJobFailureReasons : List String :=
  ["BackoffLimitExceeded", "DeadlineExceeded", "FailedIndexes", "MaxFailedIndexesExceeded",
    "PodFailurePolicy"]

def FailurePolicyRule.restartsJob (rule : FailurePolicyRule) : Bool :=
  rule.action = .restartJob ∨ rule.action = .restartJobAndIgnoreMaxRestarts

/-- The checks of one failure policy rule. -/
def validateRule (platform : Platform) (rjobNames : List String) (rule : FailurePolicyRule) :
    List FieldError :=
  errorIf (rule.name.length < minRuleNameLength ∨ rule.name.length > maxRuleNameLength)
    (plainError ("invalid failure policy rule name of length " ++ itoa rule.name.length ++
      ", the rule name must be at least " ++ itoa minRuleNameLength ++
      " characters long and at most " ++ itoa maxRuleNameLength ++ " characters long")) ++
  errorIf (platform.matchString ruleNameFmt rule.name ≠ some true)
    (plainError ("invalid failure policy rule name '" ++ rule.name ++
      "', a failure policy rule name must start with an alphabetic character, optionally " ++
      "followed by a string of alphanumeric characters or '_,:', and must end with an " ++
      "alphanumeric character or '_'")) ++
  (rule.targetReplicatedJobs.flatMap fun name => errorIf (name ∉ rjobNames)
    (plainError ("invalid replicatedJob name '" ++ name ++
      "' in failure policy does not appear in .spec.ReplicatedJobs"))) ++
  rule.onJobFailureReasons.flatMap fun reason => errorIf (reason ∉ validOnJobFailureReasons)
    (plainError ("invalid job failure reason '" ++ reason ++
      "' in failure policy is not a recognized job failure reason"))

/-- The indices of the rules with a name. -/
def rulesWithName (rules : List FailurePolicyRule) (name : String) : List ℕ :=
  (List.range rules.length).filter fun i => (rules[i]?.map (·.name)) = some name

/-- Rule names are unique; the order of these errors is not specified. -/
def validateRuleNames (rules : List FailurePolicyRule) : List FieldError :=
  ((rules.map (·.name)).dedup.filter fun name => (rulesWithName rules name).length > 1).map
    fun name => plainError ("rule names are not unique, rules with indices [" ++
      " ".intercalate ((rulesWithName rules name).map fun i => itoa i) ++
      "] all have the same name '" ++ name ++ "'")

/-- `validateFailurePolicy`. -/
def validateFailurePolicy (w : Webhook) (js : JobSet) (fp : FailurePolicy)
    (rjobNames : List String) : List FieldError :=
  let rules := fp.rules.flatMap (validateRule w.platform rjobNames) ++ validateRuleNames fp.rules
  if fp.rules.any (·.restartsJob) then
    if !w.gates.restartJob then
      [plainError ("RestartJob and RestartJobAndIgnoreMaxRestarts failure policy actions are not " ++
        "allowed when RestartJob feature gate is disabled")]
    else
      errorIf (js.spec.replicatedJobs.any fun rjob => rjob.replicas > maxReplicasPerReplicatedJob)
        (plainError ("JobSet cannot have a failure policy rule with RestartJob or " ++
          "RestartJobAndIgnoreMaxRestarts action and a replicated job with replicas > " ++
          itoa maxReplicasPerReplicatedJob)) ++ rules
  else rules

/-- `replicatedJobByName` and `rjobByName`: the first ReplicatedJob with the name. -/
def replicatedJobByName (js : JobSet) (name : String) : Option ReplicatedJob :=
  js.spec.replicatedJobs.find? fun rjob => rjob.name = name

/-- `validateCoordinator`. -/
def validateCoordinator (js : JobSet) (c : Coordinator) : List FieldError :=
  match replicatedJobByName js c.replicatedJob with
  | none => [plainError ("coordinator replicatedJob " ++ c.replicatedJob ++ " does not exist")]
  | some rjob =>
    if c.jobIndex < 0 ∨ c.jobIndex ≥ rjob.replicas then
      [plainError ("coordinator job index " ++ itoa c.jobIndex ++ " is invalid for replicatedJob " ++
        rjob.name)]
    else
      match rjob.template.spec.completionMode, rjob.template.spec.completions with
      | some .indexedCompletion, some completions =>
        errorIf (c.podIndex < 0 ∨ c.podIndex ≥ completions)
          (plainError ("coordinator pod index " ++ itoa c.podIndex ++
            " is invalid for replicatedJob " ++ c.replicatedJob ++ " job index " ++
            itoa c.jobIndex))
      | _, _ => [plainError ("job for coordinator pod must be indexed completion mode, and " ++
          "completions number must be set")]

/-- `validateCoordinatorLabelValue`. -/
def validateCoordinatorLabelValue (validators : Validators) (js : JobSet) (c : Coordinator)
    (jobSetName : String) : List FieldError :=
  let labelValue := coordinatorEndpoint { js with name := jobSetName } c
  match validators.isValidLabelValue labelValue with
  | [] => []
  | errs => [plainError ("spec will lead to invalid label value \"" ++ labelValue ++
      "\" for coordinator label \"" ++ coordinatorKey ++
      "\" (long JobSet / ReplicatedJob / SubDomain name?): " ++ ", ".intercalate errs)]

/-! ## Volume claims -/

def maxVolumeClaimLength := 63

/-- `validateReplicatedJobsVolumeClaims`. -/
def validateReplicatedJobsVolumeClaims (rjobs : List ReplicatedJob) (name : String) :
    List FieldError :=
  (rjobs.mapIdx fun i rjob => (rjob.template.spec.template.volumes.mapIdx fun j volume =>
    errorIf (volume.name = name) ⟨.invalid,
      replicatedJobPath i ++ ".template.spec.template.spec.volumes[" ++ itoa j ++ "].name",
      "volume name conflicts with VolumeClaimPolicy template name: " ++ name⟩).flatten).flatten ++
  errorIf (!rjobs.any fun rjob => hasVolumeMount rjob.template.spec.template name)
    ⟨.invalid, "spec.replicatedJobs", "replicatedJob containers don't have a matching volumeMount: " ++
      name ++ " from VolumeClaimPolicies"⟩

/-- The part of the check of a claim template that does not look at the cluster. -/
def validateClaimTemplate (w : Webhook) (js : JobSet) (jobSetName path : String)
    (earlier : List String) (template : PersistentVolumeClaim) : List FieldError :=
  errorIf (template.name ∈ earlier) ⟨.invalid, path ++ ".name",
    "names must be unique for VolumeClaimPolicies template"⟩ ++
  ((w.validators.isDNS1123Subdomain template.name).map fun err =>
    ⟨.invalid, path ++ ".name", err⟩) ++
  errorIf ((generatePVCName jobSetName template.name).length > maxVolumeClaimLength)
    ⟨.invalid, path ++ ".name", "VolumeClaimPolicies template name is too long"⟩ ++
  validateReplicatedJobsVolumeClaims js.spec.replicatedJobs template.name

/-- A claim that exists must be the one of the template, and must be kept. -/
def validateExistingClaim (w : Webhook) (js : JobSet) (jobSetName policyPath path : String)
    (policy : VolumeClaimPolicy) (template : PersistentVolumeClaim) : List FieldError :=
  let pvcName := generatePVCName jobSetName template.name
  match w.claims pvcName with
  | .notFound => []
  | .failed err => [⟨.internalError, path,
      "failed to check for existing PVC " ++ pvcName ++ ": " ++ err⟩]
  | .found spec =>
    errorIf (spec ≠ template.spec) ⟨.invalid, path ++ ".spec",
      "spec does not match existing PVC " ++ pvcName ++ " in namespace " ++ js.inNamespace⟩ ++
    errorIf (policy.retentionPolicy.any fun retention =>
        retention.whenDeleted.getD .retentionPolicyDelete ≠ .retentionPolicyRetain)
      ⟨.invalid, policyPath ++ ".retentionPolicy.whenDeleted",
        "retentionPolicy must be retain when PVC exists"⟩

/-- The positions of all claim templates, with their policies. -/
def claimTemplates (policies : List VolumeClaimPolicy) :
    List (ℕ × ℕ × VolumeClaimPolicy × PersistentVolumeClaim) :=
  (policies.mapIdx fun i policy =>
    policy.templates.mapIdx fun j template => (i, j, policy, template)).flatten

/-- `validateVolumeClaimPolicies`. -/
def validateVolumeClaimPolicies (w : Webhook) (js : JobSet) (jobSetName : String)
    (policies : List VolumeClaimPolicy) : List FieldError :=
  let templates := claimTemplates policies
  (templates.mapIdx fun k entry =>
    let policyPath := "spec.volumeClaimPolicies[" ++ itoa entry.1 ++ "]"
    let path := policyPath ++ ".template[" ++ itoa entry.2.1 ++ "]"
    validateClaimTemplate w js jobSetName path
      ((templates.take k).map fun earlier => earlier.2.2.2.name) entry.2.2.2 ++
    validateExistingClaim w js jobSetName policyPath path entry.2.2.1 entry.2.2.2).flatten

/-! ## Scheduling -/

/-- The embedded Job API must not be used for scheduling. -/
def validateEmbeddedScheduling (js : JobSet) : List FieldError :=
  (js.spec.replicatedJobs.mapIdx fun i rjob =>
    errorIf rjob.template.spec.scheduling.isSome
      ⟨.forbidden, replicatedJobPath i ++ ".template.spec.scheduling",
        "cannot be set when spec.scheduling is configured; use spec.scheduling instead"⟩ ++
    errorIf rjob.template.spec.template.schedulingGroup.isSome
      ⟨.forbidden, replicatedJobPath i ++ ".template.spec.template.spec.schedulingGroup",
        "cannot be set directly when spec.scheduling is configured; the JobSet controller " ++
          "manages this field"⟩).flatten

/-- Some top-level field of the scheduling API is set. -/
def usesTopLevelAPI (scheduling : JobSetScheduling) : Bool :=
  scheduling.schedulingPolicy.isSome || scheduling.schedulingConstraints.isSome ||
    scheduling.disruptionMode.isSome

/-- All names the entries target, in order. -/
def allTargets (scheduling : JobSetScheduling) : List String :=
  scheduling.replicatedJobs.flatMap (·.targetReplicatedJobs)

/-- Without a top-level configuration every ReplicatedJob needs an entry. -/
def validateAllTargeted (js : JobSet) (scheduling : JobSetScheduling) : List FieldError :=
  if !usesTopLevelAPI scheduling ∧ scheduling.replicatedJobs ≠ [] then
    (js.spec.replicatedJobs.mapIdx fun i rjob =>
      errorIf (rjob.name ∉ allTargets scheduling) ⟨.invalid, replicatedJobPath i ++ ".name",
        "must be targeted by a replicatedJobs entry when spec.scheduling does not set a " ++
          "top-level schedulingPolicy, schedulingConstraints, or disruptionMode"⟩).flatten
  else []

/-- The pods of all ReplicatedJobs fit the one top-level PodGroup. -/
def validateTopLevelTotal (js : JobSet) (scheduling : JobSetScheduling) : List FieldError :=
  if useTopLevelGang (some scheduling) then
    errorIf ((js.spec.replicatedJobs.map fun rjob => jobParallelism rjob * rjob.replicas).sum >
        maxInt32)
      ⟨.invalid, "spec.replicatedJobs", "the total represented pod count across all " ++
        "replicatedJobs must not exceed " ++ itoa maxInt32 ++
        " when top-level gang scheduling is used"⟩
  else []

/-- The top-level PodGroup has one priority class. -/
def validateTopLevelPriority (js : JobSet) (scheduling : JobSetScheduling) : List FieldError :=
  match js.spec.replicatedJobs with
  | [] => []
  | first :: rest =>
    if useTopLevelGang (some scheduling) then
      (rest.mapIdx fun i rjob =>
        errorIf (priorityClassNameOf rjob ≠ priorityClassNameOf first)
          ⟨.invalid, replicatedJobPath (i + 1) ++ ".template.spec.template.spec.priorityClassName",
            "must match \"" ++ priorityClassNameOf first ++
              "\" when top-level gang scheduling is used"⟩).flatten
    else []

/-- The targets of one entry: the errors, and the valid ones with their positions.
`targeted` holds the valid targets of earlier entries. -/
def splitTargets (rjobNames : List String) (path : String) :
    List String → ℕ → List String → List FieldError × List (ℕ × String)
  | [], _, _ => ([], [])
  | name :: rest, j, targeted =>
    let element := path ++ "[" ++ itoa j ++ "]"
    if name ∉ rjobNames then
      let r := splitTargets rjobNames path rest (j + 1) targeted
      (⟨.invalid, element, "does not reference a valid replicatedJob name"⟩ :: r.1, r.2)
    else if name ∈ targeted then
      let r := splitTargets rjobNames path rest (j + 1) targeted
      (⟨.invalid, element, "is targeted by more than one replicatedJobs entry"⟩ :: r.1, r.2)
    else
      let r := splitTargets rjobNames path rest (j + 1) (name :: targeted)
      (r.1, (j, name) :: r.2)

/-- `replicatedJobPriorityClassName`. -/
def replicatedJobPriorityClassName (js : JobSet) (name : String) : String :=
  ((replicatedJobByName js name).map priorityClassNameOf).getD ""

/-- An entry with `job` has one target and none of the shared fields. -/
def validateJobEntry (path : String) (entry : ReplicatedJobScheduling) : List FieldError :=
  errorIf (entry.targetReplicatedJobs.length ≠ 1) ⟨.invalid, path ++ ".targetReplicatedJobs",
    "must target exactly one replicatedJob when job is set"⟩ ++
  errorIf (entry.schedulingPolicy.isSome || entry.schedulingConstraints.isSome ||
      entry.disruptionMode.isSome) ⟨.invalid, path ++ ".job",
    "cannot be set together with schedulingPolicy, schedulingConstraints, or disruptionMode on " ++
      "the same replicatedJobs entry; job replaces the single shared PodGroup those fields " ++
      "configure with one PodGroup per Job"⟩

/-- The ReplicatedJobs of a shared PodGroup have one priority class. -/
def validateEntryPriority (js : JobSet) (path : String) : List (ℕ × String) → List FieldError
  | [] => []
  | (_, first) :: rest =>
    let expected := replicatedJobPriorityClassName js first
    rest.flatMap fun target =>
      let actual := replicatedJobPriorityClassName js target.2
      errorIf (actual ≠ expected)
        ⟨.invalid, path ++ ".targetReplicatedJobs[" ++ itoa target.1 ++ "]",
          "priorityClassName \"" ++ actual ++ "\" must match \"" ++ expected ++
            "\" of the other ReplicatedJobs sharing this PodGroup"⟩

/-- The entries of `replicatedJobs`, one after the other. -/
def validateEntries (js : JobSet) (rjobNames : List String) :
    List ReplicatedJobScheduling → ℕ → List String → List FieldError
  | [], _, _ => []
  | entry :: rest, i, targeted =>
    let path := schedulingEntryPath i
    let split := splitTargets rjobNames (path ++ ".targetReplicatedJobs")
      entry.targetReplicatedJobs 0 targeted
    let own :=
      if split.2 = [] then []
      else if entry.job.isSome then validateJobEntry path entry
      else validateEntryPriority js path split.2
    split.1 ++ own ++
      validateEntries js rjobNames rest (i + 1) (split.2.map (·.2) ++ targeted)

/-- The check of the explicit minimum of one entry. -/
def validateEntryMinCount (js : JobSet) (i : ℕ) (entry : ReplicatedJobScheduling) :
    List FieldError :=
  match entry.job.bind (·.schedulingPolicy), entry.targetReplicatedJobs with
  | some ⟨_, some minCount⟩, [target] =>
    match replicatedJobByName js target with
    | none => []
    | some rjob => errorIf (minCount.getD 0 > jobParallelism rjob)
        ⟨.invalid, schedulingEntryPath i ++ ".job.schedulingPolicy.gang.minCount",
          "cannot exceed the per-Job pod count (parallelism) of replicatedJob \"" ++ target ++
            "\" (" ++ itoa (jobParallelism rjob) ++ ")"⟩
  | _, _ => []

/-- `validateSchedulingGangMinCounts`. -/
def validateSchedulingGangMinCounts (js : JobSet) : List FieldError :=
  match js.spec.scheduling with
  | none => []
  | some scheduling => (scheduling.replicatedJobs.mapIdx (validateEntryMinCount js)).flatten

/-- `validateScheduling`. -/
def validateScheduling (w : Webhook) (js : JobSet) (rjobNames : List String) : List FieldError :=
  if !w.gates.jobSetWorkloadAwareSchedulingAPI then
    errorIf js.spec.scheduling.isSome ⟨.forbidden, "spec.scheduling",
      "cannot be set when JobSetWorkloadAwareSchedulingAPI feature gate is disabled"⟩
  else
    match js.spec.scheduling with
    | none => []
    | some scheduling =>
      if js.spec.replicatedJobs = [] then
        [⟨.invalid, "spec.replicatedJobs",
          "must contain at least one replicatedJob when scheduling is configured"⟩]
      else
        validateEmbeddedScheduling js ++
        validateAllTargeted js scheduling ++
        validateSchedulingWithBuilder w.platform w.lib js scheduling "spec.scheduling" ++
        validateTopLevelTotal js scheduling ++
        validateTopLevelPriority js scheduling ++
        validateEntries js rjobNames scheduling.replicatedJobs 0 [] ++
        validateSchedulingGangMinCounts js

/-! ## The whole JobSet -/

/-- `getJobSetNameForValidation`. -/
def getJobSetNameForValidation (validators : Validators) (js : JobSet) : String :=
  if js.name ≠ "" then js.name
  else if js.generateName ≠ "" then validators.generateName js.generateName
  else ""

/-- Fields that need their feature gate. -/
def validateGates (gates : FeatureGates) (js : JobSet) : List FieldError :=
  errorIf (!gates.inPlaceRestart &&
      js.spec.failurePolicy.any fun fp => fp.restartStrategy = .inPlaceRestart)
    (plainError ("InPlaceRestart restart strategy cannot be set when InPlaceRestart feature gate " ++
      "is disabled")) ++
  errorIf (!gates.jobSetActiveDeadlineSeconds && js.spec.activeDeadlineSeconds.isSome)
    ⟨.invalid, "spec.activeDeadlineSeconds",
      "cannot be set when JobSetActiveDeadlineSeconds feature gate is disabled"⟩

/-- The subdomain is also the name of the service. -/
def validateSubdomain (validators : Validators) (js : JobSet) : List FieldError :=
  match js.spec.network with
  | none => []
  | some network =>
    if network.subdomain = "" then []
    else
      ((validators.isDNS1123Subdomain network.subdomain).map fun err =>
        ⟨.invalid, "spec.network.subdomain", err⟩) ++
      nameErrors "spec.network.subdomain" subdomainTooLongErrMsg
        (validators.isDNS1035Label network.subdomain)

def maxManagedByLength := 63

def validateManagedBy (validators : Validators) (js : JobSet) : List FieldError :=
  match js.spec.managedBy with
  | none => []
  | some manager =>
    ((validators.isDomainPrefixedPath manager).map fun err => ⟨.invalid, "spec.managedBy", err⟩) ++
    errorIf (manager.length > maxManagedByLength) ⟨.tooLong, "spec.managedBy",
      "may not be more than " ++ itoa maxManagedByLength ++ " bytes"⟩

/-- The targets of the success policy exist. -/
def validateSuccessPolicy (policy : SuccessPolicy) (rjobNames : List String) : List FieldError :=
  policy.targetReplicatedJobs.flatMap fun name => errorIf (name ∉ rjobNames)
    (plainError ("invalid replicatedJob name '" ++ name ++
      "' does not appear in .spec.ReplicatedJobs"))

def validateCoordinators (w : Webhook) (js : JobSet) (jobSetName : String) : List FieldError :=
  match js.spec.coordinator with
  | none => []
  | some c => validateCoordinator js c ++
      validateCoordinatorLabelValue w.validators js c jobSetName

/-- `ValidateCreate`. The success policy is dereferenced without a check. -/
def validateCreate (w : Webhook) (js : JobSet) : Except String (List FieldError) :=
  let jobSetName := getJobSetNameForValidation w.validators js
  let rjobNames := replicatedJobNames js
  match js.spec.successPolicy with
  | none => .error "nil pointer dereference"
  | some policy => .ok (
      validateGates w.gates js ++
      errorIf (js.spec.replicatedJobs.head?.any fun rjob => rjob.dependsOn.isSome)
        (plainError "DependsOn can't be set for the first ReplicatedJob") ++
      validateSubdomain w.validators js ++
      validateManagedBy w.validators js ++
      (js.spec.replicatedJobs.mapIdx (validateReplicatedJob w js jobSetName)).flatten ++
      validateSuccessPolicy policy rjobNames ++
      ((js.spec.failurePolicy.map fun fp => validateFailurePolicy w js fp rjobNames).getD []) ++
      validateCoordinators w js jobSetName ++
      validateVolumeClaimPolicies w js jobSetName js.spec.volumeClaimPolicies ++
      validateScheduling w js rjobNames)

end JobSetOperator
