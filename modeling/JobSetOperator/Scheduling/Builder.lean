import JobSetOperator.Controller.Construct

/-!
# Compiling `spec.scheduling`

`newBuildersForJobSet` turns the scheduling configuration of a JobSet into items,
one for each PodGroup template of the Workload: a single item for the whole
JobSet, one for each entry of `replicatedJobs` or for each Job it names, and one
for each ReplicatedJob that no entry names. `buildWorkloadFromBuilders` has the
builder library compile the items and merges the templates.

The builder library is a parameter. What the operator relies on, that it overlays
the input on the default configuration, applies the callbacks and copies the
result into the template, is `BuilderLibrary.Copies`.
-/
namespace JobSetOperator

/-! ## Pod counts -/

/-- `JobParallelism`: the pods of one Job. -/
def jobParallelism (rjob : ReplicatedJob) : ℤ :=
  let count := rjob.template.spec.parallelism.getD 1
  match rjob.template.spec.completions with
  | some completions => if completions < count then completions else count
  | none => count

/-- `ReplicatedJobPodCount`; the product is one of 64 bits. -/
def replicatedJobPodCount (rjob : ReplicatedJob) : ℤ := int32 (jobParallelism rjob * rjob.replicas)

/-- `TotalReplicatedJobPodCount`, which is also `totalMinCount`. -/
def totalReplicatedJobPodCount (rjobs : List ReplicatedJob) : ℤ :=
  int32 (rjobs.map replicatedJobPodCount).sum

/-! ## Validation errors -/

inductive FieldErrorType
  | invalid
  | forbidden
  | tooLong
  | tooMany
  | internalError
  deriving DecidableEq, Repr

/-- A validation error: its kind, the field and the text. -/
structure FieldError where
  type : FieldErrorType
  field : String
  detail : String
  deriving DecidableEq, Repr

/-! ## Items -/

/-- A building block of the API and where it stands below the item's path. -/
structure BuilderInput (α : Type) where
  podGroupData : Option α
  pathElements : List String
  deriving DecidableEq, Repr

def BuilderInput.unset {α : Type} : BuilderInput α := ⟨none, []⟩

structure WorkloadInput where
  policy : BuilderInput PodGroupSchedulingPolicy
  constraints : BuilderInput String
  disruptionMode : BuilderInput String
  resourceClaims : BuilderInput (List String)
  deriving DecidableEq, Repr

def WorkloadInput.unset : WorkloadInput := ⟨.unset, .unset, .unset, .unset⟩

structure SchedulingConfig where
  policy : Option PodGroupSchedulingPolicy
  constraints : Option String
  disruptionMode : Option String
  resourceClaims : List String
  priorityClassName : String
  deriving DecidableEq, Repr

structure WorkloadItem where
  name : String
  path : String
  defaultConfig : SchedulingConfig
  input : WorkloadInput
  callbacks : List (SchedulingConfig → SchedulingConfig)

def schedulingRootPath := "spec.scheduling"

/-- `mapCompositePolicyInput`: only the variant of a composite policy is kept. -/
def mapCompositePolicyInput (policy : Option CompositeSchedulingPolicy)
    (pathElements : List String) : BuilderInput PodGroupSchedulingPolicy :=
  match policy with
  | none => .unset
  | some policy => ⟨some ⟨policy.basic, policy.gang.map fun _ => none⟩, pathElements⟩

/-- `mapPodPolicyInput`, `mapPodConstraintsInput`, `mapPodDisruptionInput`, and their
composite counterparts for constraints and disruption modes: a copy of what is set. -/
def mapInput {α : Type} (data : Option α) (pathElements : List String) : BuilderInput α :=
  match data with
  | none => .unset
  | some data => ⟨some data, pathElements⟩

/-- `mapResourceClaimsInput`. -/
def mapResourceClaimsInput (claims : List String) (pathElements : List String) :
    BuilderInput (List String) :=
  if claims = [] then .unset else ⟨some claims, pathElements⟩

/-- `gangMinCountCallback`: a gang without a minimum gets the given one. -/
def gangMinCountCallback (minCount : ℤ) (cfg : SchedulingConfig) : SchedulingConfig :=
  match cfg.policy with
  | some ⟨basic, some none⟩ => { cfg with policy := some ⟨basic, some (some minCount)⟩ }
  | _ => cfg

/-- `defaultGangConfig`, with the priority class its callers set. -/
def defaultGangConfig (priorityClassName : String) : SchedulingConfig :=
  ⟨some ⟨none, some none⟩, none, none, [], priorityClassName⟩

/-- `globalSchedulingInput`. -/
def globalSchedulingInput (globalScheduling : JobSetScheduling) : WorkloadInput where
  policy := mapCompositePolicyInput globalScheduling.schedulingPolicy ["schedulingPolicy"]
  constraints := mapInput globalScheduling.schedulingConstraints ["schedulingConstraints"]
  disruptionMode := mapInput globalScheduling.disruptionMode ["disruptionMode"]
  resourceClaims := .unset

/-- The input with the global one where it sets nothing. -/
def BuilderInput.orElse {α : Type} (input fallback : BuilderInput α) : BuilderInput α :=
  if input.podGroupData.isNone then fallback else input

def priorityClassNameOf (rjob : ReplicatedJob) : String :=
  rjob.template.spec.template.priorityClassName

/-- `buildTopLevelGangItem`. -/
def buildTopLevelGangItem (platform : Platform) (js : JobSet) (scheduling : JobSetScheduling) :
    WorkloadItem where
  name := topLevelTemplateName platform js
  path := schedulingRootPath
  defaultConfig := defaultGangConfig ((js.spec.replicatedJobs.head?.map priorityClassNameOf).getD "")
  input := globalSchedulingInput scheduling
  callbacks := [gangMinCountCallback (totalReplicatedJobPodCount js.spec.replicatedJobs)]

/-- `buildPerRJItem`. -/
def buildPerRJItem (platform : Platform) (js : JobSet) (rjob : ReplicatedJob)
    (globalScheduling : JobSetScheduling) : WorkloadItem where
  name := perRJTemplateName platform js rjob.name
  path := schedulingRootPath
  defaultConfig := defaultGangConfig (priorityClassNameOf rjob)
  input := globalSchedulingInput globalScheduling
  callbacks := [gangMinCountCallback (replicatedJobPodCount rjob)]

/-- `SchedulingGroupName`. -/
def schedulingGroupName (targets : List String) : String := "-".intercalate targets

/-- The input of an entry of `replicatedJobs`, before the global one. -/
def groupInput (leafPolicy : ReplicatedJobScheduling) : WorkloadInput :=
  let path := fun name => ["replicatedJobs", schedulingGroupName leafPolicy.targetReplicatedJobs, name]
  { policy := mapCompositePolicyInput leafPolicy.schedulingPolicy (path "schedulingPolicy")
    constraints := mapInput leafPolicy.schedulingConstraints (path "schedulingConstraints")
    disruptionMode := mapInput leafPolicy.disruptionMode (path "disruptionMode")
    resourceClaims := .unset }

/-- The fallback to the global policy, constraints and disruption mode. -/
def WorkloadInput.orGlobal (input : WorkloadInput) (globalScheduling : JobSetScheduling) :
    WorkloadInput :=
  let globalInput := globalSchedulingInput globalScheduling
  { input with
    policy := input.policy.orElse globalInput.policy
    constraints := input.constraints.orElse globalInput.constraints
    disruptionMode := input.disruptionMode.orElse globalInput.disruptionMode }

/-- The sum of the pod counts of a group, accumulated in 32 bits. -/
def groupMinCount (members : List ReplicatedJob) : ℤ :=
  members.foldl (fun totalMin rjob => int32 (totalMin + replicatedJobPodCount rjob)) 0

/-- `buildGroupItem`; the first member gives the priority class. -/
def buildGroupItem (platform : Platform) (js : JobSet) (first : ReplicatedJob)
    (members : List ReplicatedJob) (leafPolicy : ReplicatedJobScheduling)
    (globalScheduling : JobSetScheduling) : WorkloadItem where
  name := groupTemplateName platform js leafPolicy.targetReplicatedJobs
  path := schedulingRootPath
  defaultConfig := defaultGangConfig (priorityClassNameOf first)
  input := (groupInput leafPolicy).orGlobal globalScheduling
  callbacks := [gangMinCountCallback (groupMinCount (first :: members))]

/-- The input of one Job's own item, before the global one. -/
def jobInput (rjob : ReplicatedJob) (jobPolicy : JobScheduling) : WorkloadInput :=
  let path := fun name => ["replicatedJobs", rjob.name, "job", name]
  { policy := mapInput jobPolicy.schedulingPolicy (path "schedulingPolicy")
    constraints := mapInput jobPolicy.schedulingConstraints (path "schedulingConstraints")
    disruptionMode := mapInput jobPolicy.disruptionMode (path "disruptionMode")
    resourceClaims := mapResourceClaimsInput jobPolicy.resourceClaims (path "resourceClaims") }

/-- `buildJobItem`. -/
def buildJobItem (platform : Platform) (js : JobSet) (rjob : ReplicatedJob) (jobIdx : ℕ)
    (jobPolicy : JobScheduling) (globalScheduling : JobSetScheduling) : WorkloadItem where
  name := perJobTemplateName platform js rjob.name jobIdx
  path := schedulingRootPath
  defaultConfig := defaultGangConfig (priorityClassNameOf rjob)
  input := (jobInput rjob jobPolicy).orGlobal globalScheduling
  callbacks := [gangMinCountCallback (jobParallelism rjob)]

/-! ## Builders -/

/-- The lookup in `rjobsByName`: the last ReplicatedJob with a name decides. -/
def rjobsByName (js : JobSet) (name : String) : Option ReplicatedJob :=
  js.spec.replicatedJobs.reverse.find? fun rjob => rjob.name = name

def duplicateSchedulingGroupName (name : String) : String :=
  "generated scheduling group name \"" ++ name ++ "\" is not unique: rename the colliding " ++
    "ReplicatedJob or replicatedJobs targetReplicatedJobs grouping so generated " ++
    "PodGroupTemplate names don't collide"

/-- `addBuilder`; the names seen are those of the items so far. The error is the name. -/
def addBuilder (builders : List WorkloadItem) (item : WorkloadItem) :
    Except String (List WorkloadItem) :=
  if item.name ∈ builders.map (·.name) then .error item.name else .ok (builders ++ [item])

/-- The items of one entry of `replicatedJobs`; names that resolve to nothing are skipped. -/
def entryItems (platform : Platform) (js : JobSet) (scheduling : JobSetScheduling)
    (policy : ReplicatedJobScheduling) : List WorkloadItem :=
  match policy.targetReplicatedJobs.filterMap (rjobsByName js) with
  | [] => []
  | first :: members =>
    match policy.job with
    | some jobPolicy => (List.range first.replicas).map fun jobIdx =>
        buildJobItem platform js first jobIdx jobPolicy scheduling
    | none => [buildGroupItem platform js first members policy scheduling]

/-- The names `grouped` holds after the loop over the entries. -/
def grouped (js : JobSet) (scheduling : JobSetScheduling) : List String :=
  scheduling.replicatedJobs.flatMap fun policy =>
    policy.targetReplicatedJobs.filter fun name => (rjobsByName js name).isSome

/-- `newBuildersForJobSet`, for a JobSet with a scheduling configuration. The error is
the name that is not unique. -/
def newBuildersForJobSet (platform : Platform) (js : JobSet) (scheduling : JobSetScheduling) :
    Except String (List WorkloadItem) :=
  if useTopLevelGang (some scheduling) then .ok [buildTopLevelGangItem platform js scheduling]
  else do
    let builders ← scheduling.replicatedJobs.foldlM (fun builders policy =>
      (entryItems platform js scheduling policy).foldlM addBuilder builders) []
    let rest := js.spec.replicatedJobs.filter fun rjob => rjob.name ∉ grouped js scheduling
    (rest.map fun rjob => buildPerRJItem platform js rjob scheduling).foldlM addBuilder builders

/-! ## Workloads -/

/-- The policy of a template; a gang has a minimum here. -/
structure PodGroupPolicy where
  basic : Option Unit
  gang : Option ℤ
  deriving DecidableEq, Repr

structure PodGroupTemplate where
  name : String
  schedulingPolicy : PodGroupPolicy
  schedulingConstraints : Option String
  resourceClaims : List String
  disruptionMode : Option String
  priorityClassName : String
  deriving DecidableEq, Repr

/-- The spec of a Workload. -/
structure WorkloadSpec where
  controllerRef : String
  podGroupTemplates : List PodGroupTemplate
  deriving DecidableEq, Repr

structure PodGroupSpec where
  schedulingPolicy : PodGroupPolicy
  schedulingConstraints : Option String
  resourceClaims : List String
  disruptionMode : Option String
  priorityClassName : String
  priority : Option ℤ
  preemptionPolicy : Option String
  deriving DecidableEq, Repr

structure OwnerReference where
  name : String
  uid : String
  deriving DecidableEq, Repr

structure BuildOptions where
  name : String
  inNamespace : String
  owner : OwnerReference
  deriving DecidableEq, Repr

/-- The builder library: validation and compilation of one item, and the PodGroup of
a template. -/
structure BuilderLibrary where
  validate : BuildOptions → WorkloadItem → List FieldError
  buildWorkload : BuildOptions → WorkloadItem → Except String WorkloadSpec
  newPodGroup : BuildOptions → PodGroupTemplate → Except String PodGroupSpec

/-- `workloadName`. -/
def workloadName (platform : Platform) (js : JobSet) : String :=
  hashedName js.name (schedulingIdentityHash platform "JobSet" js.inNamespace js.name)

/-- `buildOpts`. -/
def buildOpts (platform : Platform) (js : JobSet) : BuildOptions :=
  ⟨workloadName platform js, js.inNamespace, ⟨js.name, js.uid⟩⟩

/-- The loop of `buildWorkloadFromBuilders`: all templates, when the controller
references agree with the given one. -/
def mergeTemplates (build : WorkloadItem → Except String WorkloadSpec) (controllerRef : String) :
    List WorkloadItem → Except String (List PodGroupTemplate)
  | [] => .ok []
  | item :: rest => do
    let wl ← build item
    if wl.controllerRef ≠ controllerRef then
      .error "cannot merge Workloads with different controller references"
    else do
      let templates ← mergeTemplates build controllerRef rest
      pure (wl.podGroupTemplates ++ templates)

/-- `buildWorkloadFromBuilders`. -/
def buildWorkloadFromBuilders (build : WorkloadItem → Except String WorkloadSpec)
    (builders : List WorkloadItem) : Except String WorkloadSpec :=
  match builders with
  | [] => .error "no scheduling items were compiled from spec.scheduling"
  | [item] => build item
  | first :: rest => do
    let base ← build first
    let templates ← mergeTemplates build base.controllerRef (first :: rest)
    pure { base with podGroupTemplates := templates }

/-- `buildWorkload`. -/
def buildWorkload (platform : Platform) (lib : BuilderLibrary) (js : JobSet)
    (scheduling : JobSetScheduling) : Except String WorkloadSpec := do
  let builders ← (newBuildersForJobSet platform js scheduling).mapError duplicateSchedulingGroupName
  buildWorkloadFromBuilders (lib.buildWorkload (buildOpts platform js)) builders

def workloadMaxPodGroupTemplates := 8

/-- `ValidateSchedulingWithBuilder`. -/
def validateSchedulingWithBuilder (platform : Platform) (lib : BuilderLibrary) (js : JobSet)
    (scheduling : JobSetScheduling) (rootPath : String) : List FieldError :=
  match newBuildersForJobSet platform js scheduling with
  | .error name =>
    [⟨.invalid, rootPath ++ ".replicatedJobs", duplicateSchedulingGroupName name⟩]
  | .ok builders =>
    if builders.length > workloadMaxPodGroupTemplates then
      [⟨.tooMany, rootPath, "must have at most " ++ itoa workloadMaxPodGroupTemplates ++ " items"⟩]
    else builders.flatMap (lib.validate (buildOpts platform js))

/-! ## What the library does -/

/-- The configuration the library compiles: the input over the defaults, through the
callbacks. -/
def WorkloadItem.config (item : WorkloadItem) : SchedulingConfig :=
  let cfg := { item.defaultConfig with
    policy := item.input.policy.podGroupData.or item.defaultConfig.policy
    constraints := item.input.constraints.podGroupData.or item.defaultConfig.constraints
    disruptionMode := item.input.disruptionMode.podGroupData.or item.defaultConfig.disruptionMode
    resourceClaims := item.input.resourceClaims.podGroupData.getD item.defaultConfig.resourceClaims }
  item.callbacks.foldl (fun cfg callback => callback cfg) cfg

/-- A configuration as the policy of a template. -/
def SchedulingConfig.podGroupPolicy (cfg : SchedulingConfig) : PodGroupPolicy :=
  match cfg.policy with
  | some policy => ⟨policy.basic, policy.gang.map fun minCount => minCount.getD 0⟩
  | none => ⟨none, none⟩

/-- The template of an item. -/
def WorkloadItem.template (item : WorkloadItem) : PodGroupTemplate where
  name := item.name
  schedulingPolicy := item.config.podGroupPolicy
  schedulingConstraints := item.config.constraints
  resourceClaims := item.config.resourceClaims
  disruptionMode := item.config.disruptionMode
  priorityClassName := item.config.priorityClassName

/-- The spec of the PodGroup of a template; the server sets the priority. -/
def PodGroupTemplate.podGroup (tmpl : PodGroupTemplate) : PodGroupSpec where
  schedulingPolicy := tmpl.schedulingPolicy
  schedulingConstraints := tmpl.schedulingConstraints
  resourceClaims := tmpl.resourceClaims
  disruptionMode := tmpl.disruptionMode
  priorityClassName := tmpl.priorityClassName
  priority := none
  preemptionPolicy := none

/-- The library applies the callbacks and copies the configuration. -/
structure BuilderLibrary.Copies (lib : BuilderLibrary) : Prop where
  build {opts : BuildOptions} {item : WorkloadItem} {wl : WorkloadSpec}
    (h : lib.buildWorkload opts item = .ok wl) : wl.podGroupTemplates = [item.template]
  podGroup {opts : BuildOptions} {tmpl : PodGroupTemplate} {spec : PodGroupSpec}
    (h : lib.newPodGroup opts tmpl = .ok spec) : spec = tmpl.podGroup

end JobSetOperator
