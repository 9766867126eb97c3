import JobSetOperator.Library.Services
import JobSetOperator.Scheduling.Sources

/-!
# Workloads and PodGroups

`reconcileSchedulingObjects`, `deleteSchedulingObjects` and `schedulingObjectsReady`
as programs over their API calls, with the two comparisons that decide whether
an object has drifted. The API server is a service: it stores what it is sent up
to the fields it owns, and any call may fail, before or after it took effect.
-/
namespace JobSetOperator

open Library

/-! ## Calls -/

/-- What a read of an object returns. -/
inductive Lookup (α : Type)
  | found (object : α)
  | notFound
  | failed (err : String)
  deriving DecidableEq, Repr

inductive Creation
  | created
  | alreadyExists
  | failed (err : String)
  deriving DecidableEq, Repr

inductive Deletion
  | deleted
  | notFound
  | failed (err : String)
  deriving DecidableEq, Repr

/-- An object of the cluster; `controlled` says that the JobSet is its controller. -/
structure Stored (α : Type) where
  spec : α
  controlled : Bool
  deletionTimestamp : Option Time
  deriving DecidableEq, Repr

/-- An object the JobSet controls and nobody deletes. -/
def Stored.live {α : Type} (spec : α) : Stored α := ⟨spec, true, none⟩

/-- The calls. PodGroups are listed by the label with the name of the JobSet. -/
inductive SchedulingRequest
  | getWorkload (name : String)
  | createWorkload (name : String) (spec : WorkloadSpec)
  | updateWorkload (name : String) (spec : WorkloadSpec)
  | deleteWorkload (name : String)
  | listPodGroups (jobSetName : String)
  | getPodGroup (name : String)
  | createPodGroup (name : String) (spec : PodGroupSpec)
  | updatePodGroup (name : String) (spec : PodGroupSpec)
  | deletePodGroup (name : String)
  deriving DecidableEq

def SchedulingRequest.Response : SchedulingRequest → Type
  | .getWorkload _ => Lookup (Stored WorkloadSpec)
  | .createWorkload _ _ => Creation
  | .updateWorkload _ _ => Except String Unit
  | .deleteWorkload _ => Deletion
  | .listPodGroups _ => Except String (List (String × Stored PodGroupSpec))
  | .getPodGroup _ => Lookup (Stored PodGroupSpec)
  | .createPodGroup _ _ => Creation
  | .updatePodGroup _ _ => Except String Unit
  | .deletePodGroup _ => Deletion

abbrev SchedulingProg (α : Type) := Program SchedulingRequest SchedulingRequest.Response String α

def SchedulingRequest.isRead : SchedulingRequest → Bool
  | .getWorkload _ | .listPodGroups _ | .getPodGroup _ => true
  | _ => false

def SchedulingRequest.isUpdate : SchedulingRequest → Bool
  | .updateWorkload _ _ | .updatePodGroup _ _ => true
  | _ => false

def SchedulingRequest.isDelete : SchedulingRequest → Bool
  | .deleteWorkload _ | .deletePodGroup _ => true
  | _ => false

def SchedulingRequest.send (r : SchedulingRequest) : SchedulingProg r.Response := Program.ask r

/-- The program with another text for its errors. -/
def mapFailure {α : Type} (f : String → String) : SchedulingProg α → SchedulingProg α
  | .done a => .done a
  | .fail err => .fail (f err)
  | .call r k => .call r fun x => mapFailure f (k x)

/-- Continue with a computed value, or end with the error after the text. -/
def orFail {α : Type} (text : String) : Except String α → SchedulingProg α
  | .ok a => .done a
  | .error err => .fail (text ++ err)

/-! ## Comparisons -/

/-- The policy with a minimum of zero. -/
def PodGroupPolicy.zeroMinCount (policy : PodGroupPolicy) : PodGroupPolicy :=
  { policy with gang := policy.gang.map fun _ => 0 }

/-- `podGroupTemplatesEqualIgnoringMinCount`. -/
def podGroupTemplatesEqualIgnoringMinCount (existing desired : PodGroupTemplate) : Bool :=
  let e := { existing with schedulingPolicy := existing.schedulingPolicy.zeroMinCount }
  let d := { desired with
    schedulingPolicy := desired.schedulingPolicy.zeroMinCount
    schedulingConstraints :=
      if e.schedulingConstraints.isNone then none else desired.schedulingConstraints
    resourceClaims := if e.resourceClaims = [] then [] else desired.resourceClaims }
  e = d

/-- The loop of `workloadNeedsRecreation`. -/
def templatesDiffer : List PodGroupTemplate → List PodGroupTemplate → Bool
  | e :: existing, d :: desired =>
    decide (e.name ≠ d.name) || !podGroupTemplatesEqualIgnoringMinCount e d ||
      templatesDiffer existing desired
  | _, _ => false

/-- `workloadNeedsRecreation`. -/
def workloadNeedsRecreation (existing desired : WorkloadSpec) : Bool :=
  decide (existing.podGroupTemplates.length ≠ desired.podGroupTemplates.length) ||
    templatesDiffer existing.podGroupTemplates desired.podGroupTemplates

/-- The existing policy with the desired minimum, when both are gangs. -/
def PodGroupPolicy.patchMinCount (existing desired : PodGroupPolicy) : PodGroupPolicy :=
  match existing.gang, desired.gang with
  | some _, some minCount => { existing with gang := some minCount }
  | _, _ => existing

/-- Both are gangs, with different minimums. -/
def PodGroupPolicy.minCountDiffers (existing desired : PodGroupPolicy) : Bool :=
  match existing.gang, desired.gang with
  | some e, some d => e ≠ d
  | _, _ => false

def PodGroupTemplate.patchMinCount (existing desired : PodGroupTemplate) : PodGroupTemplate :=
  { existing with
    schedulingPolicy := existing.schedulingPolicy.patchMinCount desired.schedulingPolicy }

def PodGroupSpec.patchMinCount (existing desired : PodGroupSpec) : PodGroupSpec :=
  { existing with
    schedulingPolicy := existing.schedulingPolicy.patchMinCount desired.schedulingPolicy }

/-- The templates with the desired minimums; the lists have the same length. -/
def patchTemplates (existing desired : List PodGroupTemplate) : List PodGroupTemplate :=
  existing.zipWith PodGroupTemplate.patchMinCount desired

/-- `workloadWithPatchedMinCounts`. -/
def workloadWithPatchedMinCounts (existing desired : WorkloadSpec) : WorkloadSpec × Bool :=
  ({ existing with
      podGroupTemplates := patchTemplates existing.podGroupTemplates desired.podGroupTemplates },
    (existing.podGroupTemplates.zip desired.podGroupTemplates).any fun (e, d) =>
      e.schedulingPolicy.minCountDiffers d.schedulingPolicy)

/-- `podGroupSpecsEqualIgnoringMinCount`. -/
def podGroupSpecsEqualIgnoringMinCount (existing desired : PodGroupSpec) : Bool :=
  let e := { existing with
    schedulingPolicy := existing.schedulingPolicy.zeroMinCount
    priority := if desired.priority.isNone then none else existing.priority
    preemptionPolicy := if desired.preemptionPolicy.isNone then none else existing.preemptionPolicy
    disruptionMode := if desired.disruptionMode.isNone then none else existing.disruptionMode
    priorityClassName := if desired.priorityClassName = "" then "" else existing.priorityClassName }
  let d := { desired with
    schedulingPolicy := desired.schedulingPolicy.zeroMinCount
    schedulingConstraints :=
      if existing.schedulingConstraints.isNone then none else desired.schedulingConstraints
    resourceClaims := if existing.resourceClaims = [] then [] else desired.resourceClaims }
  e = d

/-! ## Deleting -/

def deletePodGroups : List (String × Stored PodGroupSpec) → SchedulingProg Unit
  | [] => .done ()
  | (name, podGroup) :: rest =>
    if !podGroup.controlled then deletePodGroups rest
    else do
      let answer : Deletion ← (SchedulingRequest.deletePodGroup name).send
      match answer with
      | .failed err => .fail ("deleting PodGroup " ++ name ++ ": " ++ err)
      | _ => deletePodGroups rest

/-- The Workload is deleted if the JobSet controls it. -/
def deleteOwnWorkload (name : String) : SchedulingProg Unit := do
  let lookup : Lookup (Stored WorkloadSpec) ← (SchedulingRequest.getWorkload name).send
  match lookup with
  | .notFound => pure ()
  | .failed err => .fail ("getting Workload " ++ name ++ ": " ++ err)
  | .found workload =>
    if !workload.controlled then pure ()
    else do
      let answer : Deletion ← (SchedulingRequest.deleteWorkload name).send
      match answer with
      | .failed err => .fail ("deleting Workload " ++ name ++ ": " ++ err)
      | _ => pure ()

/-- `deleteSchedulingObjects`. -/
def deleteSchedulingObjects (platform : Platform) (js : JobSet) : SchedulingProg Unit := do
  let listed : Except String (List (String × Stored PodGroupSpec)) ←
    (SchedulingRequest.listPodGroups js.name).send
  let podGroups ← orFail "listing PodGroups: " listed
  deletePodGroups podGroups
  deleteOwnWorkload (workloadName platform js)

def deleteStaleObjects (platform : Platform) (js : JobSet) : SchedulingProg Unit :=
  mapFailure ("deleting stale scheduling objects: " ++ ·) (deleteSchedulingObjects platform js)

/-! ## Reconciling -/

/-- `klog.KObj`. -/
def kObj (inNamespace name : String) : String := inNamespace ++ "/" ++ name

/-- A Workload that exists: whether the pass goes on to the PodGroups. -/
def reconcileExistingWorkload (platform : Platform) (js : JobSet)
    (existing : Stored WorkloadSpec) (desired : WorkloadSpec) : SchedulingProg Bool :=
  let name := workloadName platform js
  if !existing.controlled then
    .fail ("workload " ++ kObj js.inNamespace name ++
      " already exists and is not controlled by JobSet " ++ kObj js.inNamespace js.name)
  else if existing.deletionTimestamp.isSome then .done false
  else if workloadNeedsRecreation existing.spec desired then do
    deleteStaleObjects platform js
    pure false
  else if (workloadWithPatchedMinCounts existing.spec desired).2 then do
    let outcome : Except String Unit ← (SchedulingRequest.updateWorkload name
      (workloadWithPatchedMinCounts existing.spec desired).1).send
    orFail "patching Workload minCount: " outcome
    pure true
  else .done true

/-- The Workload, and whether the pass goes on to the PodGroups. -/
def reconcileWorkload (platform : Platform) (js : JobSet) (desired : WorkloadSpec) :
    SchedulingProg Bool := do
  let name := workloadName platform js
  let lookup : Lookup (Stored WorkloadSpec) ← (SchedulingRequest.getWorkload name).send
  match lookup with
  | .notFound => do
    let answer : Creation ← (SchedulingRequest.createWorkload name desired).send
    match answer with
    | .failed err => .fail ("creating Workload: " ++ err)
    | _ => pure true
  | .failed err => .fail ("getting Workload: " ++ err)
  | .found existing => reconcileExistingWorkload platform js existing desired

/-- A PodGroup that exists: whether the loop goes on. -/
def reconcileExistingPodGroup (platform : Platform) (js : JobSet) (pgName : String)
    (existing : Stored PodGroupSpec) (desired : PodGroupSpec) : SchedulingProg Bool :=
  if !existing.controlled then
    .fail ("podgroup " ++ kObj js.inNamespace pgName ++
      " already exists and is not controlled by JobSet " ++ kObj js.inNamespace js.name)
  else if existing.deletionTimestamp.isSome then .done false
  else if !podGroupSpecsEqualIgnoringMinCount existing.spec desired then do
    deleteStaleObjects platform js
    pure false
  else if existing.spec.schedulingPolicy.minCountDiffers desired.schedulingPolicy then do
    let outcome : Except String Unit ←
      (SchedulingRequest.updatePodGroup pgName (existing.spec.patchMinCount desired)).send
    orFail ("patching PodGroup " ++ pgName ++ " minCount: ") outcome
    pure true
  else .done true

/-- One PodGroup, and whether the loop goes on. -/
def reconcilePodGroup (platform : Platform) (lib : BuilderLibrary) (js : JobSet)
    (tmpl : PodGroupTemplate) : SchedulingProg Bool := do
  let pgName := schedulingPodGroupName platform js tmpl.name
  let desired ← orFail ("materializing PodGroup " ++ pgName ++ ": ")
    (lib.newPodGroup (buildOpts platform js) tmpl)
  let lookup : Lookup (Stored PodGroupSpec) ← (SchedulingRequest.getPodGroup pgName).send
  match lookup with
  | .notFound => do
    let answer : Creation ← (SchedulingRequest.createPodGroup pgName desired).send
    match answer with
    | .failed err => .fail ("creating PodGroup " ++ pgName ++ ": " ++ err)
    | _ => pure true
  | .failed err => .fail ("getting PodGroup " ++ pgName ++ ": " ++ err)
  | .found existing => reconcileExistingPodGroup platform js pgName existing desired

def reconcilePodGroups (platform : Platform) (lib : BuilderLibrary) (js : JobSet) :
    List PodGroupTemplate → SchedulingProg Unit
  | [] => .done ()
  | tmpl :: rest => do
    let goOn ← reconcilePodGroup platform lib js tmpl
    if goOn then reconcilePodGroups platform lib js rest else pure ()

/-- `reconcileSchedulingObjects`. -/
def reconcileSchedulingObjects (platform : Platform) (lib : BuilderLibrary) (js : JobSet)
    (scheduling : JobSetScheduling) : SchedulingProg Unit := do
  let workload ← orFail "building Workload: " (buildWorkload platform lib js scheduling)
  let goOn ← reconcileWorkload platform js workload
  if goOn then reconcilePodGroups platform lib js workload.podGroupTemplates else pure ()

/-- The loop of `schedulingObjectsReady`. -/
def podGroupsReady (platform : Platform) (js : JobSet) : List PodGroupTemplate → SchedulingProg Bool
  | [] => .done true
  | tmpl :: rest => do
    let pgName := schedulingPodGroupName platform js tmpl.name
    let lookup : Lookup (Stored PodGroupSpec) ← (SchedulingRequest.getPodGroup pgName).send
    match lookup with
    | .notFound => pure false
    | .failed err => .fail ("checking PodGroup " ++ pgName ++ " existence: " ++ err)
    | .found podGroup =>
      if podGroup.deletionTimestamp.isSome then pure false
      else podGroupsReady platform js rest

/-- `schedulingObjectsReady`. -/
def schedulingObjectsReady (platform : Platform) (lib : BuilderLibrary) (js : JobSet)
    (scheduling : JobSetScheduling) : SchedulingProg Bool := do
  let workload ← orFail "building Workload: " (buildWorkload platform lib js scheduling)
  let lookup : Lookup (Stored WorkloadSpec) ←
    (SchedulingRequest.getWorkload (workloadName platform js)).send
  match lookup with
  | .notFound => pure false
  | .failed err => .fail ("checking Workload existence: " ++ err)
  | .found existing =>
    if existing.deletionTimestamp.isSome then pure false
    else podGroupsReady platform js workload.podGroupTemplates

end JobSetOperator
