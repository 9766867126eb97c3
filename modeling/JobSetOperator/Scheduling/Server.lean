import JobSetOperator.Scheduling.Objects

/-!
# The API server and the fields it owns

The server fills the fields of a PodGroup that were left unset and may drop
constraints and claims whose feature gate is off. `Normalizes` is what it may
store of what it was sent. An object holds a desired one if it is stored from it
up to the minimum of the gang; the two comparisons of the operator see no drift
then, and the patched minimum is the desired one.
-/
namespace JobSetOperator

open Library

/-! ## What the server stores -/

structure SchedulingStore where
  workloads : String → Option (Stored WorkloadSpec)
  podGroups : String → Option (Stored PodGroupSpec)

/-- A template as the server stores it: constraints and claims may be dropped. -/
structure PodGroupTemplate.Normalizes (sent stored : PodGroupTemplate) : Prop where
  name : stored.name = sent.name
  schedulingPolicy : stored.schedulingPolicy = sent.schedulingPolicy
  disruptionMode : stored.disruptionMode = sent.disruptionMode
  priorityClassName : stored.priorityClassName = sent.priorityClassName
  schedulingConstraints : stored.schedulingConstraints = none ∨
    stored.schedulingConstraints = sent.schedulingConstraints
  resourceClaims : stored.resourceClaims = [] ∨ stored.resourceClaims = sent.resourceClaims

structure WorkloadSpec.Normalizes (sent stored : WorkloadSpec) : Prop where
  controllerRef : stored.controllerRef = sent.controllerRef
  templates : List.Forall₂ PodGroupTemplate.Normalizes sent.podGroupTemplates
    stored.podGroupTemplates

/-- A PodGroup as the server stores it: what was unset may be filled as well. -/
structure PodGroupSpec.Normalizes (sent stored : PodGroupSpec) : Prop where
  schedulingPolicy : stored.schedulingPolicy = sent.schedulingPolicy
  schedulingConstraints : stored.schedulingConstraints = none ∨
    stored.schedulingConstraints = sent.schedulingConstraints
  resourceClaims : stored.resourceClaims = [] ∨ stored.resourceClaims = sent.resourceClaims
  disruptionMode : sent.disruptionMode = none ∨ stored.disruptionMode = sent.disruptionMode
  priorityClassName : sent.priorityClassName = "" ∨
    stored.priorityClassName = sent.priorityClassName
  priority : sent.priority = none ∨ stored.priority = sent.priority
  preemptionPolicy : sent.preemptionPolicy = none ∨ stored.preemptionPolicy = sent.preemptionPolicy

/-! ## Up to the minimum -/

/-- The policies are of the same kind. -/
def PodGroupPolicy.Alike (a b : PodGroupPolicy) : Prop := a.zeroMinCount = b.zeroMinCount

theorem PodGroupPolicy.Alike.patch {existing desired : PodGroupPolicy}
    (h : existing.Alike desired) : existing.patchMinCount desired = desired := by
  obtain ⟨eb, eg⟩ := existing
  obtain ⟨db, dg⟩ := desired
  unfold Alike zeroMinCount at h
  cases eg <;> cases dg <;> simp_all [patchMinCount]

theorem PodGroupPolicy.Alike.eq_of_same {existing desired : PodGroupPolicy}
    (h : existing.Alike desired) (hsame : existing.minCountDiffers desired = false) :
    existing = desired := by
  obtain ⟨eb, eg⟩ := existing
  obtain ⟨db, dg⟩ := desired
  unfold Alike zeroMinCount at h
  cases eg <;> cases dg <;> simp_all [minCountDiffers]

theorem PodGroupPolicy.minCountDiffers_self (policy : PodGroupPolicy) :
    policy.minCountDiffers policy = false := by
  obtain ⟨basic, gang⟩ := policy
  cases gang <;> simp [minCountDiffers]

/-- The stored template is the desired one up to the server and the minimum. -/
structure PodGroupTemplate.Holds (desired stored : PodGroupTemplate) : Prop where
  alike : stored.schedulingPolicy.Alike desired.schedulingPolicy
  normalizes : { desired with schedulingPolicy := stored.schedulingPolicy }.Normalizes stored

/-- The stored PodGroup is the desired one up to the server and the minimum. -/
structure PodGroupSpec.Holds (desired stored : PodGroupSpec) : Prop where
  alike : stored.schedulingPolicy.Alike desired.schedulingPolicy
  normalizes : { desired with schedulingPolicy := stored.schedulingPolicy }.Normalizes stored

theorem PodGroupTemplate.Normalizes.holds {desired stored : PodGroupTemplate}
    (h : desired.Normalizes stored) : desired.Holds stored where
  alike := congrArg PodGroupPolicy.zeroMinCount h.schedulingPolicy
  normalizes := ⟨h.name, rfl, h.disruptionMode, h.priorityClassName, h.schedulingConstraints,
    h.resourceClaims⟩

theorem PodGroupSpec.Normalizes.holds {desired stored : PodGroupSpec}
    (h : desired.Normalizes stored) : desired.Holds stored where
  alike := congrArg PodGroupPolicy.zeroMinCount h.schedulingPolicy
  normalizes := ⟨rfl, h.schedulingConstraints, h.resourceClaims, h.disruptionMode,
    h.priorityClassName, h.priority, h.preemptionPolicy⟩

section Fields

variable {α : Type}

/-- A field the server fills is compared only where it was set. -/
theorem eq_of_filled {sent stored : Option α} (h : sent = none ∨ stored = sent) :
    (if sent.isNone then none else stored) = sent := by
  rcases h with h | h
  · simp [h]
  · rw [h]
    cases sent <;> rfl

theorem eq_of_filled_text {sent stored : String} (h : sent = "" ∨ stored = sent) :
    (if sent = "" then "" else stored) = sent := by
  rcases h with h | h
  · simp [h]
  · rw [h]
    split_ifs with hempty
    · exact hempty.symm
    · rfl

/-- A field the server drops is compared only where it was kept. -/
theorem eq_of_dropped {sent stored : Option α} (h : stored = none ∨ stored = sent) :
    stored = if stored.isNone then none else sent := by
  rcases h with h | h
  · simp [h]
  · rw [h]
    cases sent <;> rfl

theorem eq_of_dropped_list [DecidableEq α] {sent stored : List α}
    (h : stored = [] ∨ stored = sent) : stored = if stored = [] then [] else sent := by
  rcases h with h | h
  · simp [h]
  · rw [h]
    split_ifs with hnil
    · exact hnil
    · rfl

/-- What is set stays set. -/
theorem filled_trans {unset sent stored stored' : α} (h : sent = unset ∨ stored = sent)
    (h' : stored = unset ∨ stored' = stored) : sent = unset ∨ stored' = sent := by
  rcases h with h | h
  · exact Or.inl h
  · rwa [h] at h'

/-- What is dropped stays dropped. -/
theorem dropped_trans {unset sent stored stored' : α} (h : stored = unset ∨ stored = sent)
    (h' : stored' = unset ∨ stored' = stored) : stored' = unset ∨ stored' = sent := by
  rcases h' with h' | h'
  · exact Or.inl h'
  · rwa [h']

end Fields

/-- No drift is seen in a template that holds the desired one. -/
theorem PodGroupTemplate.Holds.equal {desired stored : PodGroupTemplate}
    (h : desired.Holds stored) : podGroupTemplatesEqualIgnoringMinCount stored desired = true := by
  have hold := h.normalizes
  unfold podGroupTemplatesEqualIgnoringMinCount
  rw [decide_eq_true_eq, PodGroupTemplate.mk.injEq]
  exact ⟨hold.name, h.alike, eq_of_dropped hold.schedulingConstraints,
    eq_of_dropped_list hold.resourceClaims, hold.disruptionMode, hold.priorityClassName⟩

/-- No drift is seen in a PodGroup that holds the desired one. -/
theorem PodGroupSpec.Holds.equal {desired stored : PodGroupSpec}
    (h : desired.Holds stored) : podGroupSpecsEqualIgnoringMinCount stored desired = true := by
  have hold := h.normalizes
  unfold podGroupSpecsEqualIgnoringMinCount
  rw [decide_eq_true_eq, PodGroupSpec.mk.injEq]
  exact ⟨h.alike, eq_of_dropped hold.schedulingConstraints, eq_of_dropped_list hold.resourceClaims,
    eq_of_filled hold.disruptionMode, eq_of_filled_text hold.priorityClassName,
    eq_of_filled hold.priority, eq_of_filled hold.preemptionPolicy⟩

/-- A template that is stored after its minimum was patched is the desired one. -/
theorem PodGroupTemplate.Holds.patched {desired stored stored' : PodGroupTemplate}
    (h : desired.Holds stored)
    (hsent : (stored.patchMinCount desired).Normalizes stored') :
    desired.Normalizes stored' := by
  have hold := h.normalizes
  exact ⟨hsent.name.trans hold.name, hsent.schedulingPolicy.trans h.alike.patch,
    hsent.disruptionMode.trans hold.disruptionMode,
    hsent.priorityClassName.trans hold.priorityClassName,
    dropped_trans hold.schedulingConstraints hsent.schedulingConstraints,
    dropped_trans hold.resourceClaims hsent.resourceClaims⟩

/-- A PodGroup that is stored after its minimum was patched is the desired one. -/
theorem PodGroupSpec.Holds.patched {desired stored stored' : PodGroupSpec}
    (h : desired.Holds stored)
    (hsent : (stored.patchMinCount desired).Normalizes stored') :
    desired.Normalizes stored' := by
  have hold := h.normalizes
  exact ⟨hsent.schedulingPolicy.trans h.alike.patch,
    dropped_trans hold.schedulingConstraints hsent.schedulingConstraints,
    dropped_trans hold.resourceClaims hsent.resourceClaims,
    filled_trans hold.disruptionMode hsent.disruptionMode,
    filled_trans hold.priorityClassName hsent.priorityClassName,
    filled_trans hold.priority hsent.priority,
    filled_trans hold.preemptionPolicy hsent.preemptionPolicy⟩

/-- With the same minimum a template that holds the desired one is stored from it. -/
theorem PodGroupTemplate.Holds.exact {desired stored : PodGroupTemplate} (h : desired.Holds stored)
    (hsame : stored.schedulingPolicy.minCountDiffers desired.schedulingPolicy = false) :
    desired.Normalizes stored :=
  ⟨h.normalizes.name, h.alike.eq_of_same hsame, h.normalizes.disruptionMode,
    h.normalizes.priorityClassName, h.normalizes.schedulingConstraints, h.normalizes.resourceClaims⟩

theorem PodGroupSpec.Holds.exact {desired stored : PodGroupSpec} (h : desired.Holds stored)
    (hsame : stored.schedulingPolicy.minCountDiffers desired.schedulingPolicy = false) :
    desired.Normalizes stored :=
  ⟨h.alike.eq_of_same hsame, h.normalizes.schedulingConstraints, h.normalizes.resourceClaims,
    h.normalizes.disruptionMode, h.normalizes.priorityClassName, h.normalizes.priority,
    h.normalizes.preemptionPolicy⟩

/-! ## Lists of templates -/

theorem templatesDiffer_of_holds {desired stored : List PodGroupTemplate}
    (h : List.Forall₂ PodGroupTemplate.Holds desired stored) :
    templatesDiffer stored desired = false := by
  induction h with
  | nil => rfl
  | cons hfirst _ ih =>
    unfold templatesDiffer
    rw [hfirst.equal, hfirst.normalizes.name, ih]
    simp

/-- Templates that hold the desired ones need no recreation. -/
theorem not_workloadNeedsRecreation {desired stored : WorkloadSpec}
    (h : List.Forall₂ PodGroupTemplate.Holds desired.podGroupTemplates stored.podGroupTemplates) :
    workloadNeedsRecreation stored desired = false := by
  unfold workloadNeedsRecreation
  rw [templatesDiffer_of_holds h, h.length_eq]
  simp

/-- Templates whose minimums were patched are stored from the desired ones. -/
theorem normalizes_of_patched {desired stored stored' : List PodGroupTemplate}
    (h : List.Forall₂ PodGroupTemplate.Holds desired stored)
    (hsent : List.Forall₂ PodGroupTemplate.Normalizes (patchTemplates stored desired) stored') :
    List.Forall₂ PodGroupTemplate.Normalizes desired stored' := by
  induction h generalizing stored' with
  | nil => exact hsent
  | cons hfirst _ ih =>
    cases hsent with
    | cons hsentFirst hsentRest => exact List.Forall₂.cons (hfirst.patched hsentFirst) (ih hsentRest)

/-- Templates without a minimum to patch are stored from the desired ones. -/
theorem normalizes_of_unpatched {desired stored : List PodGroupTemplate}
    (h : List.Forall₂ PodGroupTemplate.Holds desired stored)
    (hsame : ((stored.zip desired).any fun (e, d) =>
      e.schedulingPolicy.minCountDiffers d.schedulingPolicy) = false) :
    List.Forall₂ PodGroupTemplate.Normalizes desired stored := by
  induction h with
  | nil => exact List.Forall₂.nil
  | cons hfirst _ ih =>
    rw [List.zip_cons_cons, List.any_cons, Bool.or_eq_false_iff] at hsame
    exact List.Forall₂.cons (hfirst.exact hsame.1) (ih hsame.2)

theorem unpatched_of_normalizes {desired stored : List PodGroupTemplate}
    (h : List.Forall₂ PodGroupTemplate.Normalizes desired stored) :
    ((stored.zip desired).any fun (e, d) =>
      e.schedulingPolicy.minCountDiffers d.schedulingPolicy) = false := by
  induction h with
  | nil => rfl
  | cons hfirst _ ih =>
    rw [List.zip_cons_cons, List.any_cons, ih]
    dsimp only
    rw [hfirst.schedulingPolicy, PodGroupPolicy.minCountDiffers_self]
    rfl

/-! ## The service -/

/-- What a read returns. -/
def lookupOf {α : Type} : Option α → Lookup α
  | some object => .found object
  | none => .notFound

/-- The object at a name after a creation. -/
def Created {α : Type} (Normalizes : α → α → Prop) (sent : α) (before after : Option (Stored α)) :
    Prop :=
  before = none ∧ ∃ spec, Normalizes sent spec ∧ after = some (.live spec)

/-- The object at a name after an update of its spec. -/
def Updated {α : Type} (Normalizes : α → α → Prop) (sent : α) (before after : Option (Stored α)) :
    Prop :=
  ∃ old spec, before = some old ∧ Normalizes sent spec ∧ after = some { old with spec := spec }

/-- The object at a name after a deletion: a finalizer may hold it. -/
def Deleted {α : Type} (before after : Option (Stored α)) : Prop :=
  ∃ old, before = some old ∧ (after = none ∨ ∃ now, after = some { old with
    deletionTimestamp := some (old.deletionTimestamp.getD now) })

/-- One kind of object of the store. -/
structure Kind (α : Type) where
  get : SchedulingStore → String → Option (Stored α)
  set : SchedulingStore → String → Option (Stored α) → SchedulingStore
  get_set (s : SchedulingStore) (name : String) (after : Option (Stored α)) :
    get (set s name after) name = after
  set_get (s : SchedulingStore) (name : String) : set s name (get s name) = s

def workloads : Kind WorkloadSpec where
  get s name := s.workloads name
  set s name after := { s with workloads := Function.update s.workloads name after }
  get_set _ _ _ := Function.update_self ..
  set_get s name := by rw [Function.update_eq_self]

def podGroups : Kind PodGroupSpec where
  get s name := s.podGroups name
  set s name after := { s with podGroups := Function.update s.podGroups name after }
  get_set _ _ _ := Function.update_self ..
  set_get s name := by rw [Function.update_eq_self]

/-- An object of the store has changed. -/
def Kind.Changes {α : Type} (kind : Kind α) (s s' : SchedulingStore) (name : String)
    (change : Option (Stored α) → Option (Stored α) → Prop) : Prop :=
  ∃ after, change (kind.get s name) after ∧ s' = kind.set s name after

/-- A failed call, where calls may fail: the change may have been made all the same. -/
def Fails {Answer : Type} (faults : Prop) (s s' : SchedulingStore) (change : Prop)
    (failed : String → Answer) (x : Answer) : Prop :=
  faults ∧ (∃ err, x = failed err) ∧ (s' = s ∨ change)

/-- What the server answers and stores. -/
def serves (faults : Prop) (s : SchedulingStore) :
    (r : SchedulingRequest) → r.Response → SchedulingStore → Prop
  | .getWorkload name, x, s' => s' = s ∧
    (x = lookupOf (workloads.get s name) ∨ faults ∧ ∃ err, x = Lookup.failed err)
  | .createWorkload name spec, x, s' =>
    let change := workloads.Changes s s' name (Created WorkloadSpec.Normalizes spec)
    (x = Creation.created ∧ change) ∨
    (x = Creation.alreadyExists ∧ (workloads.get s name).isSome ∧ s' = s) ∨
    Fails faults s s' change Creation.failed x
  | .updateWorkload name spec, x, s' =>
    let change := workloads.Changes s s' name (Updated WorkloadSpec.Normalizes spec)
    (x = Except.ok () ∧ change) ∨
    ((∃ err, x = Except.error err) ∧ workloads.get s name = none ∧ s' = s) ∨
    Fails faults s s' change Except.error x
  | .deleteWorkload name, x, s' =>
    let change := workloads.Changes s s' name Deleted
    (x = Deletion.deleted ∧ change) ∨
    (x = Deletion.notFound ∧ workloads.get s name = none ∧ s' = s) ∨
    Fails faults s s' change Deletion.failed x
  | .listPodGroups _, x, s' => s' = s ∧
    ((∃ l, x = Except.ok l ∧ ∀ e ∈ l, podGroups.get s e.1 = some e.2) ∨
      faults ∧ ∃ err, x = Except.error err)
  | .getPodGroup name, x, s' => s' = s ∧
    (x = lookupOf (podGroups.get s name) ∨ faults ∧ ∃ err, x = Lookup.failed err)
  | .createPodGroup name spec, x, s' =>
    let change := podGroups.Changes s s' name (Created PodGroupSpec.Normalizes spec)
    (x = Creation.created ∧ change) ∨
    (x = Creation.alreadyExists ∧ (podGroups.get s name).isSome ∧ s' = s) ∨
    Fails faults s s' change Creation.failed x
  | .updatePodGroup name spec, x, s' =>
    let change := podGroups.Changes s s' name (Updated PodGroupSpec.Normalizes spec)
    (x = Except.ok () ∧ change) ∨
    ((∃ err, x = Except.error err) ∧ podGroups.get s name = none ∧ s' = s) ∨
    Fails faults s s' change Except.error x
  | .deletePodGroup name, x, s' =>
    let change := podGroups.Changes s s' name Deleted
    (x = Deletion.deleted ∧ change) ∨
    (x = Deletion.notFound ∧ podGroups.get s name = none ∧ s' = s) ∨
    Fails faults s s' change Deletion.failed x

theorem PodGroupTemplate.Normalizes.refl (tmpl : PodGroupTemplate) : tmpl.Normalizes tmpl :=
  ⟨rfl, rfl, rfl, rfl, Or.inr rfl, Or.inr rfl⟩

theorem WorkloadSpec.Normalizes.refl (spec : WorkloadSpec) : spec.Normalizes spec :=
  ⟨rfl, List.forall₂_same.mpr fun tmpl _ => PodGroupTemplate.Normalizes.refl tmpl⟩

theorem PodGroupSpec.Normalizes.refl (spec : PodGroupSpec) : spec.Normalizes spec :=
  ⟨rfl, Or.inr rfl, Or.inr rfl, Or.inr rfl, Or.inr rfl, Or.inr rfl, Or.inr rfl⟩

/-- A server that stores what it is sent and refuses nothing. -/
def serve (s : SchedulingStore) : (r : SchedulingRequest) → r.Response × SchedulingStore
  | .getWorkload name => (lookupOf (workloads.get s name), s)
  | .createWorkload name spec =>
    match workloads.get s name with
    | none => (Creation.created, workloads.set s name (some (.live spec)))
    | some _ => (Creation.alreadyExists, s)
  | .updateWorkload name spec =>
    match workloads.get s name with
    | none => (Except.error "not found", s)
    | some old => (Except.ok (), workloads.set s name (some { old with spec := spec }))
  | .deleteWorkload name =>
    match workloads.get s name with
    | none => (Deletion.notFound, s)
    | some _ => (Deletion.deleted, workloads.set s name none)
  | .listPodGroups _ => (Except.ok [], s)
  | .getPodGroup name => (lookupOf (podGroups.get s name), s)
  | .createPodGroup name spec =>
    match podGroups.get s name with
    | none => (Creation.created, podGroups.set s name (some (.live spec)))
    | some _ => (Creation.alreadyExists, s)
  | .updatePodGroup name spec =>
    match podGroups.get s name with
    | none => (Except.error "not found", s)
    | some old => (Except.ok (), podGroups.set s name (some { old with spec := spec }))
  | .deletePodGroup name =>
    match podGroups.get s name with
    | none => (Deletion.notFound, s)
    | some _ => (Deletion.deleted, podGroups.set s name none)

/-- The server has an answer to every call, also where none may fail. -/
theorem serves_serve (faults : Prop) (s : SchedulingStore) (r : SchedulingRequest) :
    serves faults s r (serve s r).1 (serve s r).2 := by
  cases r with
  | getWorkload name => exact ⟨rfl, Or.inl rfl⟩
  | createWorkload name spec =>
    cases h : workloads.get s name with
    | none =>
      simp only [serve, h]
      exact Or.inl ⟨rfl, _, ⟨h, spec, .refl spec, rfl⟩, rfl⟩
    | some old =>
      simp only [serve, h]
      exact Or.inr (Or.inl ⟨rfl, by rw [h]; rfl, rfl⟩)
  | updateWorkload name spec =>
    cases h : workloads.get s name with
    | none =>
      simp only [serve, h]
      exact Or.inr (Or.inl ⟨⟨_, rfl⟩, h, rfl⟩)
    | some old =>
      simp only [serve, h]
      exact Or.inl ⟨rfl, _, ⟨old, spec, h, .refl spec, rfl⟩, rfl⟩
  | deleteWorkload name =>
    cases h : workloads.get s name with
    | none =>
      simp only [serve, h]
      exact Or.inr (Or.inl ⟨rfl, h, rfl⟩)
    | some old =>
      simp only [serve, h]
      exact Or.inl ⟨rfl, _, ⟨old, h, Or.inl rfl⟩, rfl⟩
  | listPodGroups jobSetName => exact ⟨rfl, Or.inl ⟨[], rfl, by simp⟩⟩
  | getPodGroup name => exact ⟨rfl, Or.inl rfl⟩
  | createPodGroup name spec =>
    cases h : podGroups.get s name with
    | none =>
      simp only [serve, h]
      exact Or.inl ⟨rfl, _, ⟨h, spec, .refl spec, rfl⟩, rfl⟩
    | some old =>
      simp only [serve, h]
      exact Or.inr (Or.inl ⟨rfl, by rw [h]; rfl, rfl⟩)
  | updatePodGroup name spec =>
    cases h : podGroups.get s name with
    | none =>
      simp only [serve, h]
      exact Or.inr (Or.inl ⟨⟨_, rfl⟩, h, rfl⟩)
    | some old =>
      simp only [serve, h]
      exact Or.inl ⟨rfl, _, ⟨old, spec, h, .refl spec, rfl⟩, rfl⟩
  | deletePodGroup name =>
    cases h : podGroups.get s name with
    | none =>
      simp only [serve, h]
      exact Or.inr (Or.inl ⟨rfl, h, rfl⟩)
    | some old =>
      simp only [serve, h]
      exact Or.inl ⟨rfl, _, ⟨old, h, Or.inl rfl⟩, rfl⟩

end JobSetOperator
