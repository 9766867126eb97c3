import JobSetOperator.Scheduling.Server

/-!
# Scheduling objects at rest

A pass of `reconcileSchedulingObjects` that returns and has written nothing has
found every object up to date, or up to date as far as the first one that is being
deleted. `schedulingObjectsReady` tells the two apart.
-/
namespace JobSetOperator

open Library Library.Program

/-! ## Writes -/

def Creation.succeeded : Creation → Bool
  | .created => true
  | _ => false

def Deletion.succeeded : Deletion → Bool
  | .deleted => true
  | _ => false

/-- The server has acknowledged a write. -/
def SchedulingRequest.wrote : (r : SchedulingRequest) → r.Response → Bool
  | .createWorkload _ _, answer => Creation.succeeded answer
  | .createPodGroup _ _, answer => Creation.succeeded answer
  | .updateWorkload _ _, answer => Except.isOk answer
  | .updatePodGroup _ _, answer => Except.isOk answer
  | .deleteWorkload _, answer => Deletion.succeeded answer
  | .deletePodGroup _, answer => Deletion.succeeded answer
  | .getWorkload _, _ => false
  | .listPodGroups _, _ => false
  | .getPodGroup _, _ => false

/-- The server, and whether it has acknowledged a write. -/
def observes (s : SchedulingStore × Bool) (r : SchedulingRequest) (x : r.Response)
    (s' : SchedulingStore × Bool) : Prop :=
  serves True s.1 r x s'.1 ∧ s'.2 = (s.2 || r.wrote x)

/-! ## What a pass finds -/

/-- A step over an object that it neither writes nor refuses: whether the pass goes on. -/
def atRest {α : Type} (existing : Stored α) (upToDate : Bool) : Option Bool :=
  if !existing.controlled then none
  else if existing.deletionTimestamp.isSome then some false
  else if upToDate then some true
  else none

/-- The Workload needs neither a recreation nor a patch. -/
def WorkloadSpec.upToDate (existing desired : WorkloadSpec) : Bool :=
  !workloadNeedsRecreation existing desired && !(workloadWithPatchedMinCounts existing desired).2

/-- The PodGroup needs neither a recreation nor a patch. -/
def PodGroupSpec.upToDate (existing desired : PodGroupSpec) : Bool :=
  podGroupSpecsEqualIgnoringMinCount existing desired &&
    !existing.schedulingPolicy.minCountDiffers desired.schedulingPolicy

section AtRest

variable (platform : Platform) (lib : BuilderLibrary) (js : JobSet) (s : SchedulingStore)

/-- The PodGroups of a pass that writes none: whether all of them are in place. -/
def podGroupsAtRest : List PodGroupTemplate → Option Bool
  | [] => some true
  | tmpl :: rest =>
    match lib.newPodGroup (buildOpts platform js) tmpl,
        s.podGroups (schedulingPodGroupName platform js tmpl.name) with
    | .ok desired, some existing =>
      (atRest existing (existing.spec.upToDate desired)).bind fun goOn =>
        if goOn then podGroupsAtRest rest else some false
    | _, _ => none

/-- The objects of a pass that writes none: whether all of them are in place. -/
def objectsAtRest (scheduling : JobSetScheduling) : Option Bool :=
  match buildWorkload platform lib js scheduling, s.workloads (workloadName platform js) with
  | .ok desired, some existing =>
    (atRest existing (existing.spec.upToDate desired)).bind fun goOn =>
      if goOn then podGroupsAtRest platform lib js s desired.podGroupTemplates else some false
  | _, _ => none

end AtRest

section Passes

variable {platform : Platform} {lib : BuilderLibrary} {js : JobSet} {s s' : SchedulingStore}
  {f f' : Bool}

theorem reaches_mapFailure {σ α : Type} {serves : σ → (r : SchedulingRequest) → r.Response → σ → Prop}
    {text : String → String} {p : SchedulingProg α} {m m' : σ} {a : α} :
    Reaches serves m (mapFailure text p) a m' ↔ Reaches serves m p a m' := by
  induction p generalizing m with
  | done b => rfl
  | fail e => rfl
  | call r k ih => simp only [mapFailure, reaches_call, ih]

theorem reaches_orFail {σ α : Type} {serves : σ → (r : SchedulingRequest) → r.Response → σ → Prop}
    {text : String} {x : Except String α} {m m' : σ} {a : α} :
    Reaches serves m (orFail text x) a m' ↔ x = .ok a ∧ m' = m := by
  cases x with
  | ok b => simp [orFail, eq_comm]
  | error e => simp [orFail]

/-! ## Reads -/

/-- A read of a PodGroup that ends the pass when it fails. -/
theorem reaches_getPodGroup {α : Type} {name : String}
    {k : Lookup (Stored PodGroupSpec) → SchedulingProg α} {a : α} {m : SchedulingStore × Bool}
    (hk : ∀ err, ¬ Reaches observes (s, f) (k (.failed err)) a m) :
    Reaches observes (s, f) ((SchedulingRequest.getPodGroup name).send >>= k) a m ↔
      Reaches observes (s, f) (k (lookupOf (s.podGroups name))) a m := by
  constructor
  · intro h
    obtain ⟨lookup, ⟨s₁, f₁⟩, ⟨⟨rfl, hlookup⟩, hf⟩, hrest⟩ := h
    obtain rfl : f₁ = f := hf.trans (Bool.or_false f)
    rcases hlookup with rfl | ⟨-, err, rfl⟩
    · exact hrest
    · exact (hk err hrest).elim
  · intro h
    exact ⟨_, (s, f), ⟨⟨rfl, Or.inl rfl⟩, (Bool.or_false f).symm⟩, h⟩

/-- A read of a Workload that ends the pass when it fails. -/
theorem reaches_getWorkload {α : Type} {name : String}
    {k : Lookup (Stored WorkloadSpec) → SchedulingProg α} {a : α} {m : SchedulingStore × Bool}
    (hk : ∀ err, ¬ Reaches observes (s, f) (k (.failed err)) a m) :
    Reaches observes (s, f) ((SchedulingRequest.getWorkload name).send >>= k) a m ↔
      Reaches observes (s, f) (k (lookupOf (s.workloads name))) a m := by
  constructor
  · intro h
    obtain ⟨lookup, ⟨s₁, f₁⟩, ⟨⟨rfl, hlookup⟩, hf⟩, hrest⟩ := h
    obtain rfl : f₁ = f := hf.trans (Bool.or_false f)
    rcases hlookup with rfl | ⟨-, err, rfl⟩
    · exact hrest
    · exact (hk err hrest).elim
  · intro h
    exact ⟨_, (s, f), ⟨⟨rfl, Or.inl rfl⟩, (Bool.or_false f).symm⟩, h⟩

/-! ## Deleting stale objects -/

/-- Deleting PodGroups leaves the Workloads alone. -/
theorem workloads_of_deletePodGroups {l : List (String × Stored PodGroupSpec)}
    (h : Reaches observes (s, f) (deletePodGroups l) () (s', f')) : s'.workloads = s.workloads := by
  induction l generalizing s f with
  | nil =>
    obtain ⟨-, h⟩ := h
    cases h
    rfl
  | cons entry rest ih =>
    obtain ⟨name, podGroup⟩ := entry
    unfold deletePodGroups at h
    split_ifs at h with hcontrolled
    · exact ih h
    · obtain ⟨x, ⟨mid, g⟩, ⟨hserves, -⟩, h⟩ := h
      rcases hserves with ⟨rfl, after, -, rfl⟩ | ⟨rfl, -, rfl⟩ | ⟨-, ⟨err, rfl⟩, -⟩
      · have hrest : s'.workloads = (podGroups.set s name after).workloads := ih h
        exact hrest
      · exact ih h
      · exact h.elim

/-- The Workload the JobSet controls is deleted with the stale objects. -/
theorem deleteStaleObjects_writes {workload : Stored WorkloadSpec}
    (hw : s.workloads (workloadName platform js) = some workload)
    (hcontrolled : workload.controlled = true)
    (h : Reaches observes (s, f) (deleteStaleObjects platform js) () (s', f')) : f' = true := by
  unfold deleteStaleObjects deleteSchedulingObjects at h
  obtain ⟨listed, ⟨s₁, f₁⟩, ⟨⟨rfl, -⟩, -⟩, hlist⟩ := reaches_ask_bind.mp (reaches_mapFailure.mp h)
  obtain ⟨l, ⟨s₂, f₂⟩, hl, hpodGroups⟩ := reaches_bind.mp hlist
  obtain ⟨-, hsame⟩ := reaches_orFail.mp hl
  cases hsame
  obtain ⟨_, ⟨s₃, f₃⟩, hdelete, hown⟩ := reaches_bind.mp hpodGroups
  have hw₃ : s₃.workloads (workloadName platform js) = some workload := by
    rw [workloads_of_deletePodGroups hdelete]
    exact hw
  have hfound := (reaches_getWorkload fun _ => id).mp hown
  simp only [hw₃, lookupOf, hcontrolled, Bool.not_true, Bool.false_eq_true, if_false] at hfound
  obtain ⟨answer, ⟨s₄, f₄⟩, ⟨hserves, hf⟩, hend⟩ := reaches_ask_bind.mp hfound
  rcases hserves with ⟨rfl, -⟩ | ⟨-, hnone, -⟩ | ⟨-, ⟨err, rfl⟩, -⟩
  · obtain ⟨-, hend⟩ := hend
    cases hend
    exact hf.trans (by simp [SchedulingRequest.wrote, Deletion.succeeded])
  · cases hw₃.symm.trans hnone
  · exact hend.elim

/-! ## One object -/

/-- The JobSet controls the Workload of the store. -/
def ControlsWorkload (platform : Platform) (js : JobSet) (s : SchedulingStore) : Prop :=
  ∃ workload, s.workloads (workloadName platform js) = some workload ∧ workload.controlled = true

/-- A step that deletes the stale objects has written. -/
theorem not_reaches_stale {b : Bool} (hw : ControlsWorkload platform js s) :
    ¬ Reaches observes (s, false) (deleteStaleObjects platform js >>= fun _ => pure false) b
      (s', false) := by
  intro h
  obtain ⟨workload, hworkload, hcontrolled⟩ := hw
  obtain ⟨_, ⟨s₁, f₁⟩, hdelete, -, hend⟩ := reaches_bind.mp h
  have hwrote := deleteStaleObjects_writes hworkload hcontrolled hdelete
  cases hend
  cases hwrote

theorem reaches_reconcileExistingPodGroup {pgName : String} {existing : Stored PodGroupSpec}
    {desired : PodGroupSpec} {b : Bool} (hw : ControlsWorkload platform js s) :
    Reaches observes (s, false) (reconcileExistingPodGroup platform js pgName existing desired) b
      (s', false) ↔ atRest existing (existing.spec.upToDate desired) = some b ∧ s' = s := by
  unfold reconcileExistingPodGroup atRest PodGroupSpec.upToDate
  by_cases hcontrolled : existing.controlled = true
  swap
  · simp [hcontrolled]
  by_cases hterminating : existing.deletionTimestamp.isSome = true
  · simp [hcontrolled, hterminating, eq_comm]
  by_cases hequal : podGroupSpecsEqualIgnoringMinCount existing.spec desired = true
  swap
  · simpa [hcontrolled, hterminating, hequal] using not_reaches_stale hw
  by_cases hdiffers : existing.spec.schedulingPolicy.minCountDiffers desired.schedulingPolicy = true
  · simp only [hcontrolled, hterminating, hequal, hdiffers, Bool.not_true, Bool.false_eq_true,
      if_false, if_true, Bool.and_false, reduceCtorEq, false_and, iff_false]
    intro h
    obtain ⟨outcome, ⟨s₁, f₁⟩, ⟨-, hf⟩, hend⟩ := reaches_ask_bind.mp h
    obtain ⟨_, mid, hok, -, hend⟩ := reaches_bind.mp hend
    obtain ⟨rfl, rfl⟩ := reaches_orFail.mp hok
    cases hend
    cases hf
  · simp [hcontrolled, hterminating, hequal, hdiffers, eq_comm]

/-- A write stays noted. -/
theorem observed_of_runs {α : Type} {p : SchedulingProg α} {m m' : SchedulingStore × Bool}
    {t : List (Σ r : SchedulingRequest, r.Response)} {res : Except String α}
    (h : Runs observes m p t res m') (hwrote : m'.2 = false) : m.2 = false := by
  have hkept : m.2 = true → m'.2 = true := by
    apply Runs.preserves (R := fun m m' => m.2 = true → m'.2 = true) _ _ _ h
    · exact fun _ h => h
    · exact fun h h' hm => h' (h hm)
    · rintro m r x m' ⟨-, hf⟩ hm
      rw [hf, hm, Bool.true_or]
  by_contra hm
  rw [hkept (by simpa using hm)] at hwrote
  cases hwrote

/-- A run that writes nothing writes nothing in its first part. -/
theorem reaches_bind_unwritten {α β : Type} {p : SchedulingProg α} {k : α → SchedulingProg β}
    {b : β} : Reaches observes (s, f) (p >>= k) b (s', false) ↔
      ∃ a mid, Reaches observes (s, f) p a (mid, false) ∧
        Reaches observes (mid, false) (k a) b (s', false) := by
  rw [reaches_bind]
  constructor
  · rintro ⟨a, ⟨mid, g⟩, hp, hk⟩
    obtain ⟨t, hrun⟩ := reaches_iff_runs.mp hk
    obtain rfl : g = false := observed_of_runs hrun rfl
    exact ⟨a, mid, hp, hk⟩
  · rintro ⟨a, mid, hp, hk⟩
    exact ⟨a, (mid, false), hp, hk⟩

theorem reaches_reconcilePodGroup {tmpl : PodGroupTemplate} {b : Bool}
    (hw : ControlsWorkload platform js s) :
    Reaches observes (s, false) (reconcilePodGroup platform lib js tmpl) b (s', false) ↔
      ∃ desired existing, lib.newPodGroup (buildOpts platform js) tmpl = .ok desired ∧
        s.podGroups (schedulingPodGroupName platform js tmpl.name) = some existing ∧
        atRest existing (existing.spec.upToDate desired) = some b ∧ s' = s := by
  unfold reconcilePodGroup
  rw [reaches_bind_unwritten]
  constructor
  · rintro ⟨desired, mid, hmade, h⟩
    obtain ⟨hnew, hmid⟩ := reaches_orFail.mp hmade
    cases hmid
    have hfound := (reaches_getPodGroup fun _ => id).mp h
    cases hstored : s.podGroups (schedulingPodGroupName platform js tmpl.name) with
    | none =>
      -- a missing PodGroup is created
      simp only [hstored, lookupOf] at hfound
      obtain ⟨answer, ⟨s₁, f₁⟩, ⟨hserves, hf⟩, hend⟩ := reaches_ask_bind.mp hfound
      rcases hserves with ⟨rfl, -⟩ | ⟨-, hsome, -⟩ | ⟨-, ⟨err, rfl⟩, -⟩
      · obtain ⟨-, hend⟩ := hend
        cases hend
        cases hf
      · cases (congrArg Option.isSome hstored).symm.trans hsome
      · exact hend.elim
    | some existing =>
      simp only [hstored, lookupOf] at hfound
      obtain ⟨hrest, rfl⟩ := (reaches_reconcileExistingPodGroup hw).mp hfound
      exact ⟨desired, existing, hnew, rfl, hrest, rfl⟩
  · rintro ⟨desired, existing, hnew, hstored, hrest, rfl⟩
    refine ⟨desired, s', reaches_orFail.mpr ⟨hnew, rfl⟩, (reaches_getPodGroup fun _ => id).mpr ?_⟩
    simp only [hstored, lookupOf]
    exact (reaches_reconcileExistingPodGroup hw).mpr ⟨hrest, rfl⟩

/-- The loop over the PodGroups writes nothing exactly when they are at rest. -/
theorem reaches_reconcilePodGroups {templates : List PodGroupTemplate}
    (hw : ControlsWorkload platform js s) :
    Reaches observes (s, false) (reconcilePodGroups platform lib js templates) () (s', false) ↔
      (podGroupsAtRest platform lib js s templates).isSome = true ∧ s' = s := by
  induction templates with
  | nil => simp [reconcilePodGroups, podGroupsAtRest]
  | cons tmpl rest ih =>
    unfold reconcilePodGroups podGroupsAtRest
    rw [reaches_bind_unwritten]
    constructor
    · rintro ⟨goOn, mid, hfirst, h⟩
      obtain ⟨desired, existing, hnew, hstored, hrest, rfl⟩ := (reaches_reconcilePodGroup hw).mp hfirst
      simp only [hnew, hstored, hrest, Option.bind_some]
      cases goOn with
      | true => exact ih.mp h
      | false =>
        obtain ⟨-, hend⟩ := h
        cases hend
        exact ⟨rfl, rfl⟩
    · rintro ⟨hsome, rfl⟩
      cases hnew : lib.newPodGroup (buildOpts platform js) tmpl with
      | error err => simp [hnew] at hsome
      | ok desired =>
        cases hstored : s'.podGroups (schedulingPodGroupName platform js tmpl.name) with
        | none => simp [hnew, hstored] at hsome
        | some existing =>
          simp only [hnew, hstored] at hsome
          cases hrest : atRest existing (existing.spec.upToDate desired) with
          | none => simp [hrest] at hsome
          | some goOn =>
            have hfirst := (reaches_reconcilePodGroup hw).mpr
              ⟨desired, existing, hnew, hstored, hrest, rfl⟩
            refine ⟨goOn, s', hfirst, ?_⟩
            rw [hrest, Option.bind_some] at hsome
            cases goOn with
            | true => exact ih.mpr ⟨hsome, rfl⟩
            | false => exact ⟨rfl, rfl⟩

theorem controlled_of_atRest {α : Type} {existing : Stored α} {upToDate b : Bool}
    (h : atRest existing upToDate = some b) : existing.controlled = true := by
  by_contra hcontrolled
  simp [atRest, hcontrolled] at h

theorem reaches_reconcileExistingWorkload {existing : Stored WorkloadSpec} {desired : WorkloadSpec}
    {b : Bool} (hstored : s.workloads (workloadName platform js) = some existing) :
    Reaches observes (s, false) (reconcileExistingWorkload platform js existing desired) b
      (s', false) ↔ atRest existing (existing.spec.upToDate desired) = some b ∧ s' = s := by
  unfold reconcileExistingWorkload atRest WorkloadSpec.upToDate
  by_cases hcontrolled : existing.controlled = true
  swap
  · simp [hcontrolled]
  by_cases hterminating : existing.deletionTimestamp.isSome = true
  · simp [hcontrolled, hterminating, eq_comm]
  by_cases hdrift : workloadNeedsRecreation existing.spec desired = true
  · simpa [hcontrolled, hterminating, hdrift] using not_reaches_stale ⟨existing, hstored, hcontrolled⟩
  by_cases hpatch : (workloadWithPatchedMinCounts existing.spec desired).2 = true
  · simp only [hcontrolled, hterminating, hdrift, hpatch, Bool.not_true, Bool.false_eq_true,
      if_false, if_true, Bool.and_false, reduceCtorEq, false_and, iff_false]
    intro h
    obtain ⟨outcome, ⟨s₁, f₁⟩, ⟨-, hf⟩, hend⟩ := reaches_ask_bind.mp h
    obtain ⟨_, mid, hok, -, hend⟩ := reaches_bind.mp hend
    obtain ⟨rfl, rfl⟩ := reaches_orFail.mp hok
    cases hend
    cases hf
  · simp [hcontrolled, hterminating, hdrift, hpatch, eq_comm]

theorem reaches_reconcileWorkload {desired : WorkloadSpec} {b : Bool} :
    Reaches observes (s, false) (reconcileWorkload platform js desired) b (s', false) ↔
      ∃ existing, s.workloads (workloadName platform js) = some existing ∧
        atRest existing (existing.spec.upToDate desired) = some b ∧ s' = s := by
  unfold reconcileWorkload
  refine (reaches_getWorkload fun _ => id).trans ?_
  cases hstored : s.workloads (workloadName platform js) with
  | none =>
    -- a missing Workload is created
    simp only [lookupOf, reduceCtorEq, false_and, exists_false, iff_false]
    intro h
    obtain ⟨answer, ⟨s₁, f₁⟩, ⟨hserves, hf⟩, hend⟩ := reaches_ask_bind.mp h
    rcases hserves with ⟨rfl, -⟩ | ⟨-, hsome, -⟩ | ⟨-, ⟨err, rfl⟩, -⟩
    · obtain ⟨-, hend⟩ := hend
      cases hend
      cases hf
    · cases (congrArg Option.isSome hstored).symm.trans hsome
    · exact hend.elim
  | some existing =>
    simp only [lookupOf, Option.some.injEq, exists_eq_left']
    exact reaches_reconcileExistingWorkload hstored

/-! ## The pass and the check after it -/

/-- A pass writes nothing exactly when the objects are at rest. -/
theorem reaches_reconcileSchedulingObjects {scheduling : JobSetScheduling} :
    Reaches observes (s, false) (reconcileSchedulingObjects platform lib js scheduling) ()
      (s', false) ↔ (objectsAtRest platform lib js s scheduling).isSome = true ∧ s' = s := by
  unfold reconcileSchedulingObjects objectsAtRest
  rw [reaches_bind_unwritten]
  constructor
  · rintro ⟨desired, mid, hmade, h⟩
    obtain ⟨hbuild, hmid⟩ := reaches_orFail.mp hmade
    cases hmid
    obtain ⟨goOn, mid, hworkload, h⟩ := reaches_bind_unwritten.mp h
    obtain ⟨existing, hstored, hrest, rfl⟩ := reaches_reconcileWorkload.mp hworkload
    simp only [hbuild, hstored, hrest, Option.bind_some]
    cases goOn with
    | true =>
      exact (reaches_reconcilePodGroups ⟨existing, hstored, controlled_of_atRest hrest⟩).mp h
    | false =>
      obtain ⟨-, hend⟩ := h
      cases hend
      exact ⟨rfl, rfl⟩
  · rintro ⟨hsome, rfl⟩
    cases hbuild : buildWorkload platform lib js scheduling with
    | error err => simp [hbuild] at hsome
    | ok desired =>
      cases hstored : s'.workloads (workloadName platform js) with
      | none => simp [hbuild, hstored] at hsome
      | some existing =>
        simp only [hbuild, hstored] at hsome
        cases hrest : atRest existing (existing.spec.upToDate desired) with
        | none => simp [hrest] at hsome
        | some goOn =>
          refine ⟨desired, s', reaches_orFail.mpr ⟨rfl, rfl⟩, reaches_bind_unwritten.mpr ?_⟩
          refine ⟨goOn, s', reaches_reconcileWorkload.mpr ⟨existing, hstored, hrest, rfl⟩, ?_⟩
          rw [hrest, Option.bind_some] at hsome
          cases goOn with
          | true =>
            exact (reaches_reconcilePodGroups
              ⟨existing, hstored, controlled_of_atRest hrest⟩).mpr ⟨hsome, rfl⟩
          | false => exact ⟨rfl, rfl⟩

theorem terminating_of_atRest {α : Type} {existing : Stored α} {upToDate b : Bool}
    (h : atRest existing upToDate = some b) : existing.deletionTimestamp.isSome = !b := by
  have hcontrolled := controlled_of_atRest h
  by_cases hterminating : existing.deletionTimestamp.isSome = true
  · simp only [atRest, hcontrolled, hterminating, Bool.not_true, Bool.false_eq_true, if_false,
      if_true, Option.some.injEq] at h
    rw [hterminating, ← h]
    rfl
  · simp only [atRest, hcontrolled, hterminating, Bool.not_true, Bool.false_eq_true, if_false,
      Option.ite_none_right_eq_some, Option.some.injEq] at h
    rw [← h.2]
    simpa using hterminating

theorem reaches_podGroupsReady {templates : List PodGroupTemplate} {ready b : Bool}
    (h : podGroupsAtRest platform lib js s templates = some ready) :
    Reaches observes (s, false) (podGroupsReady platform js templates) b (s', f') ↔
      b = ready ∧ s' = s ∧ f' = false := by
  induction templates with
  | nil =>
    obtain rfl : true = ready := by simpa [podGroupsAtRest] using h
    simp [podGroupsReady]
  | cons tmpl rest ih =>
    unfold podGroupsAtRest at h
    cases hnew : lib.newPodGroup (buildOpts platform js) tmpl with
    | error err => simp [hnew] at h
    | ok desired =>
      cases hstored : s.podGroups (schedulingPodGroupName platform js tmpl.name) with
      | none => simp [hnew, hstored] at h
      | some existing =>
        cases hrest : atRest existing (existing.spec.upToDate desired) with
        | none => simp [hnew, hstored, hrest] at h
        | some goOn =>
          simp only [hnew, hstored, hrest, Option.bind_some] at h
          have hterminating := terminating_of_atRest hrest
          unfold podGroupsReady
          refine (reaches_getPodGroup fun _ => id).trans ?_
          simp only [hstored, lookupOf]
          cases goOn with
          | true => simpa [hterminating] using ih h
          | false =>
            obtain rfl : false = ready := by simpa using h
            simp [hterminating]

/-- After a pass that wrote nothing the check finds what the pass has found. -/
theorem reaches_schedulingObjectsReady {scheduling : JobSetScheduling} {ready b : Bool}
    (h : objectsAtRest platform lib js s scheduling = some ready) :
    Reaches observes (s, false) (schedulingObjectsReady platform lib js scheduling) b (s', f') ↔
      b = ready ∧ s' = s ∧ f' = false := by
  unfold objectsAtRest at h
  cases hbuild : buildWorkload platform lib js scheduling with
  | error err => simp [hbuild] at h
  | ok desired =>
    cases hstored : s.workloads (workloadName platform js) with
    | none => simp [hbuild, hstored] at h
    | some existing =>
      cases hrest : atRest existing (existing.spec.upToDate desired) with
      | none => simp [hbuild, hstored, hrest] at h
      | some goOn =>
        simp only [hbuild, hstored, hrest, Option.bind_some] at h
        have hterminating := terminating_of_atRest hrest
        unfold schedulingObjectsReady
        rw [hbuild]
        refine (reaches_getWorkload fun _ => id).trans ?_
        simp only [hstored, lookupOf]
        cases goOn with
        | true => simpa [hterminating] using reaches_podGroupsReady h
        | false =>
          obtain rfl : false = ready := by simpa using h
          simp [hterminating]

end Passes

end JobSetOperator
