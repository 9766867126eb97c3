import JobSetOperator.Admission.Checked

/-!
# What an update may change

`ValidateUpdate` compares the old ReplicatedJobs with a copy of the new ones in
which the permitted fields have been overwritten with old values. A ReplicatedJob
is split here into the fields that are never overwritten, the fields of the pod
template that a suspended JobSet may change, and the sizes. Each pass of the mask
touches one of these parts, so the comparison fixes the others.
-/
namespace JobSetOperator

/-! ## The parts of a ReplicatedJob -/

/-- The fields of the pod template that may change while the JobSet is suspended. -/
structure QueuedFields where
  labels : StrMap
  annotations : StrMap
  nodeSelector : StrMap
  tolerations : List Toleration
  schedulingGates : List String
  deriving DecidableEq

def ReplicatedJob.queuedFields (rjob : ReplicatedJob) : QueuedFields :=
  let template := rjob.template.spec.template
  ⟨template.labels, template.annotations, template.nodeSelector, template.tolerations,
    template.schedulingGates⟩

/-- Parallelism and completions. -/
def ReplicatedJob.sizes (rjob : ReplicatedJob) : Option ℤ × Option ℤ :=
  (rjob.template.spec.parallelism, rjob.template.spec.completions)

/-- Everything else, with a missing list of dependencies as an empty one. -/
def ReplicatedJob.fixedPart (rjob : ReplicatedJob) : ReplicatedJob :=
  { rjob.semantic with
    template := { rjob.template with
      spec := { rjob.template.spec with
        parallelism := none
        completions := none
        template := { rjob.template.spec.template with
          labels := ∅
          annotations := ∅
          nodeSelector := ∅
          tolerations := []
          schedulingGates := [] } } } }

/-- The two versions differ at most in what the update may change. -/
structure Permitted (elastic suspended : Bool) (old new : ReplicatedJob) : Prop where
  fixedPart : new.fixedPart = old.fixedPart
  queuedFields : suspended = false → new.queuedFields = old.queuedFields
  sizes : ¬ (elastic = true ∧ isIndexedJob new = true) → new.sizes = old.sizes

/-! ## The passes of the mask -/

section Passes

variable (oldJs : JobSet) (rjob : ReplicatedJob)

theorem mungeElastic_fixedPart : (mungeElastic oldJs rjob).fixedPart = rjob.fixedPart := by
  unfold mungeElastic
  cases oldJobsMap oldJs rjob.name with
  | none => rfl
  | some oldRJob =>
    dsimp only
    split_ifs <;> rfl

theorem mungeElastic_queuedFields :
    (mungeElastic oldJs rjob).queuedFields = rjob.queuedFields := by
  unfold mungeElastic
  cases oldJobsMap oldJs rjob.name with
  | none => rfl
  | some oldRJob =>
    dsimp only
    split_ifs <;> rfl

theorem mungeElastic_sizes (h : isIndexedJob rjob = false) :
    (mungeElastic oldJs rjob).sizes = rjob.sizes := by
  unfold mungeElastic
  cases oldJobsMap oldJs rjob.name with
  | none => rfl
  | some oldRJob => simp [h]

theorem mungeSuspended_fixedPart : (mungeSuspended oldJs rjob).fixedPart = rjob.fixedPart := by
  unfold mungeSuspended
  cases oldJobsMap oldJs rjob.name <;> rfl

theorem mungeSuspended_sizes : (mungeSuspended oldJs rjob).sizes = rjob.sizes := by
  unfold mungeSuspended
  cases oldJobsMap oldJs rjob.name <;> rfl

end Passes

/-- The mask leaves alone what the update may not change. -/
theorem permitted_munged (gates : FeatureGates) (oldJs newJs : JobSet) (rjob : ReplicatedJob) :
    (mungedReplicatedJob gates oldJs newJs rjob).fixedPart = rjob.fixedPart ∧
    (suspendedUpdate oldJs newJs = false →
      (mungedReplicatedJob gates oldJs newJs rjob).queuedFields = rjob.queuedFields) ∧
    (¬ (gates.elasticJobSet = true ∧ isIndexedJob rjob = true) →
      (mungedReplicatedJob gates oldJs newJs rjob).sizes = rjob.sizes) := by
  have helastic : (if gates.elasticJobSet then mungeElastic oldJs rjob else rjob).fixedPart =
        rjob.fixedPart ∧
      (if gates.elasticJobSet then mungeElastic oldJs rjob else rjob).queuedFields =
        rjob.queuedFields ∧
      (¬ (gates.elasticJobSet = true ∧ isIndexedJob rjob = true) →
        (if gates.elasticJobSet then mungeElastic oldJs rjob else rjob).sizes = rjob.sizes) := by
    by_cases he : gates.elasticJobSet = true
    · rw [if_pos he]
      refine ⟨mungeElastic_fixedPart oldJs rjob, mungeElastic_queuedFields oldJs rjob, fun h => ?_⟩
      apply mungeElastic_sizes
      simpa [he] using h
    · rw [if_neg he]
      exact ⟨rfl, rfl, fun _ => rfl⟩
  obtain ⟨hfixed, hqueued, hsizes⟩ := helastic
  unfold mungedReplicatedJob
  dsimp only
  by_cases hs : suspendedUpdate oldJs newJs = true
  · rw [if_pos hs]
    refine ⟨(mungeSuspended_fixedPart oldJs _).trans hfixed, fun h => ?_, fun h => ?_⟩
    · rw [hs] at h
      cases h
    · exact (mungeSuspended_sizes oldJs _).trans (hsizes h)
  · rw [if_neg hs]
    exact ⟨hfixed, fun _ => hqueued, hsizes⟩

/-- A ReplicatedJob that passes the comparison is permitted. -/
theorem permitted_of_semantic {gates : FeatureGates} {oldJs newJs : JobSet}
    {old new : ReplicatedJob}
    (h : (mungedReplicatedJob gates oldJs newJs new).semantic = old.semantic) :
    Permitted gates.elasticJobSet (suspendedUpdate oldJs newJs) old new := by
  obtain ⟨hfixed, hqueued, hsizes⟩ := permitted_munged gates oldJs newJs new
  have hfixed' := congrArg ReplicatedJob.fixedPart h
  have hqueued' := congrArg ReplicatedJob.queuedFields h
  have hsizes' := congrArg ReplicatedJob.sizes h
  constructor
  · exact hfixed.symm.trans hfixed'
  · intro hs
    exact (hqueued hs).symm.trans hqueued'
  · intro he
    exact (hsizes he).symm.trans hsizes'

/-! ## Updates -/

theorem validateUpdate_permitted {w : Webhook} {old new : JobSet}
    (h : validateUpdate w old new = []) :
    List.Forall₂ (Permitted w.gates.elasticJobSet (suspendedUpdate old new))
      old.spec.replicatedJobs new.spec.replicatedJobs := by
  unfold validateUpdate at h
  simp only [List.append_eq_nil_iff, errorIf_eq_nil] at h
  obtain ⟨⟨⟨-, himmutable⟩, -⟩, -⟩ := h
  have heq := of_not_not (of_decide_eq_false himmutable)
  exact (forall₂_of_map_eq heq.symm).imp fun _ _ hkept => permitted_of_semantic hkept.symm

/-- The sizes are the same, or they are equal to each other as far as both are set. -/
def ScalesTogether (old new : ReplicatedJob) : Prop :=
  new.sizes = old.sizes ∨ ∀ p c, new.sizes = (some p, some c) → p = c

/-- The elastic checks of an Indexed Job. -/
theorem scalesTogether_of_checked {oldJs : JobSet} {index : ℕ} {old new : ReplicatedJob}
    (hold : oldJobsMap oldJs new.name = some old) (hmode : isIndexedJob new = true)
    (h : validateElasticJob oldJs index new = []) : ScalesTogether old new := by
  unfold validateElasticJob at h
  rw [hold] at h
  dsimp only at h
  by_cases hsame : new.sizes = old.sizes
  · exact Or.inl hsame
  · have hchanged : isIndexedJob new = true ∧
        (new.template.spec.parallelism ≠ old.template.spec.parallelism ∨
          new.template.spec.completions ≠ old.template.spec.completions) := by
      refine ⟨hmode, ?_⟩
      by_contra hnot
      push Not at hnot
      exact hsame (Prod.ext hnot.1 hnot.2)
    rw [if_pos hchanged] at h
    split_ifs at h
    simp only [List.append_eq_nil_iff, errorIf_eq_nil] at h
    refine Or.inr fun p c hsizes => ?_
    obtain ⟨hp, hc⟩ := Prod.mk.inj hsizes
    have hequal := h.2
    rw [hp, hc] at hequal
    simpa using hequal

/-- An accepted update scales a ReplicatedJob together or not at all. -/
theorem validateUpdate_sizes {w : Webhook} {old new : JobSet} (hnames : old.jobNames.Nodup)
    (h : validateUpdate w old new = []) :
    List.Forall₂ ScalesTogether old.spec.replicatedJobs new.spec.replicatedJobs := by
  have hpermitted := validateUpdate_permitted h
  refine List.forall₂_iff_get.mpr ⟨hpermitted.length_eq, fun i hi hi' => ?_⟩
  have hpermits := (List.forall₂_iff_get.mp hpermitted).2 i hi hi'
  by_cases hmoves : w.gates.elasticJobSet = true ∧
      isIndexedJob (new.spec.replicatedJobs.get ⟨i, hi'⟩) = true
  · refine @scalesTogether_of_checked old i _ _ ?_ hmoves.2 ?_
    · have hname : (new.spec.replicatedJobs.get ⟨i, hi'⟩).name =
          (old.spec.replicatedJobs.get ⟨i, hi⟩).name :=
        (ReplicatedJob.mk.inj hpermits.fixedPart).1
      rw [hname]
      exact rjobsByName_of_mem hnames (List.get_mem _ _)
    · unfold validateUpdate at h
      simp only [List.append_eq_nil_iff, hmoves.1, if_true] at h
      exact flatten_mapIdx_eq_nil.mp h.1.1.1.1.1 i hi'
  · exact Or.inl (hpermits.sizes hmoves)

/-- An accepted update changes the ReplicatedJobs at most where it may, leaves the manager
alone, and touches `spec.scheduling` only on a JobSet that is and stays suspended, without
removing it. -/
theorem update_changes {w : Webhook} {old new : JobSet} (h : validateUpdate w old new = []) :
    List.Forall₂ (Permitted w.gates.elasticJobSet (suspendedUpdate old new))
      old.spec.replicatedJobs new.spec.replicatedJobs ∧
    new.spec.managedBy = old.spec.managedBy ∧
    (new.spec.scheduling ≠ old.spec.scheduling → staysSuspended old new = true) ∧
    (old.spec.scheduling.isSome = true → new.spec.scheduling.isSome = true) := by
  have hpermitted := validateUpdate_permitted h
  unfold validateUpdate at h
  simp only [List.append_eq_nil_iff, errorIf_eq_nil] at h
  obtain ⟨⟨-, hmanager⟩, hscheduling⟩ := h
  refine ⟨hpermitted, of_not_not (of_decide_eq_false hmanager), ?_, ?_⟩
  · intro hchanged
    unfold validateSchedulingUpdate at hscheduling
    rw [if_neg hchanged] at hscheduling
    by_contra hrunning
    rw [if_pos (by simpa using hrunning)] at hscheduling
    cases hscheduling
  · intro hold
    unfold validateSchedulingUpdate at hscheduling
    split_ifs at hscheduling with hsame hrunning hremoved
    · rwa [hsame]
    · by_contra hnone
      exact hremoved ⟨hold, by simpa using hnone⟩

/-- A suspended JobSet whose pods select a zone. -/
def zonedSet (zone : String) : JobSet :=
  let rjob := ReplicatedJob.single "w" 1
  let js := plainSet [{ rjob with template := { rjob.template with
    spec := { rjob.template.spec with template := { PodTemplateSpec.zero with
      nodeSelector := Finmap.singleton "zone" zone } } } }] 0 .recreate
  { js with spec := { js.spec with suspend := some true } }

/-- Another zone is all that changes. -/
theorem update_changes_zone :
    validateUpdate trainWebhook (zonedSet "a") (zonedSet "b") = [] ∧
    (zonedSet "b").spec.replicatedJobs ≠ (zonedSet "a").spec.replicatedJobs ∧
    List.Forall₂ (Permitted false true) (zonedSet "a").spec.replicatedJobs
      (zonedSet "b").spec.replicatedJobs := by
  have hvalid : validateUpdate trainWebhook (zonedSet "a") (zonedSet "b") = [] := by decide +kernel
  exact ⟨hvalid, by decide +kernel, (update_changes hvalid).1⟩

end JobSetOperator
