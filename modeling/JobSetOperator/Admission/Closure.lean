import JobSetOperator.Admission.Immutable

/-!
# What updates do to the checks of a new JobSet

`ValidateUpdate` repeats few of the checks of `ValidateCreate`. It relies on the fields
they read being immutable. The rules of the CRD compare a field only when it is set
before and after, no rule speaks of the coordinator, and elastic scaling moves the sizes
without a look at what depends on them. As long as updates keep to the fields that are
there and to the bounds of scaling, every check still passes.
-/
namespace JobSetOperator

open Library

/-! ## Checks without a cluster -/

/-- The webhook in a cluster without claims. -/
def Webhook.offline (w : Webhook) : Webhook := { w with claims := fun _ => .notFound }

/-- The JobSet passes every check of `ValidateCreate` that does not look at the cluster. -/
def PassesCreate (w : Webhook) (js : JobSet) : Prop := validateCreate w.offline js = .ok []

/-- The JobSets that were created through the webhook and the CRD and updated in steps of
the given kind. -/
inductive AdmittedBy (w : Webhook) (kind : JobSet → JobSet → Prop) : JobSet → Prop
  | create {js : JobSet} (schema : schemaValid (defaultJobSet w.gates js).spec = true)
    (valid : validateCreate w (defaultJobSet w.gates js) = .ok []) :
    AdmittedBy w kind (defaultJobSet w.gates js)
  | update {old new : JobSet} (admitted : AdmittedBy w kind old) (same : SameObject old new)
    (schema : schemaValid new.spec = true) (transition : transitionValid old.spec new.spec = true)
    (valid : validateUpdate w old new = []) (step : kind old new) : AdmittedBy w kind new
  | status {js : JobSet} (admitted : AdmittedBy w kind js) (status : JobSetStatus) :
    AdmittedBy w kind { js with status := status }

theorem AdmittedBy.admitted {w : Webhook} {kind : JobSet → JobSet → Prop} {js : JobSet}
    (h : AdmittedBy w kind js) : Admitted w js := by
  induction h with
  | create schema valid => exact .create schema valid
  | update _ same schema transition valid _ ih => exact .update ih same schema transition valid
  | status _ status ih => exact .status ih status

/-- The bounds of scaling. -/
structure ScaledWithin (w : Webhook) (js : JobSet) : Prop where
  podCounts : ∀ rjob ∈ js.spec.replicatedJobs,
    rjob.template.spec.parallelism.getD 1 * rjob.replicas ≤ maxInt32
  podNames : ∀ rjob ∈ js.spec.replicatedJobs, ∀ podName,
    longestPodName (getJobSetNameForValidation w.validators js) rjob = some podName →
      w.validators.isDNS1035Label podName = []
  inPlace : usesInPlaceRestart w.gates js = true → ∀ rjob ∈ js.spec.replicatedJobs,
    rjob.sizes.1.isSome = true ∧ rjob.sizes.2.isSome = true
  coordinator : ∀ c, js.spec.coordinator = some c → ∀ rjob,
    replicatedJobByName js c.replicatedJob = some rjob →
      ∃ completions, rjob.template.spec.completions = some completions ∧ c.podIndex < completions
  scheduling : ∀ scheduling, js.spec.scheduling = some scheduling →
    validateSchedulingWithBuilder w.platform w.lib js scheduling "spec.scheduling" = [] ∧
      validateTopLevelTotal js scheduling = []

/-- An update of the kind the checks of a new JobSet survive. -/
structure KeepsChecked (w : Webhook) (old new : JobSet) : Prop where
  generateName : new.name = "" → new.generateName = old.generateName
  network : new.spec.network.isSome = old.spec.network.isSome
  successPolicy : new.spec.successPolicy.isSome = old.spec.successPolicy.isSome
  failurePolicy : new.spec.failurePolicy.isSome = old.spec.failurePolicy.isSome
  volumeClaimPolicies :
    new.spec.volumeClaimPolicies.isEmpty = old.spec.volumeClaimPolicies.isEmpty
  dependsOn : new.spec.replicatedJobs.map (·.dependsOn.isSome) =
    old.spec.replicatedJobs.map (·.dependsOn.isSome)
  coordinator : new.spec.coordinator = old.spec.coordinator
  scaling : new.spec.replicatedJobs.map ReplicatedJob.sizes =
      old.spec.replicatedJobs.map ReplicatedJob.sizes ∨ ScaledWithin w new

/-! ## One ReplicatedJob before and after -/

/-- The ReplicatedJob without its sizes and without the fields that may change while the
JobSet is suspended. -/
def ReplicatedJob.anchored (rjob : ReplicatedJob) : ReplicatedJob :=
  { rjob.fixedPart with dependsOn := rjob.dependsOn }

/-- The two versions are checked alike up to their sizes. -/
structure Anchored (old new : ReplicatedJob) : Prop where
  anchored : new.anchored = old.anchored
  scales : ScalesTogether old new

/-- What does not look at the changed fields is the same in both versions. -/
theorem Anchored.reads {old new : ReplicatedJob} (h : Anchored old new) {β : Type}
    {f : ReplicatedJob → β} (hf : ∀ rjob, f rjob.anchored = f rjob) : f new = f old := by
  rw [← hf new, h.anchored, hf old]

/-- An accepted update that leaves the dependencies set or unset anchors every
ReplicatedJob. -/
theorem validateUpdate_anchored {w : Webhook} {old new : JobSet} (hnames : old.jobNames.Nodup)
    (h : validateUpdate w old new = [])
    (hdependsOn : new.spec.replicatedJobs.map (·.dependsOn.isSome) =
      old.spec.replicatedJobs.map (·.dependsOn.isSome)) :
    List.Forall₂ Anchored old.spec.replicatedJobs new.spec.replicatedJobs := by
  have hsteps := forall₂_and (forall₂_and (validateUpdate_permitted h)
    (validateUpdate_sizes hnames h)) (forall₂_of_map_eq hdependsOn.symm)
  refine hsteps.imp fun a b hab => ⟨?_, hab.1.2⟩
  obtain ⟨⟨hpermitted, -⟩, hset⟩ := hab
  have hlists : b.dependsOn.getD [] = a.dependsOn.getD [] := by
    have hfixed := congrArg ReplicatedJob.dependsOn hpermitted.fixedPart
    exact Option.some.inj hfixed
  have hsame : b.dependsOn = a.dependsOn := by
    cases hb : b.dependsOn <;> cases ha : a.dependsOn <;> simp_all
  unfold ReplicatedJob.anchored
  rw [hpermitted.fixedPart, hsame]

/-! ## The checks of one ReplicatedJob -/

section Checks

variable {w : Webhook} {oldJs newJs : JobSet} {old new : ReplicatedJob} {jobSetName : String}
  {index : ℕ}

theorem validateNames_anchored (h : Anchored old new)
    (hpod : ∀ podName, longestPodName jobSetName new = some podName →
      w.validators.isDNS1035Label podName = [])
    (hold : validateNames w.validators jobSetName index old = []) :
    validateNames w.validators jobSetName index new = [] := by
  unfold validateNames at hold ⊢
  simp only [List.append_eq_nil_iff, nameErrors_eq_nil] at hold ⊢
  rw [h.reads (f := ReplicatedJob.groupName) fun _ => rfl,
    h.reads (f := longestJobName jobSetName) fun _ => rfl]
  refine ⟨hold.1, ?_⟩
  cases hname : longestPodName jobSetName new with
  | none => rfl
  | some podName => exact nameErrors_eq_nil.mpr (hpod podName hname)

theorem validateInPlaceRestart_anchored (h : Anchored old new)
    (hset : new.sizes.1.isSome = true ∧ new.sizes.2.isSome = true)
    (hold : validateInPlaceRestart index old = []) : validateInPlaceRestart index new = [] := by
  unfold validateInPlaceRestart at hold ⊢
  simp only [List.append_eq_nil_iff, errorIf_eq_nil, decide_eq_false_iff_not] at hold ⊢
  obtain ⟨⟨hbackoff, hreplacement⟩, hsizes⟩ := hold
  rw [h.reads (f := fun rjob => rjob.template.spec.backoffLimit) fun _ => rfl,
    h.reads (f := fun rjob => rjob.template.spec.podReplacementPolicy) fun _ => rfl]
  refine ⟨⟨hbackoff, hreplacement⟩, ?_⟩
  obtain ⟨p, hp⟩ := Option.isSome_iff_exists.mp hset.1
  obtain ⟨c, hc⟩ := Option.isSome_iff_exists.mp hset.2
  have hequal : p = c := by
    rcases h.scales with hsame | htogether
    · push Not at hsizes
      have hold' : old.sizes.2 = old.sizes.1 := hsizes.2.2
      rw [← hsame, hp, hc] at hold'
      exact (Option.some.inj hold').symm
    · exact htogether p c (Prod.ext hp hc)
  have hp' : new.template.spec.parallelism = some p := hp
  have hc' : new.template.spec.completions = some c := hc
  simp [hp', hc', hequal]

theorem validateReplicatedJob_anchored (h : Anchored old new)
    (hearlier : (newJs.spec.replicatedJobs.take index).map (·.name) =
      (oldJs.spec.replicatedJobs.take index).map (·.name))
    (hinPlace : usesInPlaceRestart w.gates newJs = usesInPlaceRestart w.gates oldJs)
    (hcount : new.template.spec.parallelism.getD 1 * new.replicas ≤ maxInt32)
    (hpod : ∀ podName, longestPodName jobSetName new = some podName →
      w.validators.isDNS1035Label podName = [])
    (hset : usesInPlaceRestart w.gates newJs = true →
      new.sizes.1.isSome = true ∧ new.sizes.2.isSome = true)
    (hold : validateReplicatedJob w oldJs jobSetName index old = []) :
    validateReplicatedJob w newJs jobSetName index new = [] := by
  unfold validateReplicatedJob at hold ⊢
  simp only [List.append_eq_nil_iff] at hold ⊢
  obtain ⟨⟨⟨-, hnames⟩, hdependsOn⟩, hrestart⟩ := hold
  refine ⟨⟨⟨?_, validateNames_anchored h hpod hnames⟩, ?_⟩, ?_⟩
  · unfold validatePodCount
    rw [errorIf_eq_nil, decide_eq_false_iff_not]
    omega
  · rw [hearlier]
    rw [← hdependsOn]
    exact h.reads (f := validateDependsOn _) fun _ => rfl
  · split_ifs with huses
    · rw [hinPlace] at huses
      rw [if_pos huses] at hrestart
      exact validateInPlaceRestart_anchored h (hset (hinPlace.trans huses)) hrestart
    · rfl

end Checks

/-! ## The checks of the JobSet -/

/-- What does not look at the changed fields is the same for both lists. -/
theorem reads_all {l l' : List ReplicatedJob} (h : List.Forall₂ Anchored l l') {β : Type}
    {f : List ReplicatedJob → β} (hf : ∀ l, f (l.map ReplicatedJob.anchored) = f l) :
    f l' = f l := by
  have hmap : l'.map ReplicatedJob.anchored = l.map ReplicatedJob.anchored := by
    symm
    rw [← List.forall₂_eq_eq_eq, List.forall₂_map_left_iff, List.forall₂_map_right_iff]
    exact h.imp fun _ _ hab => hab.anchored.symm
  rw [← hf l', hmap, hf l]

theorem mapIdx_anchored {β : Type} {f : ℕ → ReplicatedJob → β}
    (hf : ∀ i rjob, f i rjob.anchored = f i rjob) (l : List ReplicatedJob) :
    (l.map ReplicatedJob.anchored).mapIdx f = l.mapIdx f := by
  refine List.ext_getElem (by simp) fun i _ _ => ?_
  simp only [List.getElem_mapIdx, List.getElem_map, hf]

theorem eq_of_unchanged {α : Type} [DecidableEq α] {old new : Option α}
    (h : unchanged old new = true) (hset : new.isSome = old.isSome) : new = old := by
  cases old with
  | none => simpa using hset
  | some a =>
    cases new with
    | none => cases hset
    | some b => exact congrArg some (of_decide_eq_true h)

/-- The fields the checks read are the same, up to the sizes. -/
structure SameChecked (old new : JobSet) : Prop where
  same : SameObject old new
  generateName : new.name = "" → new.generateName = old.generateName
  replicatedJobs : List.Forall₂ Anchored old.spec.replicatedJobs new.spec.replicatedJobs
  network : new.spec.network = old.spec.network
  successPolicy : new.spec.successPolicy = old.spec.successPolicy
  failurePolicy : new.spec.failurePolicy = old.spec.failurePolicy
  volumeClaimPolicies : new.spec.volumeClaimPolicies = old.spec.volumeClaimPolicies
  coordinator : new.spec.coordinator = old.spec.coordinator
  managedBy : new.spec.managedBy = old.spec.managedBy

theorem sameChecked_of_update {w : Webhook} {old new : JobSet} (hnames : old.jobNames.Nodup)
    (hsame : SameObject old new) (htransition : transitionValid old.spec new.spec = true)
    (hvalid : validateUpdate w old new = []) (h : KeepsChecked w old new) :
    SameChecked old new := by
  unfold transitionValid at htransition
  simp only [Bool.and_eq_true] at htransition
  obtain ⟨⟨⟨⟨⟨hnetwork, hsuccess⟩, hfailure⟩, -⟩, hclaims⟩, -⟩ := htransition
  have hpresent : present new.spec.volumeClaimPolicies = present old.spec.volumeClaimPolicies := by
    refine eq_of_unchanged hclaims ?_
    unfold present
    rw [h.volumeClaimPolicies]
    split_ifs <;> rfl
  refine ⟨hsame, h.generateName, validateUpdate_anchored hnames hvalid h.dependsOn,
    eq_of_unchanged hnetwork h.network, eq_of_unchanged hsuccess h.successPolicy,
    eq_of_unchanged hfailure h.failurePolicy, ?_, h.coordinator, ?_⟩
  · unfold present at hpresent
    rw [h.volumeClaimPolicies] at hpresent
    split_ifs at hpresent with hempty
    · have hnew := h.volumeClaimPolicies.trans hempty
      rw [List.isEmpty_iff] at hempty hnew
      rw [hempty, hnew]
    · exact Option.some.inj hpresent
  · unfold validateUpdate at hvalid
    simp only [List.append_eq_nil_iff, errorIf_eq_nil] at hvalid
    exact of_not_not (of_decide_eq_false hvalid.1.2)

theorem validateCoordinator_eq_nil {js : JobSet} {c : Coordinator} :
    validateCoordinator js c = [] ↔ ∃ rjob completions,
      replicatedJobByName js c.replicatedJob = some rjob ∧ 0 ≤ c.jobIndex ∧
      c.jobIndex < rjob.replicas ∧ rjob.template.spec.completionMode = some .indexedCompletion ∧
      rjob.template.spec.completions = some completions ∧ 0 ≤ c.podIndex ∧
      c.podIndex < completions := by
  unfold validateCoordinator
  cases hrjob : replicatedJobByName js c.replicatedJob with
  | none => simp
  | some rjob =>
    dsimp only
    split_ifs with hindex
    · simp only [Option.some.injEq, false_iff]
      rintro ⟨_, _, rfl, hfirst, hlast, -⟩
      omega
    · split
      · rename_i completions hmode hset
        rw [errorIf_eq_nil, decide_eq_false_iff_not]
        constructor
        · intro hpod
          exact ⟨rjob, completions, rfl, by omega, by omega, hmode, hset, by omega, by omega⟩
        · rintro ⟨_, _, hsame, -, -, -, hset', hpod, hlt⟩
          cases hsame
          rw [hset] at hset'
          cases hset'
          omega
      · rename_i hother
        simp only [reduceCtorEq, Option.some.injEq, false_iff]
        rintro ⟨_, completions, rfl, -, -, hmode, hset, -⟩
        exact hother completions hmode hset

namespace SameChecked

variable {old new : JobSet} (h : SameChecked old new)

include h

theorem jobSetName (validators : Validators) :
    getJobSetNameForValidation validators new = getJobSetNameForValidation validators old := by
  unfold getJobSetNameForValidation
  rw [← h.same.name]
  by_cases hname : new.name = ""
  · rw [h.generateName hname]
  · rw [if_pos hname, if_pos hname]

theorem jobNames : new.jobNames = old.jobNames := by
  refine reads_all h.replicatedJobs (f := fun l => l.map (·.name)) fun l => ?_
  rw [List.map_map]
  rfl

theorem replicatedJobNames_eq : replicatedJobNames new = replicatedJobNames old :=
  congrArg List.dedup h.jobNames

theorem replicatedJobByName_rel (name : String) :
    Option.Rel Anchored (replicatedJobByName old name) (replicatedJobByName new name) :=
  find?_forall₂ h.replicatedJobs fun a b hab => by
    rw [hab.reads (f := ReplicatedJob.name) fun _ => rfl]

theorem usesInPlaceRestart_eq (gates : FeatureGates) :
    usesInPlaceRestart gates new = usesInPlaceRestart gates old := by
  unfold usesInPlaceRestart
  rw [h.failurePolicy]

theorem firstDependsOn :
    (new.spec.replicatedJobs.head?.any fun rjob => rjob.dependsOn.isSome) =
      old.spec.replicatedJobs.head?.any fun rjob => rjob.dependsOn.isSome := by
  refine reads_all h.replicatedJobs (f := fun l => l.head?.any fun rjob => rjob.dependsOn.isSome)
    fun l => ?_
  cases l <;> rfl

theorem validateFailurePolicy_eq (w : Webhook) (fp : FailurePolicy) (rjobNames : List String) :
    validateFailurePolicy w new fp rjobNames = validateFailurePolicy w old fp rjobNames := by
  have hmany :
      (new.spec.replicatedJobs.any fun rjob => rjob.replicas > maxReplicasPerReplicatedJob) =
      old.spec.replicatedJobs.any fun rjob => rjob.replicas > maxReplicasPerReplicatedJob := by
    refine reads_all h.replicatedJobs
      (f := fun l => l.any fun rjob => rjob.replicas > maxReplicasPerReplicatedJob) fun l => ?_
    rw [List.any_map]
    rfl
  unfold validateFailurePolicy
  rw [hmany]

theorem validateVolumeClaimPolicies_eq (w : Webhook) (jobSetName : String)
    (policies : List VolumeClaimPolicy) :
    validateVolumeClaimPolicies w.offline new jobSetName policies =
      validateVolumeClaimPolicies w.offline old jobSetName policies := by
  have hclaims : ∀ name, validateReplicatedJobsVolumeClaims new.spec.replicatedJobs name =
      validateReplicatedJobsVolumeClaims old.spec.replicatedJobs name := by
    intro name
    refine reads_all h.replicatedJobs (f := fun l => validateReplicatedJobsVolumeClaims l name)
      fun l => ?_
    unfold validateReplicatedJobsVolumeClaims
    rw [mapIdx_anchored fun _ _ => rfl, List.any_map]
    rfl
  unfold validateVolumeClaimPolicies validateClaimTemplate validateExistingClaim
  simp only [hclaims, h.same.inNamespace]

theorem validateCoordinators_nil (w : Webhook)
    (hrange : ∀ c, new.spec.coordinator = some c → ∀ rjob,
      replicatedJobByName new c.replicatedJob = some rjob →
        ∃ completions, rjob.template.spec.completions = some completions ∧
          c.podIndex < completions)
    {jobSetName : String} (hold : validateCoordinators w old jobSetName = []) :
    validateCoordinators w new jobSetName = [] := by
  unfold validateCoordinators at hold ⊢
  rw [h.coordinator]
  cases hc : old.spec.coordinator with
  | none => rfl
  | some c =>
    rw [hc] at hold
    simp only [List.append_eq_nil_iff] at hold ⊢
    refine ⟨?_, ?_⟩
    · obtain ⟨before, _, hbefore, hfirst, hlast, hmode, -, hpod, -⟩ :=
        validateCoordinator_eq_nil.mp hold.1
      have hrel := h.replicatedJobByName_rel c.replicatedJob
      rw [hbefore] at hrel
      generalize hafter : replicatedJobByName new c.replicatedJob = found at hrel
      cases hrel with
      | some hanchored =>
        obtain ⟨completions, hset, hlt⟩ := hrange c (h.coordinator.trans hc) _ hafter
        refine validateCoordinator_eq_nil.mpr
          ⟨_, completions, hafter, hfirst, ?_, ?_, hset, hpod, hlt⟩
        · rw [hanchored.reads (f := ReplicatedJob.replicas) fun _ => rfl]
          exact hlast
        · rw [hanchored.reads (f := fun rjob => rjob.template.spec.completionMode) fun _ => rfl]
          exact hmode
    · rw [← hold.2]
      unfold validateCoordinatorLabelValue coordinatorEndpoint getSubdomain
      dsimp only
      rw [h.network]

/-! ## Scheduling -/

theorem validateEmbeddedScheduling_eq :
    validateEmbeddedScheduling new = validateEmbeddedScheduling old := by
  refine congrArg List.flatten (reads_all h.replicatedJobs (f := List.mapIdx _) fun l => ?_)
  exact mapIdx_anchored (fun _ _ => rfl) l

theorem validateAllTargeted_eq (scheduling : JobSetScheduling) :
    validateAllTargeted new scheduling = validateAllTargeted old scheduling := by
  unfold validateAllTargeted
  split_ifs
  · refine congrArg List.flatten (reads_all h.replicatedJobs (f := List.mapIdx _) fun l => ?_)
    exact mapIdx_anchored (fun _ _ => rfl) l
  · rfl

theorem validateTopLevelPriority_eq (scheduling : JobSetScheduling) :
    validateTopLevelPriority new scheduling = validateTopLevelPriority old scheduling := by
  unfold validateTopLevelPriority
  have hjobs := h.replicatedJobs
  revert hjobs
  cases old.spec.replicatedJobs <;> cases new.spec.replicatedJobs <;> intro hjobs <;> cases hjobs
  · rfl
  · rename_i hfirst hrest
    dsimp only
    rw [hfirst.reads (f := priorityClassNameOf) fun _ => rfl]
    split_ifs
    · refine congrArg List.flatten (reads_all hrest (f := List.mapIdx _) fun l => ?_)
      exact mapIdx_anchored (fun _ _ => rfl) l
    · rfl

theorem replicatedJobPriorityClassName_eq :
    replicatedJobPriorityClassName new = replicatedJobPriorityClassName old := by
  funext name
  unfold replicatedJobPriorityClassName
  have hrel := h.replicatedJobByName_rel name
  revert hrel
  cases replicatedJobByName old name <;> cases replicatedJobByName new name <;> intro hrel <;>
    cases hrel
  · rfl
  · rename_i hanchored
    exact hanchored.reads (f := priorityClassNameOf) fun _ => rfl

theorem validateEntries_eq (rjobNames : List String) (entries : List ReplicatedJobScheduling)
    (i : ℕ) (targeted : List String) :
    validateEntries new rjobNames entries i targeted =
      validateEntries old rjobNames entries i targeted := by
  have hpriority : ∀ path targets,
      validateEntryPriority new path targets = validateEntryPriority old path targets := by
    intro path targets
    unfold validateEntryPriority
    rw [h.replicatedJobPriorityClassName_eq]
  induction entries generalizing i targeted with
  | nil => rfl
  | cons entry rest ih =>
    unfold validateEntries
    simp only [hpriority, ih]

theorem validateScheduling_nil {w : Webhook} {rjobNames : List String}
    (hscheduling : new.spec.scheduling = old.spec.scheduling)
    (hbounds : ∀ scheduling, new.spec.scheduling = some scheduling →
      validateSchedulingWithBuilder w.platform w.lib new scheduling "spec.scheduling" = [] ∧
        validateTopLevelTotal new scheduling = [])
    (hmin : validateSchedulingGangMinCounts new = [])
    (hold : validateScheduling w old rjobNames = []) : validateScheduling w new rjobNames = [] := by
  have hempty : new.spec.replicatedJobs = [] ↔ old.spec.replicatedJobs = [] := by
    rw [← List.length_eq_zero_iff, ← List.length_eq_zero_iff, h.replicatedJobs.length_eq]
  unfold validateScheduling at hold ⊢
  rw [hscheduling]
  cases hs : old.spec.scheduling with
  | none =>
    rw [hs] at hold
    exact hold
  | some scheduling =>
    rw [hs] at hold
    dsimp only at hold ⊢
    split_ifs at hold with hgate hjobs
    · rw [errorIf_eq_nil] at hold
      cases hold
    · rw [if_neg hgate, if_neg (hempty.not.mpr hjobs)]
      obtain ⟨hbuilder, htotal⟩ := hbounds scheduling (hscheduling.trans hs)
      simp only [List.append_eq_nil_iff] at hold ⊢
      obtain ⟨⟨⟨⟨⟨⟨hembedded, hall⟩, -⟩, -⟩, hpriority⟩, hentries⟩, -⟩ := hold
      refine ⟨⟨⟨⟨⟨⟨?_, ?_⟩, hbuilder⟩, htotal⟩, ?_⟩, ?_⟩, hmin⟩
      · rw [h.validateEmbeddedScheduling_eq, hembedded]
      · rw [h.validateAllTargeted_eq, hall]
      · rw [h.validateTopLevelPriority_eq, hpriority]
      · rw [h.validateEntries_eq, hentries]

end SameChecked

/-! ## JobSets that keep their sizes -/

/-- The ReplicatedJob without the fields that may change while the JobSet is suspended. -/
def ReplicatedJob.unqueued (rjob : ReplicatedJob) : ReplicatedJob :=
  { rjob.anchored with
    template := { rjob.anchored.template with
      spec := { rjob.anchored.template.spec with
        parallelism := rjob.sizes.1
        completions := rjob.sizes.2 } } }

/-- The two versions have the same sizes. -/
def Unscaled (old new : ReplicatedJob) : Prop := new.unqueued = old.unqueued

theorem Anchored.unscaled {old new : ReplicatedJob} (h : Anchored old new)
    (hsizes : new.sizes = old.sizes) : Unscaled old new := by
  unfold Unscaled ReplicatedJob.unqueued
  rw [h.anchored, hsizes]

theorem Unscaled.reads {old new : ReplicatedJob} (h : Unscaled old new) {β : Type}
    {f : ReplicatedJob → β} (hf : ∀ rjob, f rjob.unqueued = f rjob) : f new = f old := by
  rw [← hf new, h, hf old]

theorem Unscaled.map_eq {l l' : List ReplicatedJob} (h : List.Forall₂ Unscaled l l') {β : Type}
    {f : ReplicatedJob → β} (hf : ∀ rjob, f rjob.unqueued = f rjob) : l'.map f = l.map f := by
  symm
  rw [← List.forall₂_eq_eq_eq, List.forall₂_map_left_iff, List.forall₂_map_right_iff]
  exact h.imp fun _ _ hab => (hab.reads hf).symm

theorem Unscaled.kept {old new : ReplicatedJob} (h : Unscaled old new) (elastic : Bool) :
    Kept elastic old new where
  name := h.reads fun _ => rfl
  replicas := h.reads fun _ => rfl
  pods _ := h.reads fun _ => rfl

section Unscaled

variable {old new : JobSet} (hsame : SameObject old new)
  (hjobs : List.Forall₂ Unscaled old.spec.replicatedJobs new.spec.replicatedJobs)

include hjobs

theorem unscaled_members (targets : List String) :
    List.Forall₂ Unscaled (targets.filterMap (rjobsByName old))
      (targets.filterMap (rjobsByName new)) := by
  refine List.rel_filterMap (R := Eq) ?_ (List.forall₂_refl targets)
  rintro name _ rfl
  exact find?_forall₂ (List.forall₂_reverse_iff.mpr hjobs) fun a b hab => by
    rw [hab.reads (f := ReplicatedJob.name) fun _ => rfl]

include hsame

theorem unscaled_entryItems (platform : Platform) (scheduling : JobSetScheduling)
    (policy : ReplicatedJobScheduling) :
    entryItems platform new scheduling policy = entryItems platform old scheduling policy := by
  unfold entryItems
  have hmembers := unscaled_members hjobs policy.targetReplicatedJobs
  revert hmembers
  cases policy.targetReplicatedJobs.filterMap (rjobsByName old) <;>
    cases policy.targetReplicatedJobs.filterMap (rjobsByName new) <;> intro hmembers <;>
    cases hmembers
  · rfl
  · rename_i first rest first' rest' hfirst hrest
    cases policy.job with
    | some jobPolicy =>
      dsimp only
      rw [hfirst.reads (f := ReplicatedJob.replicas) fun _ => rfl]
      refine List.map_congr_left fun jobIdx _ => ?_
      rw [← hfirst.reads
        (f := fun rjob => buildJobItem platform old rjob jobIdx jobPolicy scheduling) fun _ => rfl]
      unfold buildJobItem perJobTemplateName
      rw [hsame.name, hsame.inNamespace]
    | none =>
      have hcounts : (first' :: rest').map replicatedJobPodCount =
          (first :: rest).map replicatedJobPodCount :=
        Unscaled.map_eq (List.Forall₂.cons hfirst hrest) fun _ => rfl
      have htotal : groupMinCount (first' :: rest') = groupMinCount (first :: rest) := by
        have hfold := congrArg (List.foldl (fun total n => int32 (total + n)) 0) hcounts
        rwa [List.foldl_map, List.foldl_map] at hfold
      dsimp only
      unfold buildGroupItem groupTemplateName
      rw [htotal, hfirst.reads (f := priorityClassNameOf) fun _ => rfl, hsame.name,
        hsame.inNamespace]

theorem unscaled_builders (platform : Platform) (scheduling : JobSetScheduling) :
    newBuildersForJobSet platform new scheduling =
      newBuildersForJobSet platform old scheduling := by
  unfold newBuildersForJobSet
  split_ifs
  · have hhead := congrArg List.head?
      (Unscaled.map_eq hjobs (f := priorityClassNameOf) fun _ => rfl)
    rw [List.head?_map, List.head?_map] at hhead
    unfold buildTopLevelGangItem topLevelTemplateName totalReplicatedJobPodCount
    rw [hhead, Unscaled.map_eq hjobs fun _ => rfl, hsame.name, hsame.inNamespace]
  · have hfilter := List.rel_filter (R := Unscaled)
      (p := fun rjob => rjob.name ∉ grouped old scheduling)
      (q := fun rjob => rjob.name ∉ grouped old scheduling)
      (fun a b hab => by simp [hab.reads (f := ReplicatedJob.name) fun _ => rfl]) hjobs
    have hitems : ∀ rjob, buildPerRJItem platform new rjob scheduling =
        buildPerRJItem platform old rjob scheduling := by
      intro rjob
      unfold buildPerRJItem perRJTemplateName
      rw [hsame.name, hsame.inNamespace]
    have hentries := funext (unscaled_entryItems hsame hjobs platform scheduling)
    dsimp only
    rw [kept_grouped (hjobs.imp fun _ _ hab => hab.kept true), hentries, funext hitems,
      Unscaled.map_eq hfilter fun _ => rfl]

theorem unscaled_withBuilder (platform : Platform) (lib : BuilderLibrary)
    (scheduling : JobSetScheduling) (rootPath : String) :
    validateSchedulingWithBuilder platform lib new scheduling rootPath =
      validateSchedulingWithBuilder platform lib old scheduling rootPath := by
  have hopts : buildOpts platform new = buildOpts platform old := by
    unfold buildOpts workloadName
    rw [hsame.name, hsame.inNamespace, hsame.uid]
  unfold validateSchedulingWithBuilder
  rw [unscaled_builders hsame hjobs, hopts]

omit hsame in
theorem unscaled_topLevelTotal (scheduling : JobSetScheduling) :
    validateTopLevelTotal new scheduling = validateTopLevelTotal old scheduling := by
  unfold validateTopLevelTotal
  rw [Unscaled.map_eq hjobs fun _ => rfl]

end Unscaled

/-! ## One update -/

/-- The checks of a new JobSet one by one. -/
structure ChecksPassed (w : Webhook) (js : JobSet) : Prop where
  successPolicy : ∃ policy, js.spec.successPolicy = some policy ∧
    validateSuccessPolicy policy (replicatedJobNames js) = []
  gates : validateGates w.gates js = []
  firstDependsOn : (js.spec.replicatedJobs.head?.any fun rjob => rjob.dependsOn.isSome) = false
  subdomain : validateSubdomain w.validators js = []
  managedBy : validateManagedBy w.validators js = []
  replicatedJobs : ∀ (i : ℕ) (hi : i < js.spec.replicatedJobs.length), validateReplicatedJob w js
    (getJobSetNameForValidation w.validators js) i js.spec.replicatedJobs[i] = []
  failurePolicy : ((js.spec.failurePolicy.map fun fp =>
    validateFailurePolicy w js fp (replicatedJobNames js)).getD []) = []
  coordinator : validateCoordinators w js (getJobSetNameForValidation w.validators js) = []
  volumeClaimPolicies : validateVolumeClaimPolicies w.offline js
    (getJobSetNameForValidation w.validators js) js.spec.volumeClaimPolicies = []
  scheduling : validateScheduling w js (replicatedJobNames js) = []

theorem passesCreate_iff {w : Webhook} {js : JobSet} : PassesCreate w js ↔ ChecksPassed w js := by
  unfold PassesCreate validateCreate
  cases hpolicy : js.spec.successPolicy with
  | none =>
    refine ⟨fun h => (by cases h), fun h => ?_⟩
    obtain ⟨policy, hset, -⟩ := h.successPolicy
    rw [hpolicy] at hset
    cases hset
  | some policy =>
    simp only [Except.ok.injEq, List.append_eq_nil_iff, errorIf_eq_nil, flatten_mapIdx_eq_nil]
    constructor
    · rintro ⟨⟨⟨⟨⟨⟨⟨⟨⟨hgates, hfirst⟩, hsubdomain⟩, hmanager⟩, hjobs⟩, hsuccess⟩, hfailure⟩,
        hcoordinator⟩, hclaims⟩, hscheduling⟩
      exact ⟨⟨policy, hpolicy, hsuccess⟩, hgates, hfirst, hsubdomain, hmanager, hjobs, hfailure,
        hcoordinator, hclaims, hscheduling⟩
    · intro h
      obtain ⟨_, hset, hsuccess⟩ := h.successPolicy
      rw [hpolicy] at hset
      cases hset
      exact ⟨⟨⟨⟨⟨⟨⟨⟨⟨h.gates, h.firstDependsOn⟩, h.subdomain⟩, h.managedBy⟩, h.replicatedJobs⟩,
        hsuccess⟩, h.failurePolicy⟩, h.coordinator⟩, h.volumeClaimPolicies⟩, h.scheduling⟩

/-- What the checks of one ReplicatedJob say about its sizes. -/
theorem validateReplicatedJob_sizes {w : Webhook} {js : JobSet} {jobSetName : String} {index : ℕ}
    {rjob : ReplicatedJob} (h : validateReplicatedJob w js jobSetName index rjob = []) :
    rjob.template.spec.parallelism.getD 1 * rjob.replicas ≤ maxInt32 ∧
    (∀ podName, longestPodName jobSetName rjob = some podName →
      w.validators.isDNS1035Label podName = []) ∧
    (usesInPlaceRestart w.gates js = true →
      rjob.sizes.1.isSome = true ∧ rjob.sizes.2.isSome = true) := by
  unfold validateReplicatedJob at h
  simp only [List.append_eq_nil_iff] at h
  obtain ⟨⟨⟨hcount, hnames⟩, -⟩, hrestart⟩ := h
  refine ⟨?_, fun podName hpod => ?_, fun huses => ?_⟩
  · unfold validatePodCount at hcount
    rw [errorIf_eq_nil, decide_eq_false_iff_not] at hcount
    omega
  · unfold validateNames at hnames
    rw [hpod, List.append_eq_nil_iff] at hnames
    exact nameErrors_eq_nil.mp hnames.2
  · rw [if_pos huses] at hrestart
    unfold validateInPlaceRestart at hrestart
    simp only [List.append_eq_nil_iff, errorIf_eq_nil, decide_eq_false_iff_not] at hrestart
    have hset := hrestart.2
    push Not at hset
    exact ⟨Option.isSome_iff_ne_none.mpr hset.2.1, Option.isSome_iff_ne_none.mpr hset.1⟩

/-- Without scaling the bounds are those the old version kept. -/
theorem scaledWithin_of_sizes {w : Webhook} {old new : JobSet} (hold : ChecksPassed w old)
    (h : SameChecked old new)
    (hsizes : new.spec.replicatedJobs.map ReplicatedJob.sizes =
      old.spec.replicatedJobs.map ReplicatedJob.sizes)
    (hscheduling : validateSchedulingUpdate w old new = []) : ScaledWithin w new := by
  have hjobs : List.Forall₂ Unscaled old.spec.replicatedJobs new.spec.replicatedJobs :=
    (forall₂_and h.replicatedJobs (forall₂_of_map_eq hsizes.symm)).imp fun _ _ hab =>
      hab.1.unscaled hab.2.symm
  have hchecked : ∀ rjob ∈ new.spec.replicatedJobs, ∃ before index, Unscaled before rjob ∧
      validateReplicatedJob w old (getJobSetNameForValidation w.validators new) index before =
        [] := by
    intro rjob hrjob
    obtain ⟨before, hbefore, hunscaled⟩ := exists_of_forall₂ hjobs hrjob
    obtain ⟨index, hindex, rfl⟩ := List.mem_iff_getElem.mp hbefore
    refine ⟨_, index, hunscaled, ?_⟩
    rw [h.jobSetName]
    exact hold.replicatedJobs index hindex
  refine ⟨?_, ?_, ?_, ?_, ?_⟩
  · intro rjob hrjob
    obtain ⟨before, index, hunscaled, hvalid⟩ := hchecked rjob hrjob
    rw [hunscaled.reads (f := fun rjob => rjob.template.spec.parallelism.getD 1 * rjob.replicas)
      fun _ => rfl]
    exact (validateReplicatedJob_sizes hvalid).1
  · intro rjob hrjob podName hpod
    obtain ⟨before, index, hunscaled, hvalid⟩ := hchecked rjob hrjob
    rw [hunscaled.reads (f := longestPodName _) fun _ => rfl] at hpod
    exact (validateReplicatedJob_sizes hvalid).2.1 podName hpod
  · intro huses rjob hrjob
    obtain ⟨before, index, hunscaled, hvalid⟩ := hchecked rjob hrjob
    rw [hunscaled.reads (f := ReplicatedJob.sizes) fun _ => rfl]
    rw [h.usesInPlaceRestart_eq] at huses
    exact (validateReplicatedJob_sizes hvalid).2.2 huses
  · intro c hc rjob hrjob
    have hcoordinator := hold.coordinator
    unfold validateCoordinators at hcoordinator
    rw [← h.coordinator, hc, List.append_eq_nil_iff] at hcoordinator
    obtain ⟨before, completions, hbefore, -, -, -, hset, -, hlt⟩ :=
      validateCoordinator_eq_nil.mp hcoordinator.1
    have hrel : Option.Rel Unscaled (replicatedJobByName old c.replicatedJob)
        (replicatedJobByName new c.replicatedJob) :=
      find?_forall₂ hjobs fun a b hab => by rw [hab.reads (f := ReplicatedJob.name) fun _ => rfl]
    rw [hbefore, hrjob] at hrel
    cases hrel with
    | some hunscaled =>
      refine ⟨completions, ?_, hlt⟩
      rw [hunscaled.reads (f := fun rjob => rjob.template.spec.completions) fun _ => rfl]
      exact hset
  · intro scheduling hs
    have hbounds : ∀ js, js.spec.scheduling = some scheduling →
        validateScheduling w js (replicatedJobNames js) = [] →
        validateSchedulingWithBuilder w.platform w.lib js scheduling "spec.scheduling" = [] ∧
          validateTopLevelTotal js scheduling = [] := by
      intro js hjs hvalid
      obtain ⟨-, -, hbuilder, htotal, -⟩ := validateScheduling_parts hjs hvalid
      exact ⟨hbuilder, htotal⟩
    unfold validateSchedulingUpdate at hscheduling
    split_ifs at hscheduling with hsame
    · rw [unscaled_withBuilder h.same hjobs, unscaled_topLevelTotal hjobs]
      exact hbounds old (hsame.symm.trans hs) hold.scheduling
    · exact hbounds new hs hscheduling

/-- An accepted update repeats the checks of a changed scheduling configuration, and those
of the explicit minimums when sizes may move. -/
theorem validateScheduling_of_update {w : Webhook} {old new : JobSet} (hold : ChecksPassed w old)
    (h : SameChecked old new) (hwithin : ScaledWithin w new)
    (hvalid : validateUpdate w old new = []) :
    validateScheduling w new (replicatedJobNames new) = [] := by
  have hkept := validateUpdate_kept hvalid
  unfold validateUpdate at hvalid
  simp only [List.append_eq_nil_iff] at hvalid
  obtain ⟨⟨⟨⟨helastic, -⟩, -⟩, -⟩, hscheduling⟩ := hvalid
  unfold validateSchedulingUpdate at hscheduling
  split_ifs at hscheduling with hsame
  · rw [h.replicatedJobNames_eq]
    refine h.validateScheduling_nil hsame hwithin.scheduling ?_ hold.scheduling
    cases hgate : w.gates.elasticJobSet with
    | true =>
      rw [if_pos hgate, List.append_eq_nil_iff] at helastic
      exact helastic.2
    | false =>
      rw [hgate] at hkept
      rw [kept_minCounts hkept hsame]
      cases hs : old.spec.scheduling with
      | none =>
        unfold validateSchedulingGangMinCounts
        rw [hs]
      | some scheduling =>
        obtain ⟨-, -, -, -, -, hmin⟩ := validateScheduling_parts hs hold.scheduling
        exact hmin
  · exact hscheduling

/-- The checks pass after the update as they did before. -/
theorem checksPassed_of_update {w : Webhook} {old new : JobSet} (hold : ChecksPassed w old)
    (h : SameChecked old new) (hwithin : ScaledWithin w new)
    (hvalid : validateUpdate w old new = []) : ChecksPassed w new := by
  refine ⟨?_, ?_, ?_, ?_, ?_, ?_, ?_, ?_, ?_, validateScheduling_of_update hold h hwithin hvalid⟩
  · obtain ⟨policy, hset, hsuccess⟩ := hold.successPolicy
    rw [h.successPolicy, h.replicatedJobNames_eq]
    exact ⟨policy, hset, hsuccess⟩
  · have hgates := hold.gates
    unfold validateGates at hgates ⊢
    unfold validateUpdate at hvalid
    simp only [List.append_eq_nil_iff, errorIf_eq_nil] at hgates hvalid ⊢
    rw [h.failurePolicy]
    refine ⟨hgates.1, ?_⟩
    -- a deadline that is set without the gate is the old one
    have hdeadline := hvalid.1.1.1.2
    by_cases hsame : new.spec.activeDeadlineSeconds = old.spec.activeDeadlineSeconds
    · rw [hsame]
      exact hgates.2
    · simpa [hsame] using hdeadline
  · rw [h.firstDependsOn]
    exact hold.firstDependsOn
  · have hsubdomain := hold.subdomain
    unfold validateSubdomain at hsubdomain ⊢
    rwa [h.network]
  · have hmanager := hold.managedBy
    unfold validateManagedBy at hmanager ⊢
    rwa [h.managedBy]
  · intro i hi
    have hi' : i < old.spec.replicatedJobs.length := by rwa [h.replicatedJobs.length_eq]
    have hmem := List.getElem_mem hi
    refine validateReplicatedJob_anchored ((List.forall₂_iff_get.mp h.replicatedJobs).2 i hi' hi) ?_
      (h.usesInPlaceRestart_eq w.gates) (hwithin.podCounts _ hmem) (hwithin.podNames _ hmem)
      (fun huses => hwithin.inPlace huses _ hmem) ?_
    · rw [List.map_take, List.map_take]
      exact congrArg (List.take i) h.jobNames
    · rw [h.jobSetName]
      exact hold.replicatedJobs i hi'
  · have hfailure := hold.failurePolicy
    rw [h.failurePolicy, h.replicatedJobNames_eq]
    simpa only [h.validateFailurePolicy_eq] using hfailure
  · rw [h.jobSetName]
    exact h.validateCoordinators_nil w hwithin.coordinator hold.coordinator
  · rw [h.jobSetName, h.volumeClaimPolicies, h.validateVolumeClaimPolicies_eq]
    exact hold.volumeClaimPolicies

/-! ## Every run of updates -/

/-- Creation looks at the cluster for claims that exist, and at nothing else. -/
theorem passesCreate_of_validateCreate {w : Webhook} {js : JobSet}
    (h : validateCreate w js = .ok []) : PassesCreate w js := by
  have hclaims : ∀ jobSetName policies, validateVolumeClaimPolicies w js jobSetName policies = [] →
      validateVolumeClaimPolicies w.offline js jobSetName policies = [] := by
    intro jobSetName policies hvalid
    unfold validateVolumeClaimPolicies at hvalid ⊢
    rw [flatten_mapIdx_eq_nil] at hvalid ⊢
    intro i hi
    have hentry := hvalid i hi
    rw [List.append_eq_nil_iff] at hentry ⊢
    exact ⟨hentry.1, rfl⟩
  unfold PassesCreate
  unfold validateCreate at h ⊢
  cases hpolicy : js.spec.successPolicy with
  | none =>
    rw [hpolicy] at h
    cases h
  | some policy =>
    rw [hpolicy] at h
    simp only [Except.ok.injEq, List.append_eq_nil_iff] at h ⊢
    exact ⟨⟨h.1.1, hclaims _ _ h.1.2⟩, h.2⟩

/-- The checks do not look at the status. -/
theorem checksPassed_of_status {w : Webhook} {js : JobSet} (h : ChecksPassed w js)
    (status : JobSetStatus) : ChecksPassed w { js with status := status } := by
  have hsame : SameChecked js { js with status := status } :=
    ⟨⟨rfl, rfl, rfl⟩, fun _ => rfl, List.forall₂_same.mpr fun _ _ => ⟨rfl, Or.inl rfl⟩, rfl, rfl,
      rfl, rfl, rfl, rfl⟩
  refine ⟨h.successPolicy, h.gates, h.firstDependsOn, h.subdomain, h.managedBy, h.replicatedJobs,
    h.failurePolicy, h.coordinator, h.volumeClaimPolicies, ?_⟩
  have hscheduling := h.scheduling
  unfold validateScheduling at hscheduling ⊢
  simp only [hsame.validateEntries_eq]
  exact hscheduling

/-- As long as updates keep to the fields that are there and to the bounds of scaling,
every check of a new JobSet still passes. -/
theorem admission_closed {w : Webhook} {js : JobSet} (h : AdmittedBy w (KeepsChecked w) js) :
    PassesCreate w js := by
  induction h with
  | create _ valid => exact passesCreate_of_validateCreate valid
  | update admitted same schema transition valid step ih =>
    rw [passesCreate_iff] at ih ⊢
    have hnames := schemaValid_names admitted.admitted.schemaValid
    have hchecked := sameChecked_of_update hnames same transition valid step
    refine checksPassed_of_update ih hchecked ?_ valid
    rcases step.scaling with hsizes | hwithin
    · refine scaledWithin_of_sizes ih hchecked hsizes ?_
      unfold validateUpdate at valid
      exact (List.append_eq_nil_iff.mp valid).2
    · exact hwithin
  | status _ status ih =>
    rw [passesCreate_iff] at ih ⊢
    exact checksPassed_of_status ih status

/-- A webhook that admits elastic scaling. -/
def scalingWebhook : Webhook :=
  { trainWebhook with gates := { schedulingGates with elasticJobSet := true } }

/-- A JobSet of two Indexed Jobs of the given size; the pod of the given index of the first
one leads. -/
def ledSet (size podIndex : ℤ) : JobSet :=
  let rjob := ReplicatedJob.single "w" 2
  let js := plainSet [{ rjob with template := { rjob.template with
    spec := { rjob.template.spec with parallelism := some size, completions := some size } } }]
    0 .recreate
  defaultJobSet scalingWebhook.gates
    { js with spec := { js.spec with coordinator := some ⟨"w", 0, podIndex⟩ } }

theorem ledSet_created {kind : JobSet → JobSet → Prop} :
    AdmittedBy scalingWebhook kind (ledSet 1 0) :=
  .create (by decide +kernel) (by decide +kernel)

/-- The JobSet grows to three pods. -/
theorem admission_closed_grown :
    AdmittedBy scalingWebhook (KeepsChecked scalingWebhook) (ledSet 3 0) ∧
    PassesCreate scalingWebhook (ledSet 3 0) := by
  have hwithin : ScaledWithin scalingWebhook (ledSet 3 0) := by
    refine ⟨by decide +kernel, fun _ _ _ _ => rfl, by decide +kernel, ?_, fun _ hs => (by cases hs)⟩
    intro c hc rjob hrjob
    cases hc
    cases hrjob
    exact ⟨3, rfl, by decide⟩
  have hgrown : AdmittedBy scalingWebhook (KeepsChecked scalingWebhook) (ledSet 3 0) :=
    ledSet_created.update ⟨rfl, rfl, rfl⟩ (by decide +kernel) (by decide +kernel)
      (by decide +kernel) ⟨fun _ => rfl, rfl, rfl, rfl, rfl, rfl, rfl, Or.inr hwithin⟩
  exact ⟨hgrown, admission_closed hgrown⟩

/-- The JobSet without its success policy. -/
def ledWithoutSuccess : JobSet :=
  { ledSet 1 0 with spec := { (ledSet 1 0).spec with successPolicy := none } }

/-- Updates take the success policy away, move the coordinator to a pod that does not exist,
and scale the Jobs beyond 32 bits. -/
theorem admission_not_closed :
    (Admitted scalingWebhook ledWithoutSuccess ∧ ¬ PassesCreate scalingWebhook ledWithoutSuccess) ∧
    (Admitted scalingWebhook (ledSet 1 7) ∧ ¬ PassesCreate scalingWebhook (ledSet 1 7)) ∧
    (Admitted scalingWebhook (ledSet maxInt32 0) ∧
      ¬ PassesCreate scalingWebhook (ledSet maxInt32 0)) := by
  have hcreated : Admitted scalingWebhook (ledSet 1 0) :=
    (@ledSet_created fun _ _ => True).admitted
  have hupdated : ∀ {new}, SameObject (ledSet 1 0) new → schemaValid new.spec = true →
      transitionValid (ledSet 1 0).spec new.spec = true →
      validateUpdate scalingWebhook (ledSet 1 0) new = [] → Admitted scalingWebhook new :=
    fun same schema transition valid => hcreated.update same schema transition valid
  unfold PassesCreate
  refine ⟨⟨hupdated ⟨rfl, rfl, rfl⟩ ?_ ?_ ?_, ?_⟩, ⟨hupdated ⟨rfl, rfl, rfl⟩ ?_ ?_ ?_, ?_⟩,
    ⟨hupdated ⟨rfl, rfl, rfl⟩ ?_ ?_ ?_, ?_⟩⟩
  all_goals decide +kernel

end JobSetOperator
