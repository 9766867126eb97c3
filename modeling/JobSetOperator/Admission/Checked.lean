import JobSetOperator.Admission.Update
import JobSetOperator.Scheduling.Sources

/-!
# What admission establishes about scheduling

A JobSet that was created and updated through the webhook has entries that name
existing ReplicatedJobs, each at most once, builders with distinct names, and
explicit minimums that one Job can meet. Updates keep the ReplicatedJobs position
by position, so that the checks made at creation are still true where an update
does not repeat them.
-/
namespace JobSetOperator

/-! ## The entries -/

/-- Without errors the targets exist, are distinct, and are new. -/
theorem splitTargets_valid {rjobNames : List String} {path : String} {targets : List String}
    {j : ℕ} {targeted : List String}
    (h : (splitTargets rjobNames path targets j targeted).1 = []) :
    targets ⊆ rjobNames ∧ targets.Nodup ∧ targets.Disjoint targeted ∧
      (splitTargets rjobNames path targets j targeted).2.map (·.2) = targets := by
  induction targets generalizing j targeted with
  | nil => simp [splitTargets]
  | cons name rest ih =>
    unfold splitTargets at h ⊢
    dsimp only at h ⊢
    split_ifs at h ⊢ with hname hold
    obtain ⟨hsub, hnodup, hdisjoint, hmap⟩ := ih h
    rw [List.disjoint_cons_right] at hdisjoint
    refine ⟨List.cons_subset.mpr ⟨hname, hsub⟩, List.nodup_cons.mpr ⟨hdisjoint.1, hnodup⟩,
      List.disjoint_cons_left.mpr ⟨hold, hdisjoint.2⟩, ?_⟩
    rw [List.map_cons, hmap]

theorem validateEntries_valid {js : JobSet} {rjobNames : List String}
    {entries : List ReplicatedJobScheduling} {i : ℕ} {targeted : List String}
    (h : validateEntries js rjobNames entries i targeted = []) :
    entries.flatMap (·.targetReplicatedJobs) ⊆ rjobNames ∧
      (entries.flatMap (·.targetReplicatedJobs)).Nodup ∧
      (entries.flatMap (·.targetReplicatedJobs)).Disjoint targeted := by
  induction entries generalizing i targeted with
  | nil => simp
  | cons entry rest ih =>
    unfold validateEntries at h
    dsimp only at h
    rw [List.append_eq_nil_iff, List.append_eq_nil_iff] at h
    obtain ⟨⟨hsplit, -⟩, hrest⟩ := h
    obtain ⟨hsub, hnodup, hdisjoint, hmap⟩ := splitTargets_valid hsplit
    rw [hmap] at hrest
    obtain ⟨hsub', hnodup', hdisjoint'⟩ := ih hrest
    rw [List.disjoint_append_right] at hdisjoint'
    rw [List.flatMap_cons]
    exact ⟨List.append_subset.mpr ⟨hsub, hsub'⟩, hnodup.append hnodup' hdisjoint'.1.symm,
      List.disjoint_append_left.mpr ⟨hdisjoint, hdisjoint'.2⟩⟩

/-- What holds of the scheduling configuration of an admitted JobSet. -/
structure SchedulingChecked (w : Webhook) (js : JobSet) (scheduling : JobSetScheduling) : Prop where
  exist : allTargets scheduling ⊆ js.jobNames
  targets : (allTargets scheduling).Nodup
  built : ∃ builders, newBuildersForJobSet w.platform js scheduling = .ok builders ∧
    builders.length ≤ workloadMaxPodGroupTemplates
  minCounts : validateSchedulingGangMinCounts js = []

/-- The checks that a configuration without errors has passed. -/
theorem validateScheduling_parts {w : Webhook} {js : JobSet} {scheduling : JobSetScheduling}
    (hs : js.spec.scheduling = some scheduling)
    (h : validateScheduling w js (replicatedJobNames js) = []) :
    w.gates.jobSetWorkloadAwareSchedulingAPI = true ∧ js.spec.replicatedJobs ≠ [] ∧
      validateSchedulingWithBuilder w.platform w.lib js scheduling "spec.scheduling" = [] ∧
      validateTopLevelTotal js scheduling = [] ∧
      validateEntries js (replicatedJobNames js) scheduling.replicatedJobs 0 [] = [] ∧
      validateSchedulingGangMinCounts js = [] := by
  unfold validateScheduling at h
  rw [hs] at h
  by_cases hgate : w.gates.jobSetWorkloadAwareSchedulingAPI = true
  · simp only [hgate, Bool.not_true, Bool.false_eq_true, if_false] at h
    split_ifs at h with hempty
    simp only [List.append_eq_nil_iff] at h
    obtain ⟨⟨⟨⟨⟨⟨-, -⟩, hbuild⟩, htotal⟩, -⟩, hentries⟩, hmin⟩ := h
    exact ⟨hgate, hempty, hbuild, htotal, hentries, hmin⟩
  · simp [hgate, errorIf] at h

/-- Builders without errors exist, are not too many, and each is valid. -/
theorem validateSchedulingWithBuilder_valid {platform : Platform} {lib : BuilderLibrary}
    {js : JobSet} {scheduling : JobSetScheduling} {rootPath : String}
    (h : validateSchedulingWithBuilder platform lib js scheduling rootPath = []) :
    ∃ builders, newBuildersForJobSet platform js scheduling = .ok builders ∧
      builders.length ≤ workloadMaxPodGroupTemplates ∧
      ∀ item ∈ builders, lib.validate (buildOpts platform js) item = [] := by
  unfold validateSchedulingWithBuilder at h
  cases hb : newBuildersForJobSet platform js scheduling with
  | error name => simp [hb] at h
  | ok builders =>
    simp only [hb] at h
    split_ifs at h with hlen
    exact ⟨builders, rfl, not_lt.mp hlen, List.flatMap_eq_nil_iff.mp h⟩

/-- A configuration without errors has been checked. -/
theorem schedulingChecked_of_validate {w : Webhook} {js : JobSet} {scheduling : JobSetScheduling}
    (hs : js.spec.scheduling = some scheduling)
    (h : validateScheduling w js (replicatedJobNames js) = []) :
    w.gates.jobSetWorkloadAwareSchedulingAPI = true ∧ SchedulingChecked w js scheduling := by
  obtain ⟨hgate, -, hbuild, -, hentries, hmin⟩ := validateScheduling_parts hs h
  obtain ⟨hsub, hnodup, -⟩ := validateEntries_valid hentries
  obtain ⟨builders, hbuilders, hlen, -⟩ := validateSchedulingWithBuilder_valid hbuild
  exact ⟨hgate, fun name hname => List.mem_dedup.mp (hsub hname), hnodup,
    ⟨builders, hbuilders, hlen⟩, hmin⟩

/-! ## Updates keep the ReplicatedJobs -/

/-- The two versions of a ReplicatedJob have the same name and number of Jobs and, when
sizes are fixed, the same number of pods. -/
structure Kept (elastic : Bool) (old new : ReplicatedJob) : Prop where
  name : new.name = old.name
  replicas : new.replicas = old.replicas
  pods : elastic = false → jobParallelism new = jobParallelism old

theorem kept_of_semantic {gates : FeatureGates} {oldJs newJs : JobSet} {old new : ReplicatedJob}
    (h : (mungedReplicatedJob gates oldJs newJs new).semantic = old.semantic) :
    Kept gates.elasticJobSet old new := by
  have hsuspended : ∀ rjob, (mungeSuspended oldJs rjob).name = rjob.name ∧
      (mungeSuspended oldJs rjob).replicas = rjob.replicas ∧
      jobParallelism (mungeSuspended oldJs rjob) = jobParallelism rjob := by
    intro rjob
    unfold mungeSuspended
    cases oldJobsMap oldJs rjob.name <;> exact ⟨rfl, rfl, rfl⟩
  have helastic : ∀ rjob, (mungeElastic oldJs rjob).name = rjob.name ∧
      (mungeElastic oldJs rjob).replicas = rjob.replicas := by
    intro rjob
    unfold mungeElastic
    cases oldJobsMap oldJs rjob.name with
    | none => exact ⟨rfl, rfl⟩
    | some oldRJob =>
      dsimp only
      split_ifs <;> exact ⟨rfl, rfl⟩
  have hmunged : (mungedReplicatedJob gates oldJs newJs new).name = new.name ∧
      (mungedReplicatedJob gates oldJs newJs new).replicas = new.replicas ∧
      (gates.elasticJobSet = false →
        jobParallelism (mungedReplicatedJob gates oldJs newJs new) = jobParallelism new) := by
    unfold mungedReplicatedJob
    dsimp only
    split_ifs with hs he he <;>
      simp only [hsuspended, helastic, true_and, implies_true]
    · simp [he]
    · simp [he]
  have hname := congrArg ReplicatedJob.name h
  have hreplicas := congrArg ReplicatedJob.replicas h
  have hpods := congrArg jobParallelism h
  refine ⟨hmunged.1.symm.trans hname, hmunged.2.1.symm.trans hreplicas, fun he => ?_⟩
  exact (hmunged.2.2 he).symm.trans hpods

theorem forall₂_of_map_eq {α β γ : Type} {f : α → γ} {g : β → γ} {l : List α} {l' : List β}
    (h : l.map f = l'.map g) : List.Forall₂ (fun a b => f a = g b) l l' := by
  rw [← List.forall₂_eq_eq_eq, List.forall₂_map_left_iff, List.forall₂_map_right_iff] at h
  exact h

/-- An update keeps the ReplicatedJobs, position by position. -/
theorem validateUpdate_kept {w : Webhook} {old new : JobSet} (h : validateUpdate w old new = []) :
    List.Forall₂ (Kept w.gates.elasticJobSet) old.spec.replicatedJobs new.spec.replicatedJobs := by
  unfold validateUpdate at h
  simp only [List.append_eq_nil_iff, errorIf_eq_nil] at h
  obtain ⟨⟨⟨-, himmutable⟩, -⟩, -⟩ := h
  have heq := of_not_not (of_decide_eq_false himmutable)
  exact (forall₂_of_map_eq heq.symm).imp fun _ _ hkept => kept_of_semantic hkept.symm

theorem find_kept {elastic : Bool} {l l' : List ReplicatedJob} (h : List.Forall₂ (Kept elastic) l l')
    (name : String) :
    Option.Rel (Kept elastic) (l.find? fun rjob => rjob.name = name)
      (l'.find? fun rjob => rjob.name = name) :=
  Library.find?_forall₂ h fun _ _ hkept => by rw [hkept.name]

section Names

variable {elastic : Bool} {old new : JobSet}
  (hkept : List.Forall₂ (Kept elastic) old.spec.replicatedJobs new.spec.replicatedJobs)

include hkept

theorem kept_jobNames : new.jobNames = old.jobNames := by
  unfold JobSet.jobNames
  symm
  rw [← List.forall₂_eq_eq_eq, List.forall₂_map_left_iff, List.forall₂_map_right_iff]
  exact hkept.imp fun _ _ h => h.name.symm

theorem kept_rjobsByName (name : String) :
    Option.Rel (Kept elastic) (rjobsByName old name) (rjobsByName new name) :=
  find_kept (List.forall₂_reverse_iff.mpr hkept) name

theorem kept_members (targets : List String) :
    List.Forall₂ (Kept elastic) (targets.filterMap (rjobsByName old))
      (targets.filterMap (rjobsByName new)) := by
  induction targets with
  | nil => exact List.Forall₂.nil
  | cons name rest ih =>
    rw [List.filterMap_cons, List.filterMap_cons]
    have hname := kept_rjobsByName hkept name
    revert hname
    cases rjobsByName old name <;> cases rjobsByName new name <;> intro hname <;> cases hname
    · exact ih
    · rename_i hrel
      exact List.Forall₂.cons hrel ih

theorem kept_grouped (scheduling : JobSetScheduling) :
    grouped new scheduling = grouped old scheduling := by
  unfold grouped
  refine List.flatMap_congr fun policy _ => List.filter_congr fun name _ => ?_
  have hname := kept_rjobsByName hkept name
  revert hname
  cases rjobsByName old name <;> cases rjobsByName new name <;> intro hname <;> cases hname <;> rfl

variable (hsame : SameObject old new)

include hsame

/-- The template names do not change. -/
theorem kept_templateNames (platform : Platform) (scheduling : JobSetScheduling) :
    (sources new scheduling).map (Source.templateName platform new) =
      (sources old scheduling).map (Source.templateName platform old) := by
  have hentry : ∀ policy, (entrySources new policy).map (Source.templateName platform new) =
      (entrySources old policy).map (Source.templateName platform old) := by
    intro policy
    unfold entrySources
    have hmembers := kept_members hkept policy.targetReplicatedJobs
    revert hmembers
    cases policy.targetReplicatedJobs.filterMap (rjobsByName old) <;>
      cases policy.targetReplicatedJobs.filterMap (rjobsByName new) <;> intro hmembers <;>
      cases hmembers
    · rfl
    · rename_i hfirst hrest
      cases policy.job with
      | none =>
        simp only [List.map_cons, List.map_nil, Source.templateName, groupTemplateName, hsame.name,
          hsame.inNamespace]
      | some jobPolicy =>
        simp only [List.map_map, hfirst.replicas]
        refine List.map_congr_left fun jobIdx _ => ?_
        simp only [Function.comp_apply, Source.templateName, perJobTemplateName, hsame.name,
          hsame.inNamespace, hfirst.name]
  have hrest : (ungrouped new scheduling).map (fun rjob => perRJTemplateName platform new rjob.name) =
      (ungrouped old scheduling).map (fun rjob => perRJTemplateName platform old rjob.name) := by
    unfold ungrouped
    rw [kept_grouped hkept]
    symm
    rw [← List.forall₂_eq_eq_eq, List.forall₂_map_left_iff, List.forall₂_map_right_iff]
    have hfilter := List.rel_filter (R := Kept elastic)
      (p := fun rjob => rjob.name ∉ grouped old scheduling)
      (q := fun rjob => rjob.name ∉ grouped old scheduling)
      (fun a b hab => by simp [hab.name]) hkept
    refine hfilter.imp fun a b hab => ?_
    simp only [perRJTemplateName, hsame.name, hsame.inNamespace, hab.name]
  unfold sources
  split_ifs
  · simp only [List.map_cons, List.map_nil, Source.templateName, topLevelTemplateName, hsame.name,
      hsame.inNamespace]
  · rw [List.map_append, List.map_append, List.map_flatMap, List.map_flatMap, List.map_map,
      List.map_map]
    congr 1
    exact List.flatMap_congr fun policy _ => hentry policy

end Names

/-- With fixed sizes the check of the explicit minimums gives the same result. -/
theorem kept_minCounts {old new : JobSet}
    (hkept : List.Forall₂ (Kept false) old.spec.replicatedJobs new.spec.replicatedJobs)
    (hs : new.spec.scheduling = old.spec.scheduling) :
    validateSchedulingGangMinCounts new = validateSchedulingGangMinCounts old := by
  have hentry : validateEntryMinCount new = validateEntryMinCount old := by
    funext i entry
    unfold validateEntryMinCount
    split
    · rename_i target _ _
      have htarget := find_kept hkept target
      unfold replicatedJobByName
      revert htarget
      cases old.spec.replicatedJobs.find? fun rjob => rjob.name = target <;>
        cases new.spec.replicatedJobs.find? fun rjob => rjob.name = target <;>
        intro htarget <;> cases htarget
      · rfl
      · rename_i hrel
        simp only [hrel.pods rfl]
    · rfl
  unfold validateSchedulingGangMinCounts
  rw [hs, hentry]

/-! ## Admitted JobSets -/

theorem schemaValid_names {spec : JobSetSpec} (h : schemaValid spec = true) :
    (spec.replicatedJobs.map (·.name)).Nodup := by
  unfold schemaValid at h
  simp only [Bool.and_eq_true, decide_eq_true_eq] at h
  exact h.1.1.1

theorem Admitted.schemaValid {w : Webhook} {js : JobSet} (h : Admitted w js) :
    schemaValid js.spec = true := by
  induction h with
  | create schema _ => exact schema
  | update _ _ schema _ _ _ => exact schema
  | status _ _ ih => exact ih

/-- The scheduling configuration of an admitted JobSet has been checked. -/
theorem Admitted.schedulingChecked {w : Webhook} {js : JobSet} (h : Admitted w js) :
    ∀ scheduling, js.spec.scheduling = some scheduling →
      w.gates.jobSetWorkloadAwareSchedulingAPI = true ∧ SchedulingChecked w js scheduling := by
  induction h with
  | @create js schema valid =>
    intro scheduling hs
    unfold validateCreate at valid
    split at valid
    · cases valid
    · rw [Except.ok.injEq, List.append_eq_nil_iff] at valid
      exact schedulingChecked_of_validate hs valid.2
  | @update old new admitted same schema transition valid ih =>
    intro scheduling hs
    have hkept := validateUpdate_kept valid
    have hparts := valid
    unfold validateUpdate at hparts
    simp only [List.append_eq_nil_iff] at hparts
    obtain ⟨⟨⟨⟨helastic, -⟩, -⟩, -⟩, hscheduling⟩ := hparts
    unfold validateSchedulingUpdate at hscheduling
    split_ifs at hscheduling with hsame
    · -- the configuration is the old one; only the sizes may have moved
      obtain ⟨hgate, hold⟩ := ih scheduling (hsame.symm.trans hs)
      obtain ⟨builders, hbuilders, hlen⟩ := hold.built
      obtain ⟨rfl, hnodup⟩ := newBuildersForJobSet_ok hbuilders
      have hnames := kept_templateNames hkept same w.platform scheduling
      refine ⟨hgate, kept_jobNames hkept ▸ hold.exist, hold.targets,
        ⟨_, newBuildersForJobSet_of_nodup (hnames ▸ hnodup), ?_⟩, ?_⟩
      · have hlength := congrArg List.length hnames
        rw [List.length_map, List.length_map] at hlength
        rwa [List.length_map, hlength, ← List.length_map (f := Source.item w.platform old scheduling)]
      · cases he : w.gates.elasticJobSet with
        | false =>
          rw [he] at hkept
          rw [kept_minCounts hkept hsame]
          exact hold.minCounts
        | true =>
          rw [if_pos he, List.append_eq_nil_iff] at helastic
          exact helastic.2
    · exact schedulingChecked_of_validate hs hscheduling
  | status _ _ ih =>
    intro scheduling hs
    obtain ⟨hgate, hold⟩ := ih scheduling hs
    exact ⟨hgate, hold.exist, hold.targets, hold.built, hold.minCounts⟩

/-- The targets of an admitted JobSet are in order. -/
theorem Admitted.targeted {w : Webhook} {js : JobSet} (h : Admitted w js)
    {scheduling : JobSetScheduling} (hs : js.spec.scheduling = some scheduling) :
    Targeted js scheduling := by
  have hschema := h.schemaValid
  unfold JobSetOperator.schemaValid at hschema
  rw [hs] at hschema
  simp only [Bool.and_eq_true, Option.all_some] at hschema
  obtain ⟨-, hscheduling, -⟩ := hschema
  refine ⟨schemaValid_names h.schemaValid, (h.schedulingChecked scheduling hs).2.targets, ?_⟩
  intro entry hentry hjob
  unfold schedulingValid at hscheduling
  rw [Bool.and_eq_true, List.all_eq_true] at hscheduling
  have hvalid := hscheduling.2 entry hentry
  obtain ⟨job, hjob⟩ := Option.isSome_iff_exists.mp hjob
  unfold schedulingEntryValid at hvalid
  rw [hjob] at hvalid
  simp only [Option.all_some, Bool.and_eq_true, decide_eq_true_eq] at hvalid
  exact List.length_eq_one_iff.mp hvalid.2.1.1.1.1

/-! ## A concrete webhook -/

/-- Only the gate of the scheduling API. -/
def schedulingGates : FeatureGates :=
  { restartJobGates with restartJob := false, jobSetWorkloadAwareSchedulingAPI := true }

/-- A library that accepts every item and copies it. -/
def copyingLibrary : BuilderLibrary where
  validate _ _ := []
  buildWorkload opts item := .ok ⟨opts.owner.uid, [item.template]⟩
  newPodGroup _ tmpl := .ok tmpl.podGroup

theorem copyingLibrary_copies : copyingLibrary.Copies where
  build h := by
    cases h
    rfl
  podGroup h := by
    cases h
    rfl

/-- The digests of the identities of the JobSet `train`, and that of the empty string. -/
def trainDigests : Platform where
  sha1Hash identity :=
    if identity = "ReplicatedJobGroup/default/train/a-b" then
      "425f51e3c26b180d357074f607022682fe369d4f"
    else if identity = "JobSet/default/train" then "9820341ee6aef91745fbe7ddda68f01eb84002a9"
    else "da39a3ee5e6b4b0d3255bfef95601890afd80709"
  matchString _ _ := some true

/-- A webhook whose validators have no complaints about the names of `train`. -/
def trainWebhook : Webhook where
  platform := trainDigests
  gates := schedulingGates
  validators := ⟨fun _ => [], fun _ => [], fun _ => [], fun _ => [], fun base => base ++ "abcde"⟩
  lib := copyingLibrary
  claims _ := .notFound

/-- The two ReplicatedJobs of `train` are one gang. -/
def trainGang : JobSetScheduling := ⟨none, none, none, [⟨["a", "b"], none, none, none, none⟩]⟩

/-- A ReplicatedJob of one Job with the given number of pods. -/
def trainJob (name : String) (parallelism : ℤ) : ReplicatedJob :=
  let rjob := ReplicatedJob.single name 1
  { rjob with template := { rjob.template with
      spec := { rjob.template.spec with parallelism := some parallelism, completions := none } } }

/-- The JobSet `train`. -/
def trainSet (parallelism : ℤ) : JobSet :=
  { JobSet.zero with
    name := "train"
    inNamespace := "default"
    uid := "5f3c"
    spec := { JobSetSpec.zero with
      replicatedJobs := [trainJob "a" parallelism, trainJob "b" parallelism]
      scheduling := some trainGang } }

end JobSetOperator
