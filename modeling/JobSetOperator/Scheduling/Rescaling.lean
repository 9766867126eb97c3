import JobSetOperator.Admission.Checked
import JobSetOperator.Scheduling.Convergence

/-!
# Scaling a JobSet with scheduling objects

The sizes of a JobSet are the parallelism and completions of its ReplicatedJobs and
the explicit minimums of its Jobs. Two versions that differ in their sizes only
compile to the same templates up to the minimums, so the objects of one hold the
desired objects of the other. Over any run of passes for such versions nothing is
deleted, and a pass that returns without an error leaves the desired minimums.
-/
namespace JobSetOperator

open Library

/-! ## Versions of one size -/

def PodGroupSchedulingPolicy.unsized (policy : PodGroupSchedulingPolicy) :
    PodGroupSchedulingPolicy :=
  { policy with gang := policy.gang.map fun _ => none }

def JobScheduling.unsized (job : JobScheduling) : JobScheduling :=
  { job with schedulingPolicy := job.schedulingPolicy.map PodGroupSchedulingPolicy.unsized }

def ReplicatedJobScheduling.unsized (entry : ReplicatedJobScheduling) : ReplicatedJobScheduling :=
  { entry with job := entry.job.map JobScheduling.unsized }

def JobSetScheduling.unsized (scheduling : JobSetScheduling) : JobSetScheduling :=
  { scheduling with
    replicatedJobs := scheduling.replicatedJobs.map ReplicatedJobScheduling.unsized }

def ReplicatedJob.unsized (rjob : ReplicatedJob) : ReplicatedJob :=
  { rjob with
    template := { rjob.template with
      spec := { rjob.template.spec with parallelism := none, completions := none } } }

/-- The JobSet without its sizes. -/
def JobSet.unsized (js : JobSet) : JobSet :=
  { js with
    spec := { js.spec with
      replicatedJobs := js.spec.replicatedJobs.map ReplicatedJob.unsized
      scheduling := js.spec.scheduling.map JobSetScheduling.unsized } }

/-- Two versions of a JobSet that differ in the sizes that decide gang minimums. -/
structure Rescaled (old new : JobSet) : Prop where
  same : SameObject old new
  replicatedJobs : new.spec.replicatedJobs.map ReplicatedJob.unsized =
    old.spec.replicatedJobs.map ReplicatedJob.unsized
  scheduling : new.spec.scheduling.map JobSetScheduling.unsized =
    old.spec.scheduling.map JobSetScheduling.unsized

theorem Rescaled.refl (js : JobSet) : Rescaled js js := ⟨⟨rfl, rfl, rfl⟩, rfl, rfl⟩

/-! ## Sources without sizes -/

def Source.unsized : Source → Source
  | .jobSet => .jobSet
  | .group policy first members =>
    .group policy.unsized first.unsized (members.map ReplicatedJob.unsized)
  | .job rjob jobIdx policy => .job rjob.unsized jobIdx policy.unsized
  | .replicatedJob rjob => .replicatedJob rjob.unsized

theorem useTopLevelGang_unsized (scheduling : JobSetScheduling) :
    useTopLevelGang (some scheduling.unsized) = useTopLevelGang (some scheduling) := by
  unfold useTopLevelGang JobSetScheduling.unsized
  simp

section Sources

variable {js new : JobSet}
  (hrjobs : new.spec.replicatedJobs = js.spec.replicatedJobs.map ReplicatedJob.unsized)

include hrjobs

theorem rjobsByName_unsized (name : String) :
    rjobsByName new name = (rjobsByName js name).map ReplicatedJob.unsized := by
  unfold rjobsByName
  rw [hrjobs, ← List.map_reverse, List.find?_map]
  rfl

theorem members_unsized (targets : List String) :
    targets.filterMap (rjobsByName new) =
      (targets.filterMap (rjobsByName js)).map ReplicatedJob.unsized := by
  rw [List.map_filterMap]
  exact List.filterMap_congr fun name _ => rjobsByName_unsized hrjobs name

theorem entrySources_unsized (policy : ReplicatedJobScheduling) :
    entrySources new policy.unsized = (entrySources js policy).map Source.unsized := by
  unfold entrySources
  have htargets : policy.unsized.targetReplicatedJobs = policy.targetReplicatedJobs := rfl
  rw [htargets, members_unsized hrjobs]
  cases hmembers : policy.targetReplicatedJobs.filterMap (rjobsByName js) with
  | nil => rfl
  | cons first members =>
    cases hjob : policy.job with
    | none =>
      have hnone : policy.unsized.job = none := by simp [ReplicatedJobScheduling.unsized, hjob]
      simp only [List.map_cons, hnone]
      rfl
    | some job =>
      have hsome : policy.unsized.job = some job.unsized := by
        simp [ReplicatedJobScheduling.unsized, hjob]
      simp only [List.map_cons, hsome, List.map_map]
      rfl

theorem grouped_unsized (scheduling : JobSetScheduling) :
    grouped new scheduling.unsized = grouped js scheduling := by
  unfold grouped JobSetScheduling.unsized
  rw [List.flatMap_map]
  refine List.flatMap_congr fun policy _ => List.filter_congr fun name _ => ?_
  rw [rjobsByName_unsized hrjobs, Option.isSome_map]

/-- Sizes decide nothing about the sources. -/
theorem sources_unsized (scheduling : JobSetScheduling) :
    sources new scheduling.unsized = (sources js scheduling).map Source.unsized := by
  unfold sources
  rw [useTopLevelGang_unsized]
  split_ifs
  · rfl
  · have hungrouped : ungrouped new scheduling.unsized =
        (ungrouped js scheduling).map ReplicatedJob.unsized := by
      unfold ungrouped
      rw [grouped_unsized hrjobs, hrjobs, List.filter_map]
      rfl
    rw [hungrouped, List.map_append, List.map_map, List.map_map, List.map_flatMap]
    congr 1
    unfold JobSetScheduling.unsized
    rw [List.flatMap_map]
    exact List.flatMap_congr fun policy _ => entrySources_unsized hrjobs policy

end Sources

/-! ## Templates without minimums -/

/-- The template with a minimum of zero. -/
def PodGroupTemplate.zeroMinCount (tmpl : PodGroupTemplate) : PodGroupTemplate :=
  { tmpl with schedulingPolicy := tmpl.schedulingPolicy.zeroMinCount }

/-- The configuration of an item before its callbacks. -/
def WorkloadItem.overlay (item : WorkloadItem) : SchedulingConfig :=
  { item with callbacks := [] }.config

theorem podGroupPolicy_callback (minCount : ℤ) (cfg : SchedulingConfig) :
    (gangMinCountCallback minCount cfg).podGroupPolicy.zeroMinCount =
      cfg.podGroupPolicy.zeroMinCount := by
  obtain ⟨_ | ⟨basic, _ | _ | explicit⟩, constraints, mode, claims, priority⟩ := cfg <;> rfl

/-- A callback that sets a minimum decides nothing else. -/
theorem zeroMinCount_template {item : WorkloadItem} {minCount : ℤ}
    (h : item.callbacks = [gangMinCountCallback minCount]) :
    item.template.zeroMinCount = { item with callbacks := [] }.template.zeroMinCount := by
  have hconfig : item.config = gangMinCountCallback minCount item.overlay := by
    unfold WorkloadItem.overlay WorkloadItem.config
    rw [h]
    rfl
  have hother : ∀ cfg : SchedulingConfig,
      (gangMinCountCallback minCount cfg).constraints = cfg.constraints ∧
      (gangMinCountCallback minCount cfg).resourceClaims = cfg.resourceClaims ∧
      (gangMinCountCallback minCount cfg).disruptionMode = cfg.disruptionMode ∧
      (gangMinCountCallback minCount cfg).priorityClassName = cfg.priorityClassName := by
    intro cfg
    unfold gangMinCountCallback
    split <;> exact ⟨rfl, rfl, rfl, rfl⟩
  obtain ⟨hconstraints, hclaims, hmode, hclass⟩ := hother item.overlay
  unfold PodGroupTemplate.zeroMinCount WorkloadItem.template
  rw [PodGroupTemplate.mk.injEq]
  dsimp only
  rw [hconfig]
  exact ⟨rfl, podGroupPolicy_callback minCount item.overlay, hconstraints, hclaims, hmode, hclass⟩

/-- The policy of a configuration, as a template has it. -/
theorem podGroupPolicy_congr {a b : SchedulingConfig}
    (h : a.policy.map PodGroupSchedulingPolicy.unsized =
      b.policy.map PodGroupSchedulingPolicy.unsized) :
    a.podGroupPolicy.zeroMinCount = b.podGroupPolicy.zeroMinCount := by
  unfold SchedulingConfig.podGroupPolicy
  rcases hp : a.policy with _ | ⟨basic, gang⟩ <;> rcases hq : b.policy with _ | ⟨basic', gang'⟩ <;>
    rw [hp, hq] at h
  · cases h
  · cases h
  · cases gang <;> cases gang' <;>
      simp_all [PodGroupSchedulingPolicy.unsized, PodGroupPolicy.zeroMinCount]

/-- Items that differ in their callbacks and the minimum of their policy. -/
theorem template_congr {a b : WorkloadItem} {minCount minCount' : ℤ}
    (ha : a.callbacks = [gangMinCountCallback minCount])
    (hb : b.callbacks = [gangMinCountCallback minCount']) (hname : a.name = b.name)
    (hdefault : a.defaultConfig = b.defaultConfig)
    (hconstraints : a.input.constraints = b.input.constraints)
    (hmode : a.input.disruptionMode = b.input.disruptionMode)
    (hclaims : a.input.resourceClaims = b.input.resourceClaims)
    (hpolicy : (a.input.policy.podGroupData.or b.defaultConfig.policy).map
        PodGroupSchedulingPolicy.unsized =
      (b.input.policy.podGroupData.or b.defaultConfig.policy).map
        PodGroupSchedulingPolicy.unsized) :
    a.template.zeroMinCount = b.template.zeroMinCount := by
  rw [zeroMinCount_template ha, zeroMinCount_template hb]
  unfold PodGroupTemplate.zeroMinCount WorkloadItem.template
  rw [PodGroupTemplate.mk.injEq]
  refine ⟨hname, podGroupPolicy_congr ?_, ?_, ?_, ?_, ?_⟩
  · unfold WorkloadItem.config
    dsimp only [List.foldl_nil]
    rw [hdefault]
    exact hpolicy
  all_goals
    unfold WorkloadItem.config
    dsimp only [List.foldl_nil]
    rw [hdefault]
  · rw [hconstraints]
  · rw [hclaims]
  · rw [hmode]

/-- The policy of a Job with the global one as its fallback. -/
theorem fallback_unsized (scheduling : JobSetScheduling) (rjob rjob' : ReplicatedJob)
    (policy : JobScheduling) :
    ((((jobInput rjob' policy.unsized).orGlobal scheduling.unsized).policy.podGroupData).or
        (some ⟨none, some none⟩)).map PodGroupSchedulingPolicy.unsized =
      ((((jobInput rjob policy).orGlobal scheduling).policy.podGroupData).or
        (some ⟨none, some none⟩)).map PodGroupSchedulingPolicy.unsized := by
  cases hp : policy.schedulingPolicy with
  | none =>
    simp [JobScheduling.unsized, jobInput, WorkloadInput.orGlobal, mapInput, hp, BuilderInput.unset,
      BuilderInput.orElse, globalSchedulingInput, JobSetScheduling.unsized]
  | some own =>
    simp [JobScheduling.unsized, jobInput, WorkloadInput.orGlobal, mapInput, hp,
      BuilderInput.orElse, PodGroupSchedulingPolicy.unsized, Function.comp_def]

/-- The template of a source, up to its minimum, needs no sizes. -/
theorem template_unsized {js new : JobSet} (hname : new.name = js.name)
    (hns : new.inNamespace = js.inNamespace)
    (hrjobs : new.spec.replicatedJobs = js.spec.replicatedJobs.map ReplicatedJob.unsized)
    (platform : Platform) (scheduling : JobSetScheduling) (s : Source) :
    (s.unsized.item platform new scheduling.unsized).template.zeroMinCount =
      (s.item platform js scheduling).template.zeroMinCount := by
  cases s with
  | jobSet =>
    refine template_congr rfl rfl ?_ ?_ rfl rfl rfl rfl
    · simp only [Source.unsized, Source.item, buildTopLevelGangItem, topLevelTemplateName, hname, hns]
    · simp only [Source.unsized, Source.item, buildTopLevelGangItem, hrjobs]
      cases js.spec.replicatedJobs <;> rfl
  | group policy first members =>
    refine template_congr rfl rfl ?_ rfl rfl rfl rfl rfl
    simp only [Source.unsized, Source.item, buildGroupItem, groupTemplateName, hname, hns]
    rfl
  | job rjob jobIdx policy =>
    refine template_congr rfl rfl ?_ rfl ?_ ?_ ?_ (fallback_unsized scheduling rjob _ policy)
    · simp only [Source.unsized, Source.item, buildJobItem, perJobTemplateName, hname, hns]
      rfl
    all_goals rfl
  | replicatedJob rjob =>
    refine template_congr rfl rfl ?_ rfl rfl rfl rfl rfl
    simp only [Source.unsized, Source.item, buildPerRJItem, perRJTemplateName, hname, hns]
    rfl

/-- Two versions that differ in sizes compile to the same templates up to minimums. -/
theorem Rescaled.templates {old new : JobSet} (h : Rescaled old new) {platform : Platform}
    {scheduling scheduling' : JobSetScheduling} (hs : old.spec.scheduling = some scheduling)
    (hs' : new.spec.scheduling = some scheduling') :
    (sources new scheduling').map (fun s =>
        (s.item platform new scheduling').template.zeroMinCount) =
      (sources old scheduling).map fun s =>
        (s.item platform old scheduling).template.zeroMinCount := by
  have hshape : ∀ (js : JobSet) (scheduling : JobSetScheduling),
      js.name = old.name → js.inNamespace = old.inNamespace →
      js.spec.replicatedJobs.map ReplicatedJob.unsized =
        old.spec.replicatedJobs.map ReplicatedJob.unsized →
      (sources js scheduling).map (fun s =>
          (s.item platform js scheduling).template.zeroMinCount) =
        (sources old.unsized scheduling.unsized).map fun s =>
          (s.item platform old.unsized scheduling.unsized).template.zeroMinCount := by
    intro js scheduling hname hns hrjobs
    have hunsized : old.unsized.spec.replicatedJobs =
        js.spec.replicatedJobs.map ReplicatedJob.unsized := hrjobs.symm
    rw [sources_unsized hunsized, List.map_map]
    have hname' : old.unsized.name = js.name := hname.symm
    have hns' : old.unsized.inNamespace = js.inNamespace := hns.symm
    exact List.map_congr_left fun s _ =>
      (template_unsized hname' hns' hunsized platform scheduling s).symm
  have hscheduling := h.scheduling
  rw [hs, hs', Option.map_some, Option.map_some, Option.some_inj] at hscheduling
  rw [hshape new scheduling' h.same.name h.same.inNamespace h.replicatedJobs,
    hshape old scheduling rfl rfl rfl, hscheduling]

/-! ## Names of the objects -/

/-- The PodGroup names of the templates of a JobSet. -/
def podGroupNames (platform : Platform) (js : JobSet) (scheduling : JobSetScheduling) :
    List String :=
  (sources js scheduling).map fun s =>
    schedulingPodGroupName platform js (s.templateName platform js)

section Names

variable {old new : JobSet} (h : Rescaled old new) (platform : Platform)

include h

theorem Rescaled.workloadName : workloadName platform new = workloadName platform old := by
  unfold JobSetOperator.workloadName
  rw [h.same.name, h.same.inNamespace]

theorem Rescaled.schedulingPodGroupName (templateName : String) :
    schedulingPodGroupName platform new templateName =
      schedulingPodGroupName platform old templateName := by
  have htop : useTopLevelGang new.spec.scheduling = useTopLevelGang old.spec.scheduling := by
    have hscheduling := h.scheduling
    cases hnew : new.spec.scheduling with
    | none =>
      rw [hnew, Option.map_none] at hscheduling
      rw [Option.map_eq_none_iff.mp hscheduling.symm]
    | some scheduling' =>
      cases hold : old.spec.scheduling with
      | none =>
        rw [hnew, hold] at hscheduling
        cases hscheduling
      | some scheduling =>
        rw [hnew, hold, Option.map_some, Option.map_some, Option.some_inj] at hscheduling
        rw [← useTopLevelGang_unsized, hscheduling, useTopLevelGang_unsized]
  unfold JobSetOperator.schedulingPodGroupName
  rw [htop, h.same.name]

end Names

/-! ## The objects of one version hold those of another -/

/-- The templates are the same up to their minimums. -/
def SameButMinCounts (a b : WorkloadSpec) : Prop :=
  b.podGroupTemplates.map PodGroupTemplate.zeroMinCount =
    a.podGroupTemplates.map PodGroupTemplate.zeroMinCount

theorem PodGroupTemplate.Holds.of_zeroMinCount {a b stored : PodGroupTemplate}
    (h : a.Holds stored) (heq : b.zeroMinCount = a.zeroMinCount) : b.Holds stored := by
  obtain ⟨hname, hpolicy, hconstraints, hclaims, hmode, hclass⟩ :=
    (PodGroupTemplate.mk.injEq ..).mp heq
  obtain ⟨halike, hnorm⟩ := h
  refine ⟨halike.trans hpolicy.symm, ?_⟩
  exact ⟨hnorm.name.trans hname.symm, rfl, hnorm.disruptionMode.trans hmode.symm,
    hnorm.priorityClassName.trans hclass.symm,
    hnorm.schedulingConstraints.imp_right fun hk => hk.trans hconstraints.symm,
    hnorm.resourceClaims.imp_right fun hk => hk.trans hclaims.symm⟩

theorem PodGroupSpec.Holds.of_zeroMinCount {a b : PodGroupTemplate} {stored : PodGroupSpec}
    (h : a.podGroup.Holds stored) (heq : b.zeroMinCount = a.zeroMinCount) :
    b.podGroup.Holds stored := by
  obtain ⟨-, hpolicy, hconstraints, hclaims, hmode, hclass⟩ :=
    (PodGroupTemplate.mk.injEq ..).mp heq
  obtain ⟨halike, hnorm⟩ := h
  refine ⟨halike.trans hpolicy.symm, ?_⟩
  have hmode' : b.podGroup.disruptionMode = a.podGroup.disruptionMode := hmode
  have hclass' : b.podGroup.priorityClassName = a.podGroup.priorityClassName := hclass
  refine ⟨rfl, hnorm.schedulingConstraints.imp_right fun hk => hk.trans hconstraints.symm,
    hnorm.resourceClaims.imp_right fun hk => hk.trans hclaims.symm, ?_, ?_, Or.inl rfl, Or.inl rfl⟩
  · rw [hmode']
    exact hnorm.disruptionMode
  · rw [hclass']
    exact hnorm.priorityClassName

theorem holds_of_sameButMinCounts {a b : List PodGroupTemplate} {stored : List PodGroupTemplate}
    (heq : b.map PodGroupTemplate.zeroMinCount = a.map PodGroupTemplate.zeroMinCount)
    (h : List.Forall₂ PodGroupTemplate.Holds a stored) :
    List.Forall₂ PodGroupTemplate.Holds b stored := by
  induction h generalizing b with
  | nil =>
    rw [List.map_nil, List.map_eq_nil_iff] at heq
    rw [heq]
    exact List.Forall₂.nil
  | cons hfirst _ ih =>
    cases b with
    | nil => cases heq
    | cons tmpl rest =>
      rw [List.map_cons, List.map_cons, List.cons.injEq] at heq
      exact List.Forall₂.cons (hfirst.of_zeroMinCount heq.1) (ih heq.2)

/-- Objects that are aligned for one version are aligned for another one. -/
theorem Aligned.rescaled {platform : Platform} {a b : JobSet} {wla wlb : WorkloadSpec}
    {s : SchedulingStore} (h : Aligned platform a wla False s)
    (hworkload : workloadName platform b = workloadName platform a)
    (hpodGroup : ∀ name, schedulingPodGroupName platform b name =
      schedulingPodGroupName platform a name) (hsame : SameButMinCounts wla wlb) :
    Aligned platform b wlb False s := by
  constructor
  · intro stored hstored
    rw [hworkload] at hstored
    obtain ⟨spec, hspec, hholds, -⟩ := h.workload stored hstored
    exact ⟨spec, hspec, holds_of_sameButMinCounts hsame hholds, False.elim⟩
  · intro tmpl htmpl stored hstored
    obtain ⟨tmpl', htmpl', heq⟩ : ∃ tmpl' ∈ wla.podGroupTemplates,
        tmpl'.zeroMinCount = tmpl.zeroMinCount := by
      have hmem := List.mem_map_of_mem (f := PodGroupTemplate.zeroMinCount) htmpl
      rw [hsame] at hmem
      exact List.mem_map.mp hmem
    have hname : tmpl.name = tmpl'.name := (congrArg PodGroupTemplate.name heq).symm
    rw [hname, hpodGroup] at hstored
    obtain ⟨spec, hspec, hholds, -⟩ := h.podGroup tmpl' htmpl' stored hstored
    exact ⟨spec, hspec, hholds.of_zeroMinCount heq.symm, False.elim⟩

/-! ## Runs of passes -/

/-- One pass for a version of the JobSet; `faults` says whether calls may fail. -/
def ObjectsPass (faults : Prop) (w : Webhook) (js : JobSet) (s : SchedulingStore)
    (t : List (Σ r : SchedulingRequest, r.Response)) (res : Except String Unit)
    (s' : SchedulingStore) : Prop :=
  ∃ scheduling, js.spec.scheduling = some scheduling ∧
    Program.Runs (serves faults) s (reconcileSchedulingObjects w.platform w.lib js scheduling)
      t res s'

/-- The objects of the JobSet do not exist. -/
structure ObjectsMissing (platform : Platform) (js : JobSet) (scheduling : JobSetScheduling)
    (s : SchedulingStore) : Prop where
  workload : s.workloads (workloadName platform js) = none
  podGroup : ∀ name ∈ podGroupNames platform js scheduling, s.podGroups name = none

/-- The objects of the JobSet exist. -/
structure ObjectsExist (platform : Platform) (js : JobSet) (scheduling : JobSetScheduling)
    (s : SchedulingStore) : Prop where
  workload : (s.workloads (workloadName platform js)).isSome = true
  podGroup : ∀ name ∈ podGroupNames platform js scheduling, (s.podGroups name).isSome = true

/-- What passes for versions of the JobSet lead to, when its objects did not exist. Any
call of any pass may fail. -/
inductive Managed (w : Webhook) (js : JobSet) (scheduling : JobSetScheduling)
    (version : JobSet → Prop) : SchedulingStore → Prop
  | missing {s : SchedulingStore} (h : ObjectsMissing w.platform js scheduling s) :
    Managed w js scheduling version s
  | pass {s s' : SchedulingStore} {js' : JobSet}
    {t : List (Σ r : SchedulingRequest, r.Response)} {res : Except String Unit}
    (before : Managed w js scheduling version s) (v : version js')
    (run : ObjectsPass True w js' s t res s') : Managed w js scheduling version s'

/-- The versions of a JobSet that differ in sizes. -/
def Version (w : Webhook) (js js' : JobSet) : Prop := Admitted w js' ∧ Rescaled js js'

/-- The minimums of the Workload and the PodGroups are those the JobSet compiles to. -/
def MinCountsDesired (w : Webhook) (js : JobSet) (s : SchedulingStore) : Prop :=
  ∃ scheduling wl, js.spec.scheduling = some scheduling ∧
    buildWorkload w.platform w.lib js scheduling = .ok wl ∧
    (∃ stored, s.workloads (workloadName w.platform js) = some stored ∧
      stored.spec.podGroupTemplates.map (·.schedulingPolicy.gang) =
        wl.podGroupTemplates.map (·.schedulingPolicy.gang)) ∧
    ∀ tmpl ∈ wl.podGroupTemplates, ∃ stored,
      s.podGroups (schedulingPodGroupName w.platform js tmpl.name) = some stored ∧
      stored.spec.schedulingPolicy.gang = tmpl.schedulingPolicy.gang

/-- A pass for the JobSet only reads. -/
def WriteFree (w : Webhook) (js : JobSet) (s : SchedulingStore) : Prop :=
  ∀ t res s', ObjectsPass True w js s t res s' → (∀ c ∈ t, c.1.isRead = true) ∧ s' = s

/-- The library compiles the JobSet. -/
def Compiles (w : Webhook) (js : JobSet) : Prop :=
  ∃ scheduling wl, js.spec.scheduling = some scheduling ∧
    buildWorkload w.platform w.lib js scheduling = .ok wl ∧ ∀ tmpl ∈ wl.podGroupTemplates,
      ∃ spec, w.lib.newPodGroup (buildOpts w.platform js) tmpl = .ok spec

/-- The scheduling objects of the JobSet converge without churn. -/
structure Converges (w : Webhook) (js : JobSet) (scheduling : JobSetScheduling) : Prop where
  unchanged {s : SchedulingStore} (h : Managed w js scheduling (· = js) s)
    (he : ObjectsExist w.platform js scheduling s) : WriteFree w js s
  scaled {s s' : SchedulingStore} {js' : JobSet}
    {t : List (Σ r : SchedulingRequest, r.Response)} {res : Except String Unit}
    (h : Managed w js scheduling (Version w js) s)
    (he : ObjectsExist w.platform js scheduling s) (v : Version w js js')
    (run : ObjectsPass True w js' s t res s') :
    (∀ c ∈ t, c.1.isRead = true ∨ c.1.isUpdate = true) ∧
      (res = .ok () → MinCountsDesired w js' s' ∧ WriteFree w js' s')
  created {s s' : SchedulingStore} {js' : JobSet}
    {t : List (Σ r : SchedulingRequest, r.Response)} {res : Except String Unit}
    (h : Managed w js scheduling (Version w js) s) (v : Version w js js')
    (run : ObjectsPass True w js' s t res s') :
    (∀ c ∈ t, c.1.isDelete = false) ∧
      (res = .ok () → ObjectsExist w.platform js scheduling s' ∧ WriteFree w js' s')
  returns {s : SchedulingStore} {js' : JobSet} (h : Managed w js scheduling (Version w js) s)
    (v : Version w js js') (hc : Compiles w js') :
    (∃ t res s', ObjectsPass False w js' s t res s') ∧
      ∀ t res s', ObjectsPass False w js' s t res s' → res = .ok ()

section Runs

variable {w : Webhook} {js js' : JobSet} {scheduling scheduling' : JobSetScheduling}
  {wl wl' : WorkloadSpec} {s s' : SchedulingStore}

/-- The templates of a version, up to their minimums. -/
theorem Rescaled.sameButMinCounts (h : Rescaled js js') (hlib : w.lib.Copies)
    (hs : js.spec.scheduling = some scheduling) (hs' : js'.spec.scheduling = some scheduling')
    (hwl' : buildWorkload w.platform w.lib js' scheduling' = .ok wl') :
    wl'.podGroupTemplates.map PodGroupTemplate.zeroMinCount =
      (sources js scheduling).map fun s =>
        (s.item w.platform js scheduling).template.zeroMinCount := by
  rw [(buildWorkload_templates hlib hwl').1, List.map_map]
  exact h.templates hs hs'

/-- The PodGroup names of a version. -/
theorem Rescaled.podGroupNames (h : Rescaled js js') (hlib : w.lib.Copies)
    (hs : js.spec.scheduling = some scheduling) (hs' : js'.spec.scheduling = some scheduling')
    (hwl' : buildWorkload w.platform w.lib js' scheduling' = .ok wl') :
    wl'.podGroupTemplates.map (fun tmpl =>
      JobSetOperator.schedulingPodGroupName w.platform js' tmpl.name) =
        JobSetOperator.podGroupNames w.platform js scheduling := by
  have hnames := congrArg
    (List.map fun tmpl => JobSetOperator.schedulingPodGroupName w.platform js tmpl.name)
    (h.sameButMinCounts hlib hs hs' hwl')
  rw [List.map_map, List.map_map] at hnames
  unfold JobSetOperator.podGroupNames
  simp only [h.schedulingPodGroupName]
  refine hnames.trans (List.map_congr_left fun s _ => ?_)
  have hname : (s.item w.platform js scheduling).template.zeroMinCount.name =
      s.templateName w.platform js := Source.item_name w.platform js scheduling s
  rw [Function.comp_apply, hname]

/-- A pass without a compiled Workload makes no call. -/
theorem ObjectsPass.of_build_error {faults : Prop} {t : List (Σ r : SchedulingRequest, r.Response)}
    {res : Except String Unit} {err : String} (h : ObjectsPass faults w js s t res s')
    (hs : js.spec.scheduling = some scheduling)
    (hwl : buildWorkload w.platform w.lib js scheduling = .error err) :
    t = [] ∧ s' = s ∧ ∃ err, res = .error err := by
  obtain ⟨scheduling', hs', hrun⟩ := h
  rw [hs, Option.some_inj] at hs'
  subst hs'
  unfold reconcileSchedulingObjects at hrun
  rw [hwl] at hrun
  obtain ⟨rfl, rfl, rfl⟩ := hrun
  exact ⟨rfl, rfl, _, rfl⟩

/-- What a pass leaves. -/
theorem ObjectsPass.step {faults create update exact : Prop}
    {t : List (Σ r : SchedulingRequest, r.Response)} {res : Except String Unit}
    (h : ObjectsPass faults w js s t res s') (hlib : w.lib.Copies)
    (hs : js.spec.scheduling = some scheduling)
    (hwl : buildWorkload w.platform w.lib js scheduling = .ok wl)
    (hnodup : (wl.podGroupTemplates.map fun tmpl =>
      schedulingPodGroupName w.platform js tmpl.name).Nodup)
    (hat : Aligned w.platform js wl exact s) (hcreate : ¬ Present w.platform js wl s → create)
    (hupdate : ¬ AllSettled w.platform js wl s → update) :
    (∀ c ∈ t, Permits create update c.1) ∧
      PassStep w.platform js wl faults exact w.lib s s' res := by
  obtain ⟨scheduling', hs', hrun⟩ := h
  rw [hs, Option.some_inj] at hs'
  subst hs'
  exact (reconcileSchedulingObjects_ensures hlib hwl hnodup hat hcreate hupdate).runs hrun

/-- Missing objects are aligned for every version. -/
theorem ObjectsMissing.aligned {exact : Prop} (h : ObjectsMissing w.platform js scheduling s)
    (hworkload : workloadName w.platform js' = workloadName w.platform js)
    (hnames : wl'.podGroupTemplates.map (fun tmpl =>
      schedulingPodGroupName w.platform js' tmpl.name) = podGroupNames w.platform js scheduling) :
    Aligned w.platform js' wl' exact s := by
  constructor
  · intro stored hstored
    rw [hworkload] at hstored
    exact absurd (h.workload.symm.trans hstored) (by simp)
  · intro tmpl htmpl stored hstored
    have hmem : schedulingPodGroupName w.platform js' tmpl.name ∈
        podGroupNames w.platform js scheduling := hnames ▸ List.mem_map_of_mem htmpl
    exact absurd ((h.podGroup _ hmem).symm.trans hstored) (by simp)

/-- Over a run for versions that differ in sizes the objects stay aligned for each of them. -/
theorem Managed.aligned (hlib : w.lib.Copies) (hs : js.spec.scheduling = some scheduling)
    (hdistinct : (podGroupNames w.platform js scheduling).Nodup)
    (h : Managed w js scheduling (Version w js) s) (v : Version w js js')
    (hs' : js'.spec.scheduling = some scheduling')
    (hwl' : buildWorkload w.platform w.lib js' scheduling' = .ok wl') :
    Aligned w.platform js' wl' False s := by
  induction h generalizing js' scheduling' wl' with
  | missing h =>
    exact h.aligned (v.2.workloadName w.platform) (v.2.podGroupNames hlib hs hs' hwl')
  | @pass s s' mid t res before u run ih =>
    obtain ⟨scheduling'', hs'', -⟩ := id run
    cases hmid : buildWorkload w.platform w.lib mid scheduling'' with
    | error err =>
      obtain ⟨-, rfl, -⟩ := run.of_build_error hs'' hmid
      exact ih v hs' hwl'
    | ok wl'' =>
      have hnodup := hdistinct
      rw [← u.2.podGroupNames hlib hs hs'' hmid] at hnodup
      have hstep := (run.step hlib hs'' hmid hnodup (ih u hs'' hmid) (fun _ => trivial)
        fun _ => trivial).2
      refine hstep.aligned.rescaled ?_ ?_ ?_
      · rw [v.2.workloadName, u.2.workloadName]
      · intro name
        rw [v.2.schedulingPodGroupName, u.2.schedulingPodGroupName]
      · exact (v.2.sameButMinCounts hlib hs hs' hwl').trans
          (u.2.sameButMinCounts hlib hs hs'' hmid).symm

/-- Over a run for one version the objects that exist are exact. -/
theorem Managed.exact (hlib : w.lib.Copies) (hs : js.spec.scheduling = some scheduling)
    (hdistinct : (podGroupNames w.platform js scheduling).Nodup)
    (h : Managed w js scheduling (· = js) s)
    (hwl : buildWorkload w.platform w.lib js scheduling = .ok wl) :
    Aligned w.platform js wl True s := by
  have hnames := (Rescaled.refl js).podGroupNames hlib hs hs hwl
  induction h with
  | missing h => exact h.aligned rfl hnames
  | @pass s s' mid t res before u run ih =>
    cases u
    have hstep := (run.step hlib hs hwl (hnames ▸ hdistinct) ih (fun _ => trivial)
      fun _ => trivial).2
    exact hstep.aligned

/-- The objects of the JobSet are those of each version. -/
theorem objectsExist_iff (h : Rescaled js js')
    (hnames : wl'.podGroupTemplates.map (fun tmpl =>
      schedulingPodGroupName w.platform js' tmpl.name) = podGroupNames w.platform js scheduling) :
    ObjectsExist w.platform js scheduling s ↔ Present w.platform js' wl' s := by
  constructor
  · intro he
    refine ⟨h.workloadName w.platform ▸ he.workload, fun tmpl htmpl => ?_⟩
    exact he.podGroup _ (hnames ▸ List.mem_map_of_mem htmpl)
  · intro hp
    refine ⟨h.workloadName w.platform ▸ hp.workload, fun name hname => ?_⟩
    rw [← hnames] at hname
    obtain ⟨tmpl, htmpl, rfl⟩ := List.mem_map.mp hname
    exact hp.podGroup tmpl htmpl

/-- A pass over settled objects only reads. -/
theorem AllSettled.quiet (h : AllSettled w.platform js wl s) (hlib : w.lib.Copies)
    (hs : js.spec.scheduling = some scheduling)
    (hwl : buildWorkload w.platform w.lib js scheduling = .ok wl)
    (hnodup : (wl.podGroupTemplates.map fun tmpl =>
      schedulingPodGroupName w.platform js tmpl.name).Nodup) : WriteFree w js s := by
  intro t res s' hpass
  have hat : Aligned w.platform js wl True s := h.aligned
  obtain ⟨hcalls, hstep⟩ := hpass.step hlib hs hwl hnodup hat
    (fun hn => hn h.present) (fun hn => hn h)
  refine ⟨fun c hc => ?_, hstep.same h⟩
  obtain ⟨r, x⟩ := c
  have hpermits := hcalls _ hc
  cases r <;> first | rfl | exact hpermits.elim

theorem AllSettled.minCountsDesired (h : AllSettled w.platform js wl s)
    (hs : js.spec.scheduling = some scheduling)
    (hwl : buildWorkload w.platform w.lib js scheduling = .ok wl) : MinCountsDesired w js s := by
  refine ⟨scheduling, wl, hs, hwl, ?_, fun tmpl htmpl => ?_⟩
  · obtain ⟨spec, hspec, hkeeps⟩ := h.workload
    refine ⟨_, hspec, ?_⟩
    unfold WorkloadSpec.KeepsTemplates at hkeeps
    rw [← List.forall₂_eq_eq_eq, List.forall₂_map_left_iff, List.forall₂_map_right_iff]
    exact (hkeeps.imp fun _ _ hnorm => congrArg PodGroupPolicy.gang hnorm.schedulingPolicy).flip
  · obtain ⟨spec, hspec, hnorm⟩ := h.podGroup tmpl htmpl
    exact ⟨_, hspec, congrArg PodGroupPolicy.gang hnorm.schedulingPolicy⟩

end Runs

/-- With distinct PodGroup names the scheduling objects converge without churn. -/
theorem schedulingObjects_converge {w : Webhook} (hlib : w.lib.Copies) {js : JobSet}
    (hadm : Admitted w js) {scheduling : JobSetScheduling}
    (hs : js.spec.scheduling = some scheduling)
    (hdistinct : (podGroupNames w.platform js scheduling).Nodup) : Converges w js scheduling := by
  have hself : Version w js js := ⟨hadm, Rescaled.refl js⟩
  constructor
  case unchanged =>
    intro s h he t res s' hpass
    cases hwl : buildWorkload w.platform w.lib js scheduling with
    | error err =>
      obtain ⟨rfl, rfl, -⟩ := hpass.of_build_error hs hwl
      exact ⟨by simp, rfl⟩
    | ok wl =>
      have hnames := hself.2.podGroupNames hlib hs hs hwl
      have hpresent := (objectsExist_iff hself.2 hnames).mp he
      have hsettled := hpresent.settled (h.exact hlib hs hdistinct hwl)
      exact hsettled.quiet hlib hs hwl (hnames ▸ hdistinct) t res s' hpass
  case scaled =>
    intro s s' js' t res h he v run
    obtain ⟨scheduling', hs', -⟩ := id run
    cases hwl : buildWorkload w.platform w.lib js' scheduling' with
    | error err =>
      obtain ⟨rfl, -, err, rfl⟩ := run.of_build_error hs' hwl
      exact ⟨by simp, fun hok => by cases hok⟩
    | ok wl =>
      have hnames := v.2.podGroupNames hlib hs hs' hwl
      have hpresent := (objectsExist_iff v.2 hnames).mp he
      obtain ⟨hcalls, hstep⟩ := run.step hlib hs' hwl (hnames ▸ hdistinct)
        (h.aligned hlib hs hdistinct v hs' hwl) (fun hn => hn hpresent) (fun _ => trivial)
      refine ⟨fun c hc => ?_, fun hok => ?_⟩
      · obtain ⟨r, x⟩ := c
        have hpermits := hcalls _ hc
        cases r <;> first | exact Or.inl rfl | exact Or.inr rfl | exact hpermits.elim
      · have hsettled := hstep.ok hok
        exact ⟨hsettled.minCountsDesired hs' hwl,
          hsettled.quiet hlib hs' hwl (hnames ▸ hdistinct)⟩
  case created =>
    intro s s' js' t res h v run
    obtain ⟨scheduling', hs', -⟩ := id run
    cases hwl : buildWorkload w.platform w.lib js' scheduling' with
    | error err =>
      obtain ⟨rfl, -, err, rfl⟩ := run.of_build_error hs' hwl
      exact ⟨by simp, fun hok => by cases hok⟩
    | ok wl =>
      have hnames := v.2.podGroupNames hlib hs hs' hwl
      obtain ⟨hcalls, hstep⟩ := run.step hlib hs' hwl (hnames ▸ hdistinct)
        (h.aligned hlib hs hdistinct v hs' hwl) (fun _ => trivial) (fun _ => trivial)
      refine ⟨fun c hc => ?_, fun hok => ?_⟩
      · obtain ⟨r, x⟩ := c
        have hpermits := hcalls _ hc
        cases r <;> first | rfl | exact hpermits.elim
      · have hsettled := hstep.ok hok
        exact ⟨(objectsExist_iff v.2 hnames).mpr hsettled.present,
          hsettled.quiet hlib hs' hwl (hnames ▸ hdistinct)⟩
  case returns =>
    intro s js' h v hc
    obtain ⟨scheduling', wl, hs', hwl, hnew⟩ := hc
    have hnames := v.2.podGroupNames hlib hs hs' hwl
    constructor
    · exact ⟨_, _, _, scheduling', hs', Program.runs_execute (serves_serve False) s _⟩
    · intro t res s' run
      have hstep := (run.step hlib hs' hwl (hnames ▸ hdistinct)
        (h.aligned hlib hs hdistinct v hs' hwl) (fun _ => trivial) fun _ => trivial).2
      exact hstep.returns not_false hnew

/-- The objects of `train` converge. -/
theorem schedulingObjects_converge_train :
    ∃ js, Admitted trainWebhook js ∧ js.spec.scheduling = some trainGang ∧
      (podGroupNames trainDigests js trainGang).Nodup ∧ Converges trainWebhook js trainGang := by
  have hadm : Admitted trainWebhook (defaultJobSet schedulingGates (trainSet 3)) := by
    apply Admitted.create
    · decide +kernel
    · decide +kernel
  have hdistinct : (podGroupNames trainDigests (defaultJobSet schedulingGates (trainSet 3))
      trainGang).Nodup := by
    decide +kernel
  exact ⟨_, hadm, rfl, hdistinct,
    schedulingObjects_converge copyingLibrary_copies hadm rfl hdistinct⟩

/-! ## Two templates with one PodGroup name -/

/-- Digests of the JobSet `language-model-pretraining-run`. The first forty bits of the
last two are the same. -/
def pretrainingDigests : Platform where
  sha1Hash identity :=
    if identity = "JobSet/default/language-model-pretraining-run" then
      "276c0aa3fd5693278cddd409cefffdcd845d944c"
    else if identity =
        "ReplicatedJobGroup/default/language-model-pretraining-run/training-worker-101fc1" then
      "194792a4560ca12921272dca6dd7004860a2b04f"
    else if identity =
        "ReplicatedJobGroup/default/language-model-pretraining-run/training-worker-167d2a" then
      "810500a475c5a72e8b56074ad85d39cf72c43283"
    else if identity = "language-model-pretraining-run/training-worker-101fc1-194792a456" then
      "f4299cc77d6ff44922a5ddc30e39b4d973828b6a"
    else if identity = "language-model-pretraining-run/training-worker-167d2a-810500a475" then
      "f4299cc77d296fd08fae21172b5acb3a9b7c0657"
    else "da39a3ee5e6b4b0d3255bfef95601890afd80709"
  matchString _ _ := some true

def pretrainingWebhook : Webhook := { trainWebhook with platform := pretrainingDigests }

/-- Each of the two ReplicatedJobs is a gang. -/
def pretrainingGangs : JobSetScheduling :=
  ⟨none, none, none, [⟨["training-worker-101fc1"], none, none, none, none⟩,
    ⟨["training-worker-167d2a"], none, none, none, none⟩]⟩

/-- One pod and two pods. -/
def pretrainingSet : JobSet :=
  defaultJobSet schedulingGates { JobSet.zero with
    name := "language-model-pretraining-run"
    inNamespace := "default"
    uid := "5f3c"
    spec := { JobSetSpec.zero with
      replicatedJobs := [trainJob "training-worker-101fc1" 1, trainJob "training-worker-167d2a" 2]
      scheduling := some pretrainingGangs } }

/-- A store without objects. -/
def emptyStore : SchedulingStore := ⟨fun _ => none, fun _ => none⟩

/-- A pass against a server that stores what it is sent. -/
def executePass (w : Webhook) (js : JobSet) (scheduling : JobSetScheduling) (s : SchedulingStore) :
    List (Σ r : SchedulingRequest, r.Response) × Except String Unit × SchedulingStore :=
  Program.execute serve s (reconcileSchedulingObjects w.platform w.lib js scheduling)

theorem executePass_run {w : Webhook} {js : JobSet} {scheduling : JobSetScheduling}
    (hs : js.spec.scheduling = some scheduling) (s : SchedulingStore) :
    ObjectsPass True w js s (executePass w js scheduling s).1 (executePass w js scheduling s).2.1
      (executePass w js scheduling s).2.2 :=
  ⟨scheduling, hs, Program.runs_execute (serves_serve True) s _⟩

/-- The objects after the first pass. -/
def pretrainingStore : SchedulingStore :=
  (executePass pretrainingWebhook pretrainingSet pretrainingGangs emptyStore).2.2

/-- Two templates with one PodGroup name patch the minimum of the PodGroup back and forth
in every pass. -/
theorem schedulingObjects_churn :
    Admitted pretrainingWebhook pretrainingSet ∧
      pretrainingSet.spec.scheduling = some pretrainingGangs ∧ pretrainingWebhook.lib.Copies ∧
      ¬ Converges pretrainingWebhook pretrainingSet pretrainingGangs := by
  refine ⟨?_, rfl, copyingLibrary_copies, fun h => ?_⟩
  · apply Admitted.create
    · decide +kernel
    · decide +kernel
  · have hs : pretrainingSet.spec.scheduling = some pretrainingGangs := rfl
    have hmissing : Managed pretrainingWebhook pretrainingSet pretrainingGangs (· = pretrainingSet)
        emptyStore := Managed.missing ⟨rfl, fun _ _ => rfl⟩
    have hmanaged : Managed pretrainingWebhook pretrainingSet pretrainingGangs (· = pretrainingSet)
        pretrainingStore := hmissing.pass rfl (executePass_run hs emptyStore)
    have hfacts :
        (pretrainingStore.workloads (workloadName pretrainingDigests pretrainingSet)).isSome = true ∧
        (∀ name ∈ podGroupNames pretrainingDigests pretrainingSet pretrainingGangs,
          (pretrainingStore.podGroups name).isSome = true) ∧
        ¬ ∀ c ∈ (executePass pretrainingWebhook pretrainingSet pretrainingGangs
          pretrainingStore).1, c.1.isRead = true := by
      decide +kernel
    obtain ⟨hworkload, hpodGroups, hwrites⟩ := hfacts
    have hexist : ObjectsExist pretrainingDigests pretrainingSet pretrainingGangs
        pretrainingStore := ⟨hworkload, hpodGroups⟩
    have hquiet := (h.unchanged hmanaged hexist _ _ _ (executePass_run hs pretrainingStore)).1
    exact hwrites hquiet

end JobSetOperator
