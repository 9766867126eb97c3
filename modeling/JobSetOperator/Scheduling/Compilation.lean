import JobSetOperator.Admission.Checked
import JobSetOperator.Scheduling.Objects

/-!
# What admission accepts compiles

The webhook and the controller run the same builders. The webhook refuses a name
that is not unique, more templates than a Workload holds, and items the library
finds invalid; the controller also refuses a configuration without any item. So
an accepted configuration compiles unless it has no item, which is so when every
ReplicatedJob is targeted by an entry with `job` and has no replicas.
-/
namespace JobSetOperator

open Library

/-! ## Configurations without items -/

/-- The ReplicatedJob has gangs for its Jobs, and no Jobs. -/
def Itemless (scheduling : JobSetScheduling) (rjob : ReplicatedJob) : Prop :=
  rjob.replicas = 0 ∧ ∃ entry ∈ scheduling.replicatedJobs,
    entry.job.isSome = true ∧ rjob.name ∈ entry.targetReplicatedJobs

/-- An entry with `job` has one target. -/
theorem validateEntries_single {js : JobSet} {rjobNames : List String}
    {entries : List ReplicatedJobScheduling} {i : ℕ} {targeted : List String}
    (h : validateEntries js rjobNames entries i targeted = []) {entry : ReplicatedJobScheduling}
    (hentry : entry ∈ entries) (hjob : entry.job.isSome = true)
    (hne : entry.targetReplicatedJobs ≠ []) : ∃ name, entry.targetReplicatedJobs = [name] := by
  induction entries generalizing i targeted with
  | nil => cases hentry
  | cons first rest ih =>
    unfold validateEntries at h
    dsimp only at h
    rw [List.append_eq_nil_iff, List.append_eq_nil_iff] at h
    obtain ⟨⟨hsplit, hown⟩, hrest⟩ := h
    rcases List.mem_cons.mp hentry with rfl | hentry
    · obtain ⟨-, -, -, hmap⟩ := splitTargets_valid hsplit
      have hvalid : (splitTargets rjobNames (schedulingEntryPath i ++ ".targetReplicatedJobs")
          entry.targetReplicatedJobs 0 targeted).2 ≠ [] := by
        intro hnil
        rw [hnil] at hmap
        exact hne hmap.symm
      rw [if_neg hvalid, if_pos hjob] at hown
      unfold validateJobEntry at hown
      simp only [List.append_eq_nil_iff, errorIf_eq_nil] at hown
      exact List.length_eq_one_iff.mp (by simpa using hown.1)
    · exact ih hrest hentry

section Items

variable {js : JobSet} {scheduling : JobSetScheduling}

/-- What the checks of the entries leave to be said about the sources. -/
structure EntriesInOrder (js : JobSet) (scheduling : JobSetScheduling) : Prop where
  names : js.jobNames.Nodup
  nonempty : js.spec.replicatedJobs ≠ []
  once : (scheduling.replicatedJobs.flatMap (·.targetReplicatedJobs)).Nodup
  single {entry : ReplicatedJobScheduling} (h : entry ∈ scheduling.replicatedJobs)
    (hjob : entry.job.isSome = true) (hne : entry.targetReplicatedJobs ≠ []) :
    ∃ name, entry.targetReplicatedJobs = [name]

/-- A ReplicatedJob that is not itemless has a source. -/
theorem EntriesInOrder.itemless_of_no_sources (h : EntriesInOrder js scheduling)
    (hnone : sources js scheduling = []) {rjob : ReplicatedJob}
    (hr : rjob ∈ js.spec.replicatedJobs) : Itemless scheduling rjob := by
  unfold sources at hnone
  split_ifs at hnone
  obtain ⟨hentries, hrest⟩ := List.append_eq_nil_iff.mp hnone
  have hgrouped : rjob.name ∈ grouped js scheduling := by
    by_contra hnot
    have hmem : rjob ∈ ungrouped js scheduling := List.mem_filter.mpr ⟨hr, by simpa using hnot⟩
    rw [List.map_eq_nil_iff.mp hrest] at hmem
    cases hmem
  obtain ⟨⟨entry, hentry, hname⟩, -⟩ := mem_grouped.mp hgrouped
  have hempty := List.flatMap_eq_nil_iff.mp hentries entry hentry
  have hmember := (mem_members h.names).mpr ⟨hr, hname⟩
  unfold entrySources at hempty
  cases hmembers : entry.targetReplicatedJobs.filterMap (rjobsByName js) with
  | nil =>
    rw [hmembers] at hmember
    cases hmember
  | cons first members =>
    cases hjob : entry.job with
    | none => simp [hmembers, hjob] at hempty
    | some jobPolicy =>
      -- the only target of the entry is the ReplicatedJob
      have hsome : entry.job.isSome = true := by rw [hjob]; rfl
      obtain ⟨name, htargets⟩ := h.single hentry hsome (List.ne_nil_of_mem hname)
      obtain rfl : rjob.name = name := by simpa [htargets] using hname
      have hself : entry.targetReplicatedJobs.filterMap (rjobsByName js) = [rjob] := by
        rw [htargets]
        simp [rjobsByName_of_mem h.names hr]
      simp only [hself, hjob, List.map_eq_nil_iff, List.range_eq_nil] at hempty
      exact ⟨hempty, entry, hentry, hsome, hname⟩

/-- ReplicatedJobs that are all itemless have no sources. -/
theorem EntriesInOrder.no_sources (h : EntriesInOrder js scheduling)
    (hall : ∀ rjob ∈ js.spec.replicatedJobs, Itemless scheduling rjob) :
    sources js scheduling = [] := by
  obtain ⟨some_rjob, hsome⟩ := List.exists_mem_of_ne_nil _ h.nonempty
  have hmode : useTopLevelGang (some scheduling) = false := by
    obtain ⟨-, entry, hentry, -⟩ := hall some_rjob hsome
    unfold useTopLevelGang
    cases hentries : scheduling.replicatedJobs with
    | nil =>
      rw [hentries] at hentry
      cases hentry
    | cons => simp [hentries]
  unfold sources
  rw [if_neg (by simp [hmode]), List.append_eq_nil_iff]
  constructor
  · rw [List.flatMap_eq_nil_iff]
    intro entry hentry
    unfold entrySources
    cases hmembers : entry.targetReplicatedJobs.filterMap (rjobsByName js) with
    | nil => rfl
    | cons first members =>
      have hfirst : first ∈ entry.targetReplicatedJobs.filterMap (rjobsByName js) := by
        rw [hmembers]
        exact List.mem_cons_self
      obtain ⟨hr, hname⟩ := (mem_members h.names).mp hfirst
      obtain ⟨hreplicas, other, hother, hjob, hname'⟩ := hall first hr
      obtain rfl := entry_unique h.once hentry hother hname hname'
      obtain ⟨jobPolicy, hjob⟩ := Option.isSome_iff_exists.mp hjob
      simp [hjob, hreplicas]
  · rw [List.map_eq_nil_iff]
    apply List.filter_eq_nil_iff.mpr
    intro rjob hr
    obtain ⟨-, entry, hentry, -, hname⟩ := hall rjob hr
    have hgrouped : rjob.name ∈ grouped js scheduling :=
      mem_grouped.mpr ⟨⟨entry, hentry, hname⟩, by rw [rjobsByName_of_mem h.names hr]; rfl⟩
    simpa using hgrouped

end Items

/-! ## Building the Workload -/

/-- What the controller relies on: an item without errors compiles, the Workloads of one
JobSet have one controller, and a compiled template has a PodGroup. -/
structure BuilderLibrary.Compiles (lib : BuilderLibrary) : Prop where
  built {opts : BuildOptions} {item : WorkloadItem} (h : lib.validate opts item = []) :
    ∃ wl, lib.buildWorkload opts item = .ok wl
  controllerRef {opts : BuildOptions} {item item' : WorkloadItem} {wl wl' : WorkloadSpec}
    (h : lib.buildWorkload opts item = .ok wl) (h' : lib.buildWorkload opts item' = .ok wl') :
    wl.controllerRef = wl'.controllerRef
  materialized {opts : BuildOptions} {item : WorkloadItem} {wl : WorkloadSpec}
    (h : lib.buildWorkload opts item = .ok wl) {tmpl : PodGroupTemplate}
    (ht : tmpl ∈ wl.podGroupTemplates) : ∃ spec, lib.newPodGroup opts tmpl = .ok spec

theorem mergeTemplates_of_built {build : WorkloadItem → Except String WorkloadSpec}
    {controllerRef : String} {items : List WorkloadItem}
    (h : ∀ item ∈ items, ∃ wl, build item = .ok wl ∧ wl.controllerRef = controllerRef) :
    ∃ templates, mergeTemplates build controllerRef items = .ok templates := by
  induction items with
  | nil => exact ⟨[], rfl⟩
  | cons item rest ih =>
    obtain ⟨wl, hwl, href⟩ := h item List.mem_cons_self
    obtain ⟨templates, htemplates⟩ := ih fun other hother => h other (List.mem_cons_of_mem _ hother)
    unfold mergeTemplates
    rw [hwl, except_ok_bind, if_neg (by simp [href]), htemplates]
    exact ⟨_, rfl⟩

/-- Items that compile for one controller are merged, if there are any. -/
theorem buildWorkloadFromBuilders_of_built {build : WorkloadItem → Except String WorkloadSpec}
    {items : List WorkloadItem} (hne : items ≠ [])
    (hbuilt : ∀ item ∈ items, ∃ wl, build item = .ok wl)
    (href : ∀ item item' wl wl', build item = .ok wl → build item' = .ok wl' →
      wl.controllerRef = wl'.controllerRef) :
    ∃ wl, buildWorkloadFromBuilders build items = .ok wl := by
  unfold buildWorkloadFromBuilders
  split
  · exact (hne rfl).elim
  · exact hbuilt _ List.mem_cons_self
  · rename_i first rest _
    obtain ⟨base, hbase⟩ := hbuilt first List.mem_cons_self
    have hmerged : ∃ templates,
        mergeTemplates build base.controllerRef (first :: rest) = .ok templates := by
      apply mergeTemplates_of_built
      intro item hitem
      obtain ⟨wl, hwl⟩ := hbuilt item hitem
      exact ⟨wl, hwl, href _ _ _ _ hwl hbase⟩
    obtain ⟨templates, htemplates⟩ := hmerged
    rw [hbase, except_ok_bind, htemplates]
    exact ⟨_, rfl⟩

/-! ## Passes over the objects -/

/-- A server that fulfils every call; what it finds is controlled by the JobSet. -/
def fulfils (_ : Unit) : (r : SchedulingRequest) → r.Response → Unit → Prop
  | .getWorkload _, x, _ => x = Lookup.notFound ∨ ∃ object : Stored WorkloadSpec,
      x = .found object ∧ object.controlled = true
  | .createWorkload _ _, x, _ => ∀ err, x ≠ Creation.failed err
  | .updateWorkload _ _, x, _ => x = Except.ok ()
  | .deleteWorkload _, x, _ => ∀ err, x ≠ Deletion.failed err
  | .listPodGroups _, x, _ => ∃ l, x = Except.ok l
  | .getPodGroup _, x, _ => x = Lookup.notFound ∨ ∃ object : Stored PodGroupSpec,
      x = .found object ∧ object.controlled = true
  | .createPodGroup _ _, x, _ => ∀ err, x ≠ Creation.failed err
  | .updatePodGroup _ _, x, _ => x = Except.ok ()
  | .deletePodGroup _, x, _ => ∀ err, x ≠ Deletion.failed err

/-- A server with all objects, none of them being deleted. -/
def finds (_ : Unit) : (r : SchedulingRequest) → r.Response → Unit → Prop
  | .getWorkload _, x, _ => ∃ object : Stored WorkloadSpec,
      x = Lookup.found object ∧ object.deletionTimestamp = none
  | .getPodGroup _, x, _ => ∃ object : Stored PodGroupSpec,
      x = Lookup.found object ∧ object.deletionTimestamp = none
  | _, _, _ => True

/-- The program returns, whatever is found. -/
abbrev Completes {α : Type} (p : SchedulingProg α) : Prop :=
  Program.Yields fulfils (fun _ _ => True) () p

theorem completes_done {α : Type} (a : α) : Completes (.done a : SchedulingProg α) :=
  Program.yields_done trivial

theorem Completes.bind {α β : Type} {p : SchedulingProg α} {f : α → SchedulingProg β}
    (h : Completes p) (hf : ∀ a, Completes (f a)) : Completes (p >>= f) :=
  Program.Yields.bind h fun _ a _ => hf a

theorem Completes.mapFailure {α : Type} {p : SchedulingProg α} (h : Completes p)
    (f : String → String) : Completes (JobSetOperator.mapFailure f p) := by
  induction p with
  | done a => exact h
  | fail err =>
    obtain ⟨a, ha, -⟩ := h
    cases ha
  | call r k ih => exact ⟨trivial, fun x s' hx => ih x (h.2 x s' hx)⟩

theorem completes_deletePodGroups (podGroups : List (String × Stored PodGroupSpec)) :
    Completes (deletePodGroups podGroups) := by
  induction podGroups with
  | nil => exact completes_done ()
  | cons entry rest ih =>
    obtain ⟨name, podGroup⟩ := entry
    unfold deletePodGroups
    split_ifs
    · exact ih
    · apply Program.ensures_ask_bind
      intro answer _ hanswer
      cases answer with
      | failed err => exact (hanswer err rfl).elim
      | deleted => exact ih
      | notFound => exact ih

theorem completes_deleteOwnWorkload (name : String) : Completes (deleteOwnWorkload name) := by
  apply Program.ensures_ask_bind
  intro lookup _ hlookup
  rcases hlookup with rfl | ⟨workload, rfl, hcontrolled⟩
  · exact completes_done ()
  · dsimp only
    rw [hcontrolled]
    apply Program.ensures_ask_bind
    intro answer _ hanswer
    cases answer with
    | failed err => exact (hanswer err rfl).elim
    | deleted => exact completes_done ()
    | notFound => exact completes_done ()

theorem completes_deleteStaleObjects (platform : Platform) (js : JobSet) :
    Completes (deleteStaleObjects platform js) := by
  apply Completes.mapFailure
  apply Program.ensures_ask_bind
  rintro _ _ ⟨podGroups, rfl⟩
  exact (completes_deletePodGroups podGroups).bind fun _ => completes_deleteOwnWorkload _

section Pass

variable {platform : Platform} {lib : BuilderLibrary} {js : JobSet}

theorem completes_reconcileExistingWorkload {existing : Stored WorkloadSpec}
    (h : existing.controlled = true) (desired : WorkloadSpec) :
    Completes (reconcileExistingWorkload platform js existing desired) := by
  unfold reconcileExistingWorkload
  dsimp only
  rw [h, Bool.not_true, if_neg Bool.false_ne_true]
  split_ifs
  · exact completes_done false
  · exact (completes_deleteStaleObjects platform js).bind fun _ => completes_done false
  · apply Program.ensures_ask_bind
    rintro _ _ rfl
    exact completes_done true
  · exact completes_done true

theorem completes_reconcileWorkload (desired : WorkloadSpec) :
    Completes (reconcileWorkload platform js desired) := by
  apply Program.ensures_ask_bind
  rintro _ _ (rfl | ⟨existing, rfl, hcontrolled⟩)
  · apply Program.ensures_ask_bind
    intro answer _ hanswer
    cases answer with
    | failed err => exact (hanswer err rfl).elim
    | created => exact completes_done true
    | alreadyExists => exact completes_done true
  · exact completes_reconcileExistingWorkload hcontrolled desired

theorem completes_reconcileExistingPodGroup {existing : Stored PodGroupSpec}
    (h : existing.controlled = true) (pgName : String) (desired : PodGroupSpec) :
    Completes (reconcileExistingPodGroup platform js pgName existing desired) := by
  unfold reconcileExistingPodGroup
  rw [h, Bool.not_true, if_neg Bool.false_ne_true]
  split_ifs
  · exact completes_done false
  · exact (completes_deleteStaleObjects platform js).bind fun _ => completes_done false
  · apply Program.ensures_ask_bind
    rintro _ _ rfl
    exact completes_done true
  · exact completes_done true

theorem completes_reconcilePodGroup {tmpl : PodGroupTemplate} {desired : PodGroupSpec}
    (h : lib.newPodGroup (buildOpts platform js) tmpl = .ok desired) :
    Completes (reconcilePodGroup platform lib js tmpl) := by
  unfold reconcilePodGroup
  dsimp only
  rw [h]
  apply Program.ensures_ask_bind
  rintro _ _ (rfl | ⟨existing, rfl, hcontrolled⟩)
  · apply Program.ensures_ask_bind
    intro answer _ hanswer
    cases answer with
    | failed err => exact (hanswer err rfl).elim
    | created => exact completes_done true
    | alreadyExists => exact completes_done true
  · exact completes_reconcileExistingPodGroup hcontrolled _ desired

theorem completes_reconcilePodGroups {templates : List PodGroupTemplate}
    (h : ∀ tmpl ∈ templates, ∃ spec, lib.newPodGroup (buildOpts platform js) tmpl = .ok spec) :
    Completes (reconcilePodGroups platform lib js templates) := by
  induction templates with
  | nil => exact completes_done ()
  | cons tmpl rest ih =>
    obtain ⟨spec, hspec⟩ := h tmpl List.mem_cons_self
    apply (completes_reconcilePodGroup hspec).bind
    intro goOn
    split_ifs
    · exact ih fun other hother => h other (List.mem_cons_of_mem _ hother)
    · exact completes_done ()

/-- A pass over a Workload that compiles and whose templates have PodGroups returns. -/
theorem completes_reconcileSchedulingObjects {scheduling : JobSetScheduling} {wl : WorkloadSpec}
    (hwl : buildWorkload platform lib js scheduling = .ok wl)
    (h : ∀ tmpl ∈ wl.podGroupTemplates,
      ∃ spec, lib.newPodGroup (buildOpts platform js) tmpl = .ok spec) :
    Completes (reconcileSchedulingObjects platform lib js scheduling) := by
  unfold reconcileSchedulingObjects
  rw [hwl]
  apply (completes_reconcileWorkload wl).bind
  intro goOn
  split_ifs
  · exact completes_reconcilePodGroups h
  · exact completes_done ()

theorem yields_podGroupsReady (templates : List PodGroupTemplate) :
    Program.Yields finds (fun _ ready => ready = true) () (podGroupsReady platform js templates) := by
  induction templates with
  | nil => exact Program.yields_done rfl
  | cons tmpl rest ih =>
    apply Program.ensures_ask_bind
    rintro _ _ ⟨podGroup, rfl, hlive⟩
    dsimp only
    rw [hlive, Option.isSome_none, if_neg Bool.false_ne_true]
    exact ih

/-- Objects that are there do not block the Jobs of a Workload that compiles. -/
theorem yields_schedulingObjectsReady {scheduling : JobSetScheduling} {wl : WorkloadSpec}
    (hwl : buildWorkload platform lib js scheduling = .ok wl) :
    Program.Yields finds (fun _ ready => ready = true) ()
      (schedulingObjectsReady platform lib js scheduling) := by
  unfold schedulingObjectsReady
  rw [hwl]
  apply Program.ensures_ask_bind
  rintro _ _ ⟨workload, rfl, hlive⟩
  dsimp only
  rw [hlive, Option.isSome_none, if_neg Bool.false_ne_true]
  exact yields_podGroupsReady _

end Pass

/-! ## Accepted configurations -/

/-- The configuration compiles: the Workload has templates, at most as many as it holds, a pass
over its objects fails only if a call does, and objects that are there let the Jobs start. -/
structure Compilation (w : Webhook) (js : JobSet) (scheduling : JobSetScheduling) : Prop where
  workload : ∃ wl, buildWorkload w.platform w.lib js scheduling = .ok wl ∧
    1 ≤ wl.podGroupTemplates.length ∧ wl.podGroupTemplates.length ≤ workloadMaxPodGroupTemplates
  reconciled {t : List (Σ r : SchedulingRequest, r.Response)} {res : Except String Unit}
    (run : Program.Runs fulfils () (reconcileSchedulingObjects w.platform w.lib js scheduling)
      t res ()) : res = .ok ()
  unblocked {t : List (Σ r : SchedulingRequest, r.Response)} {res : Except String Bool}
    (run : Program.Runs finds () (schedulingObjectsReady w.platform w.lib js scheduling)
      t res ()) : res = .ok true

section Accepted

variable {w : Webhook} {js : JobSet} {scheduling : JobSetScheduling}

/-- What validation establishes about the entries. -/
theorem entriesInOrder_of_validate (hnames : js.jobNames.Nodup)
    (hs : js.spec.scheduling = some scheduling)
    (h : validateScheduling w js (replicatedJobNames js) = []) :
    EntriesInOrder js scheduling := by
  obtain ⟨-, hne, -, -, hentries, -⟩ := validateScheduling_parts hs h
  obtain ⟨-, hnodup, -⟩ := validateEntries_valid hentries
  exact ⟨hnames, hne, hnodup, validateEntries_single hentries⟩

/-- An accepted configuration with a source compiles. -/
theorem compilation_of_sources (hcopies : w.lib.Copies) (hlib : w.lib.Compiles)
    (hs : js.spec.scheduling = some scheduling)
    (h : validateScheduling w js (replicatedJobNames js) = [])
    (hne : sources js scheduling ≠ []) : Compilation w js scheduling := by
  obtain ⟨-, -, hbuild, -⟩ := validateScheduling_parts hs h
  obtain ⟨builders, hbuilders, hlength, hvalid⟩ := validateSchedulingWithBuilder_valid hbuild
  obtain ⟨heq, -⟩ := newBuildersForJobSet_ok hbuilders
  have hitems : builders ≠ [] := by
    rw [heq]
    simpa using hne
  obtain ⟨wl, hwl⟩ := buildWorkloadFromBuilders_of_built hitems
    (fun item hitem => hlib.built (hvalid item hitem)) fun _ _ _ _ => hlib.controllerRef
  have hworkload : buildWorkload w.platform w.lib js scheduling = .ok wl := by
    unfold buildWorkload
    rw [hbuilders]
    exact hwl
  have htemplates := buildWorkloadFromBuilders_ok (fun _ _ => hcopies.build) hwl
  have hmaterialized : ∀ tmpl ∈ wl.podGroupTemplates,
      ∃ spec, w.lib.newPodGroup (buildOpts w.platform js) tmpl = .ok spec := by
    intro tmpl htmpl
    rw [htemplates] at htmpl
    obtain ⟨item, hitem, rfl⟩ := List.mem_map.mp htmpl
    obtain ⟨single, hsingle⟩ := hlib.built (hvalid item hitem)
    exact hlib.materialized hsingle (by rw [hcopies.build hsingle]; exact List.mem_singleton_self _)
  constructor
  · refine ⟨wl, hworkload, ?_, ?_⟩
    · rw [htemplates, List.length_map]
      exact List.length_pos_iff.mpr hitems
    · rwa [htemplates, List.length_map]
  · intro t res run
    obtain ⟨-, -, rfl, -⟩ := (completes_reconcileSchedulingObjects hworkload hmaterialized).runs run
    rfl
  · intro t res run
    obtain ⟨-, -, rfl, rfl⟩ := (yields_schedulingObjectsReady hworkload).runs run
    rfl

/-- An accepted configuration compiles exactly if some ReplicatedJob has an item. -/
theorem compilation_iff (hcopies : w.lib.Copies) (hlib : w.lib.Compiles)
    (hnames : js.jobNames.Nodup) (hs : js.spec.scheduling = some scheduling)
    (h : validateScheduling w js (replicatedJobNames js) = []) :
    Compilation w js scheduling ↔ ∃ rjob ∈ js.spec.replicatedJobs, ¬ Itemless scheduling rjob := by
  have horder := entriesInOrder_of_validate hnames hs h
  constructor
  · intro hcompiles
    by_contra hnone
    push Not at hnone
    have hempty := horder.no_sources hnone
    obtain ⟨wl, hwl, hpos, -⟩ := hcompiles.workload
    obtain ⟨htemplates, -⟩ := buildWorkload_templates hcopies hwl
    rw [htemplates, hempty] at hpos
    cases hpos
  · rintro ⟨rjob, hr, hitem⟩
    apply compilation_of_sources hcopies hlib hs h
    exact fun hempty => hitem (horder.itemless_of_no_sources hempty hr)

end Accepted

/-! ## Gangs for each Job -/

theorem copyingLibrary_compiles : copyingLibrary.Compiles where
  built _ := ⟨_, rfl⟩
  controllerRef h h' := by
    cases h
    cases h'
    rfl
  materialized _ _ _ := ⟨_, rfl⟩

/-- A gang for each Job of the ReplicatedJob `a`. -/
def perJobGangs : JobSetScheduling :=
  ⟨none, none, none, [⟨["a"], none, none, none, some ⟨none, none, none, []⟩⟩]⟩

/-- The JobSet `train` of one ReplicatedJob with the given number of Jobs, each a gang. -/
def perJobSet (replicas : ℕ) : JobSet :=
  let js := trainSet 1
  defaultJobSet schedulingGates { js with spec := { js.spec with
    replicatedJobs := [.single "a" replicas]
    scheduling := some perJobGangs } }

/-- The digests of the Jobs of `train`. -/
def perJobDigests : Platform where
  sha1Hash identity :=
    if identity = "Job/default/train/a/0" then "84eec46857042969b3d553660dde73a2d3d82d35"
    else if identity = "Job/default/train/a/1" then "d6adc19f458e89e77c8749d6db991ba2e3292023"
    else "da39a3ee5e6b4b0d3255bfef95601890afd80709"
  matchString _ _ := some true

def perJobWebhook : Webhook := { trainWebhook with platform := perJobDigests }

/-- Two gangs compile. -/
theorem compilation_perJobSet : validateScheduling perJobWebhook (perJobSet 2) ["a"] = [] ∧
    Compilation perJobWebhook (perJobSet 2) perJobGangs := by
  have hvalid : validateScheduling perJobWebhook (perJobSet 2) (replicatedJobNames (perJobSet 2)) =
      [] := by
    decide +kernel
  have hcompiles := compilation_iff copyingLibrary_copies copyingLibrary_compiles
    (by decide +kernel) rfl hvalid
  refine ⟨hvalid, hcompiles.mpr ⟨_, List.mem_singleton_self _, ?_⟩⟩
  rintro ⟨hreplicas, -⟩
  cases hreplicas

/-- The webhook admits gangs for the Jobs of a ReplicatedJob that has none, and every pass of
the controller ends with an error. -/
theorem not_compilation_perJobSet : Admitted perJobWebhook (perJobSet 0) ∧
    validateScheduling perJobWebhook (perJobSet 0) (replicatedJobNames (perJobSet 0)) = [] ∧
    (∀ opts item, perJobWebhook.lib.validate opts item = [] →
      ∃ wl, perJobWebhook.lib.buildWorkload opts item = .ok wl) ∧
    reconcileSchedulingObjects perJobDigests copyingLibrary (perJobSet 0) perJobGangs =
      .fail "building Workload: no scheduling items were compiled from spec.scheduling" ∧
    ¬ Compilation perJobWebhook (perJobSet 0) perJobGangs := by
  have hadmitted : Admitted perJobWebhook (perJobSet 0) := by
    apply Admitted.create
    · decide +kernel
    · decide +kernel
  have herror : buildWorkload perJobWebhook.platform perJobWebhook.lib (perJobSet 0) perJobGangs =
      .error "no scheduling items were compiled from spec.scheduling" := by
    rfl
  refine ⟨hadmitted, by decide +kernel, fun _ _ _ => ⟨_, rfl⟩, ?_, ?_⟩
  · rfl
  · intro hcompiles
    obtain ⟨wl, hwl, -⟩ := hcompiles.workload
    rw [herror] at hwl
    cases hwl

end JobSetOperator
