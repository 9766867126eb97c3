import JobSetOperator.Scheduling.Builder

/-!
# What a PodGroup template stands for

Every template of the Workload is compiled from one source: the JobSet, a group of
ReplicatedJobs, one Job, or one ReplicatedJob. The builders list the sources of a
JobSet; the per-Job lookup names the source of one Job. Both are functions to
`Source`, so that their agreement is a fact about lists and needs no names.
-/
namespace JobSetOperator

/-- What a template is compiled from. -/
inductive Source
  | jobSet
  | group (policy : ReplicatedJobScheduling) (first : ReplicatedJob) (members : List ReplicatedJob)
  | job (rjob : ReplicatedJob) (jobIdx : ℕ) (policy : JobScheduling)
  | replicatedJob (rjob : ReplicatedJob)
  deriving DecidableEq

/-- The item of a source. -/
def Source.item (platform : Platform) (js : JobSet) (scheduling : JobSetScheduling) :
    Source → WorkloadItem
  | .jobSet => buildTopLevelGangItem platform js scheduling
  | .group policy first members => buildGroupItem platform js first members policy scheduling
  | .job rjob jobIdx policy => buildJobItem platform js rjob jobIdx policy scheduling
  | .replicatedJob rjob => buildPerRJItem platform js rjob scheduling

/-- The name of the template of a source. -/
def Source.templateName (platform : Platform) (js : JobSet) : Source → String
  | .jobSet => topLevelTemplateName platform js
  | .group policy _ _ => groupTemplateName platform js policy.targetReplicatedJobs
  | .job rjob jobIdx _ => perJobTemplateName platform js rjob.name jobIdx
  | .replicatedJob rjob => perRJTemplateName platform js rjob.name

@[simp] theorem Source.item_name (platform : Platform) (js : JobSet) (scheduling : JobSetScheduling)
    (s : Source) : (s.item platform js scheduling).name = s.templateName platform js := by
  cases s <;> rfl

/-- The sources of an entry of `replicatedJobs`. -/
def entrySources (js : JobSet) (policy : ReplicatedJobScheduling) : List Source :=
  match policy.targetReplicatedJobs.filterMap (rjobsByName js) with
  | [] => []
  | first :: members =>
    match policy.job with
    | some jobPolicy => (List.range first.replicas).map fun jobIdx => .job first jobIdx jobPolicy
    | none => [.group policy first members]

/-- The ReplicatedJobs no entry names. -/
def ungrouped (js : JobSet) (scheduling : JobSetScheduling) : List ReplicatedJob :=
  js.spec.replicatedJobs.filter fun rjob => rjob.name ∉ grouped js scheduling

/-- The sources of a JobSet, in the order of the builders. -/
def sources (js : JobSet) (scheduling : JobSetScheduling) : List Source :=
  if useTopLevelGang (some scheduling) then [.jobSet]
  else scheduling.replicatedJobs.flatMap (entrySources js) ++
    (ungrouped js scheduling).map .replicatedJob

/-! ## The builders list the sources -/

section Builders

variable {platform : Platform} {js : JobSet} {scheduling : JobSetScheduling}

theorem entryItems_eq (policy : ReplicatedJobScheduling) :
    entryItems platform js scheduling policy =
      (entrySources js policy).map (Source.item platform js scheduling) := by
  unfold entryItems entrySources
  cases policy.targetReplicatedJobs.filterMap (rjobsByName js) with
  | nil => rfl
  | cons first members =>
    cases policy.job with
    | none => rfl
    | some jobPolicy =>
      rw [List.map_map]
      rfl

theorem addBuilders_ok {items builders result : List WorkloadItem}
    (h : items.foldlM addBuilder builders = .ok result)
    (hn : (builders.map (·.name)).Nodup) :
    result = builders ++ items ∧ (result.map (·.name)).Nodup := by
  induction items generalizing builders with
  | nil =>
    cases h
    simpa using hn
  | cons item rest ih =>
    rw [List.foldlM_cons] at h
    obtain ⟨next, hnext, hrest⟩ := except_bind_ok h
    unfold addBuilder at hnext
    split_ifs at hnext with hmem
    cases hnext
    have hnodup : ((builders ++ [item]).map (·.name)).Nodup := by
      rw [List.map_append, List.map_singleton]
      exact List.Nodup.append hn (List.nodup_singleton _) (by simpa using hmem)
    obtain ⟨hresult, hall⟩ := ih hrest hnodup
    exact ⟨by simpa using hresult, hall⟩

theorem addEntries_ok {policies : List ReplicatedJobScheduling} {builders result : List WorkloadItem}
    (h : policies.foldlM (fun builders policy =>
      (entryItems platform js scheduling policy).foldlM addBuilder builders) builders = .ok result)
    (hn : (builders.map (·.name)).Nodup) :
    result = builders ++ policies.flatMap (entryItems platform js scheduling) ∧
      (result.map (·.name)).Nodup := by
  induction policies generalizing builders with
  | nil =>
    cases h
    simpa using hn
  | cons policy rest ih =>
    rw [List.foldlM_cons] at h
    obtain ⟨next, hnext, hrest⟩ := except_bind_ok h
    obtain ⟨rfl, hnodup⟩ := addBuilders_ok hnext hn
    obtain ⟨hresult, hall⟩ := ih hrest hnodup
    exact ⟨by simpa using hresult, hall⟩

/-- The builders of a JobSet are the items of its sources, under distinct names. -/
theorem newBuildersForJobSet_ok {builders : List WorkloadItem}
    (h : newBuildersForJobSet platform js scheduling = .ok builders) :
    builders = (sources js scheduling).map (Source.item platform js scheduling) ∧
      ((sources js scheduling).map (Source.templateName platform js)).Nodup := by
  have hnames : ∀ l : List Source, (l.map (Source.item platform js scheduling)).map (·.name) =
      l.map (Source.templateName platform js) := by
    intro l
    rw [List.map_map]
    exact List.map_congr_left fun s _ => Source.item_name platform js scheduling s
  unfold newBuildersForJobSet at h
  unfold sources
  split_ifs at h ⊢ with htop
  · cases h
    exact ⟨rfl, List.nodup_singleton _⟩
  · obtain ⟨entries, hentries, hrest⟩ := except_bind_ok h
    obtain ⟨rfl, hnodup⟩ := addEntries_ok hentries List.nodup_nil
    obtain ⟨rfl, hall⟩ := addBuilders_ok hrest hnodup
    have heq : ([] ++ scheduling.replicatedJobs.flatMap (entryItems platform js scheduling)) ++
        (js.spec.replicatedJobs.filter fun rjob => rjob.name ∉ grouped js scheduling).map
          (fun rjob => buildPerRJItem platform js rjob scheduling) =
        (scheduling.replicatedJobs.flatMap (entrySources js) ++
          (ungrouped js scheduling).map Source.replicatedJob).map
            (Source.item platform js scheduling) := by
      rw [List.nil_append, List.map_append, List.map_flatMap, List.map_map]
      congr 1
      exact List.flatMap_congr fun policy _ => entryItems_eq policy
    rw [heq] at hall ⊢
    rw [hnames] at hall
    exact ⟨rfl, hall⟩

theorem addBuilders_of_nodup {items builders : List WorkloadItem}
    (hn : ((builders ++ items).map (·.name)).Nodup) :
    items.foldlM addBuilder builders = (.ok (builders ++ items) : Except String _) := by
  induction items generalizing builders with
  | nil =>
    rw [List.append_nil]
    rfl
  | cons item rest ih =>
    have hsplit : builders ++ item :: rest = (builders ++ [item]) ++ rest := by simp
    have hfresh : item.name ∉ builders.map (·.name) := by
      rw [List.map_append, List.map_cons] at hn
      intro hmem
      exact (List.nodup_append.mp hn).2.2 _ hmem _ List.mem_cons_self rfl
    rw [List.foldlM_cons, addBuilder, if_neg hfresh, except_ok_bind, hsplit]
    exact ih (hsplit ▸ hn)

theorem addEntries_of_nodup {policies : List ReplicatedJobScheduling}
    {builders : List WorkloadItem}
    (hn : ((builders ++ policies.flatMap (entryItems platform js scheduling)).map (·.name)).Nodup) :
    policies.foldlM (fun builders policy =>
        (entryItems platform js scheduling policy).foldlM addBuilder builders) builders =
      (.ok (builders ++ policies.flatMap (entryItems platform js scheduling)) : Except String _) := by
  induction policies generalizing builders with
  | nil =>
    rw [List.flatMap_nil, List.append_nil]
    rfl
  | cons policy rest ih =>
    rw [List.flatMap_cons, ← List.append_assoc] at hn ⊢
    have hfirst : ((builders ++ entryItems platform js scheduling policy).map (·.name)).Nodup := by
      rw [List.map_append] at hn
      exact (List.nodup_append.mp hn).1
    rw [List.foldlM_cons, addBuilders_of_nodup hfirst, except_ok_bind]
    exact ih hn

/-- Sources with distinct names can be built. -/
theorem newBuildersForJobSet_of_nodup
    (h : ((sources js scheduling).map (Source.templateName platform js)).Nodup) :
    newBuildersForJobSet platform js scheduling =
      .ok ((sources js scheduling).map (Source.item platform js scheduling)) := by
  have hall : (((sources js scheduling).map (Source.item platform js scheduling)).map
      (·.name)).Nodup := by
    rw [List.map_map]
    rwa [List.map_congr_left fun s _ => (Source.item_name platform js scheduling s).symm] at h
  unfold newBuildersForJobSet
  unfold sources at hall ⊢
  split_ifs at hall ⊢ with htop
  · rfl
  · have heq : scheduling.replicatedJobs.flatMap (entryItems platform js scheduling) =
        (scheduling.replicatedJobs.flatMap (entrySources js)).map
          (Source.item platform js scheduling) := by
      rw [List.map_flatMap]
      exact List.flatMap_congr fun policy _ => entryItems_eq policy
    rw [List.map_append, ← heq, List.map_map] at hall ⊢
    have hentries := hall
    rw [List.map_append] at hentries
    rw [addEntries_of_nodup (by simpa using (List.nodup_append.mp hentries).1), except_ok_bind,
      List.nil_append]
    exact addBuilders_of_nodup hall

end Builders

/-- What the sources of an entry are. -/
theorem mem_entrySources {js : JobSet} {policy : ReplicatedJobScheduling} {s : Source} :
    s ∈ entrySources js policy ↔
      ∃ first members, policy.targetReplicatedJobs.filterMap (rjobsByName js) = first :: members ∧
        ((policy.job = none ∧ s = .group policy first members) ∨
          ∃ jobPolicy, policy.job = some jobPolicy ∧
            ∃ jobIdx < first.replicas, s = .job first jobIdx jobPolicy) := by
  unfold entrySources
  cases policy.targetReplicatedJobs.filterMap (rjobsByName js) with
  | nil => simp
  | cons first members =>
    cases policy.job with
    | none => simp
    | some jobPolicy => simp [eq_comm]

/-- What the sources of a JobSet consist of. -/
theorem mem_sources {js : JobSet} {scheduling : JobSetScheduling} {s : Source}
    (h : s ∈ sources js scheduling) :
    (s = .jobSet ∧ useTopLevelGang (some scheduling) = true) ∨
    (useTopLevelGang (some scheduling) = false ∧
      ((∃ policy ∈ scheduling.replicatedJobs, ∃ first members, policy.job = none ∧
          policy.targetReplicatedJobs.filterMap (rjobsByName js) = first :: members ∧
          s = .group policy first members) ∨
        (∃ policy ∈ scheduling.replicatedJobs, ∃ first members jobPolicy,
          policy.job = some jobPolicy ∧
          policy.targetReplicatedJobs.filterMap (rjobsByName js) = first :: members ∧
          ∃ jobIdx < first.replicas, s = .job first jobIdx jobPolicy) ∨
        ∃ rjob ∈ ungrouped js scheduling, s = .replicatedJob rjob)) := by
  unfold sources at h
  split_ifs at h with htop
  · exact Or.inl ⟨List.mem_singleton.mp h, htop⟩
  · refine Or.inr ⟨by simpa using htop, ?_⟩
    rcases List.mem_append.mp h with h | h
    · obtain ⟨policy, hpolicy, hs⟩ := List.mem_flatMap.mp h
      obtain ⟨first, members, hmembers, ⟨hjob, rfl⟩ | ⟨jobPolicy, hjob, jobIdx, hidx, rfl⟩⟩ :=
        mem_entrySources.mp hs
      · exact Or.inl ⟨policy, hpolicy, first, members, hjob, hmembers, rfl⟩
      · exact Or.inr (Or.inl
          ⟨policy, hpolicy, first, members, jobPolicy, hjob, hmembers, jobIdx, hidx, rfl⟩)
    · obtain ⟨rjob, hrjob, rfl⟩ := List.mem_map.mp h
      exact Or.inr (Or.inr ⟨rjob, hrjob, rfl⟩)

/-! ## The templates of the Workload -/

theorem mergeTemplates_ok {build : WorkloadItem → Except String WorkloadSpec}
    (hbuild : ∀ item wl, build item = .ok wl → wl.podGroupTemplates = [item.template])
    {controllerRef : String} {items : List WorkloadItem} {templates : List PodGroupTemplate}
    (h : mergeTemplates build controllerRef items = .ok templates) :
    templates = items.map (·.template) := by
  induction items generalizing templates with
  | nil =>
    cases h
    rfl
  | cons item rest ih =>
    unfold mergeTemplates at h
    obtain ⟨wl, hwl, h⟩ := except_bind_ok h
    split_ifs at h
    obtain ⟨others, hothers, h⟩ := except_bind_ok h
    cases h
    rw [hbuild item wl hwl, ih hothers]
    rfl

/-- The Workload has one template for each item. -/
theorem buildWorkloadFromBuilders_ok {build : WorkloadItem → Except String WorkloadSpec}
    (hbuild : ∀ item wl, build item = .ok wl → wl.podGroupTemplates = [item.template])
    {builders : List WorkloadItem} {wl : WorkloadSpec}
    (h : buildWorkloadFromBuilders build builders = .ok wl) :
    wl.podGroupTemplates = builders.map (·.template) := by
  unfold buildWorkloadFromBuilders at h
  split at h
  · cases h
  · rename_i item
    exact hbuild item wl h
  · obtain ⟨base, -, h⟩ := except_bind_ok h
    obtain ⟨templates, htemplates, h⟩ := except_bind_ok h
    cases h
    exact mergeTemplates_ok hbuild htemplates

/-- The templates of the Workload are those of the sources. -/
theorem buildWorkload_templates {platform : Platform} {lib : BuilderLibrary} (hlib : lib.Copies)
    {js : JobSet} {scheduling : JobSetScheduling} {wl : WorkloadSpec}
    (h : buildWorkload platform lib js scheduling = .ok wl) :
    wl.podGroupTemplates =
        (sources js scheduling).map (fun s => (s.item platform js scheduling).template) ∧
      ((sources js scheduling).map (Source.templateName platform js)).Nodup := by
  unfold buildWorkload at h
  obtain ⟨builders, hbuilders, h⟩ := except_bind_ok h
  cases hnew : newBuildersForJobSet platform js scheduling with
  | error name =>
    rw [hnew] at hbuilders
    cases hbuilders
  | ok items =>
    rw [hnew] at hbuilders
    cases hbuilders
    obtain ⟨rfl, hnodup⟩ := newBuildersForJobSet_ok hnew
    have htemplates := buildWorkloadFromBuilders_ok (fun _ _ => hlib.build) h
    rw [List.map_map] at htemplates
    exact ⟨htemplates, hnodup⟩

/-! ## The source of one Job -/

/-- What admission establishes about the targets of the entries. -/
structure Targeted (js : JobSet) (scheduling : JobSetScheduling) : Prop where
  names : js.jobNames.Nodup
  targets : (scheduling.replicatedJobs.flatMap (·.targetReplicatedJobs)).Nodup
  single {entry : ReplicatedJobScheduling} (h : entry ∈ scheduling.replicatedJobs)
    (hjob : entry.job.isSome = true) : ∃ name, entry.targetReplicatedJobs = [name]

/-- The source `schedulingGroupTemplateName` looks up. -/
def sourceOf (js : JobSet) (scheduling : JobSetScheduling) (rjob : ReplicatedJob) (jobIdx : ℕ) :
    Source :=
  if useTopLevelGang (some scheduling) then .jobSet
  else
    match scheduling.replicatedJobs.find? fun policy => rjob.name ∈ policy.targetReplicatedJobs with
    | none => .replicatedJob rjob
    | some policy =>
      match policy.job, policy.targetReplicatedJobs.filterMap (rjobsByName js) with
      | some jobPolicy, _ => .job rjob jobIdx jobPolicy
      | none, first :: members => .group policy first members
      | none, [] => .replicatedJob rjob

section Lookup

variable {js : JobSet} {scheduling : JobSetScheduling}

/-- A lookup by a key that no other element has. -/
theorem rjobsByName_of_mem (hn : js.jobNames.Nodup) {rjob : ReplicatedJob}
    (h : rjob ∈ js.spec.replicatedJobs) : rjobsByName js rjob.name = some rjob := by
  have hreverse : (js.spec.replicatedJobs.reverse.map (·.name)).Nodup := by
    rw [List.map_reverse]
    exact List.nodup_reverse.mpr hn
  exact Library.find?_of_nodup hreverse (List.mem_reverse.mpr h)

theorem rjobsByName_some {name : String} {rjob : ReplicatedJob}
    (h : rjobsByName js name = some rjob) : rjob ∈ js.spec.replicatedJobs ∧ rjob.name = name :=
  ⟨List.mem_reverse.mp (List.mem_of_find?_eq_some h), by simpa using List.find?_some h⟩

/-- The ReplicatedJobs of an entry are those it names. -/
theorem mem_members (hn : js.jobNames.Nodup) {targets : List String} {rjob : ReplicatedJob} :
    rjob ∈ targets.filterMap (rjobsByName js) ↔
      rjob ∈ js.spec.replicatedJobs ∧ rjob.name ∈ targets := by
  rw [List.mem_filterMap]
  constructor
  · rintro ⟨name, hname, hfind⟩
    obtain ⟨hmem, rfl⟩ := rjobsByName_some hfind
    exact ⟨hmem, hname⟩
  · rintro ⟨hmem, hname⟩
    exact ⟨rjob.name, hname, rjobsByName_of_mem hn hmem⟩

theorem mem_grouped {name : String} :
    name ∈ grouped js scheduling ↔ (∃ policy ∈ scheduling.replicatedJobs,
      name ∈ policy.targetReplicatedJobs) ∧ (rjobsByName js name).isSome = true := by
  unfold grouped
  simp only [List.mem_flatMap, List.mem_filter]
  constructor
  · rintro ⟨policy, hpolicy, hname, hsome⟩
    exact ⟨⟨policy, hpolicy, hname⟩, hsome⟩
  · rintro ⟨⟨policy, hpolicy, hname⟩, hsome⟩
    exact ⟨policy, hpolicy, hname, hsome⟩

/-- Every name is a target of one entry only. -/
theorem entry_unique (h : (scheduling.replicatedJobs.flatMap (·.targetReplicatedJobs)).Nodup)
    {p q : ReplicatedJobScheduling} (hp : p ∈ scheduling.replicatedJobs)
    (hq : q ∈ scheduling.replicatedJobs) {name : String}
    (hpn : name ∈ p.targetReplicatedJobs) (hqn : name ∈ q.targetReplicatedJobs) : p = q := by
  by_contra hne
  have hsymm : Std.Symm (Function.onFun List.Disjoint ReplicatedJobScheduling.targetReplicatedJobs) :=
    ⟨fun _ _ hdisjoint => List.Disjoint.symm hdisjoint⟩
  have hdisjoint := (List.nodup_flatMap.mp h).2.forall hp hq hne
  exact hdisjoint hpn hqn

theorem Targeted.find_entry (h : Targeted js scheduling) {policy : ReplicatedJobScheduling}
    (hp : policy ∈ scheduling.replicatedJobs) {name : String}
    (hname : name ∈ policy.targetReplicatedJobs) :
    (scheduling.replicatedJobs.find? fun p => name ∈ p.targetReplicatedJobs) = some policy := by
  cases hfind : scheduling.replicatedJobs.find? fun p => name ∈ p.targetReplicatedJobs with
  | none =>
    have hnone := List.find?_eq_none.mp hfind policy hp
    simp [hname] at hnone
  | some found =>
    have hfound : name ∈ found.targetReplicatedJobs := by simpa using List.find?_some hfind
    rw [entry_unique h.targets (List.mem_of_find?_eq_some hfind) hp hfound hname]

/-- The source of a Job is one of the sources of the JobSet. -/
theorem Targeted.sourceOf_mem (h : Targeted js scheduling) {rjob : ReplicatedJob} {jobIdx : ℕ}
    (hr : rjob ∈ js.spec.replicatedJobs) (hi : jobIdx < rjob.replicas) :
    sourceOf js scheduling rjob jobIdx ∈ sources js scheduling := by
  unfold sourceOf sources
  split_ifs
  · exact List.mem_singleton.mpr rfl
  rw [List.mem_append]
  cases hfind : scheduling.replicatedJobs.find? fun p => rjob.name ∈ p.targetReplicatedJobs with
  | none =>
    apply Or.inr
    refine List.mem_map.mpr ⟨rjob, List.mem_filter.mpr ⟨hr, ?_⟩, rfl⟩
    rw [decide_eq_true_eq, mem_grouped]
    rintro ⟨⟨policy, hpolicy, hname⟩, -⟩
    have hnone := List.find?_eq_none.mp hfind policy hpolicy
    simp [hname] at hnone
  | some policy =>
    apply Or.inl
    have hpolicy := List.mem_of_find?_eq_some hfind
    have hname : rjob.name ∈ policy.targetReplicatedJobs := by simpa using List.find?_some hfind
    have hmember := (mem_members h.names).mpr ⟨hr, hname⟩
    refine List.mem_flatMap.mpr ⟨policy, hpolicy, ?_⟩
    unfold entrySources
    cases hjob : policy.job with
    | none =>
      cases hmembers : policy.targetReplicatedJobs.filterMap (rjobsByName js) with
      | nil => simp [hmembers] at hmember
      | cons first members => simp only [hjob, hmembers, List.mem_singleton]
    | some jobPolicy =>
      obtain ⟨name, htargets⟩ := h.single hpolicy (by rw [hjob]; rfl)
      rw [htargets, List.mem_singleton] at hname
      have hmembers : policy.targetReplicatedJobs.filterMap (rjobsByName js) = [rjob] := by
        rw [htargets, ← hname]
        simp [rjobsByName_of_mem h.names hr]
      simp only [hjob, hmembers]
      exact List.mem_map.mpr ⟨jobIdx, List.mem_range.mpr hi, rfl⟩

/-- The lookup of a name is the name of the looked-up source. -/
theorem Targeted.sourceOf_templateName (h : Targeted js scheduling)
    (hs : js.spec.scheduling = some scheduling) (platform : Platform) {rjob : ReplicatedJob}
    (hr : rjob ∈ js.spec.replicatedJobs) (jobIdx : ℕ) :
    (sourceOf js scheduling rjob jobIdx).templateName platform js =
      schedulingGroupTemplateName platform js rjob.name jobIdx := by
  unfold sourceOf schedulingGroupTemplateName
  rw [hs, Option.bind_some]
  split_ifs
  · rfl
  cases hfind : scheduling.replicatedJobs.find? fun p => rjob.name ∈ p.targetReplicatedJobs with
  | none => rfl
  | some policy =>
    have hname : rjob.name ∈ policy.targetReplicatedJobs := by simpa using List.find?_some hfind
    have hmember := (mem_members h.names).mpr ⟨hr, hname⟩
    cases hjob : policy.job with
    | some jobPolicy => simp only [hjob, Option.isSome_some, if_true]; rfl
    | none =>
      cases hmembers : policy.targetReplicatedJobs.filterMap (rjobsByName js) with
      | nil => simp [hmembers] at hmember
      | cons first members => simp only [hjob, hmembers, Option.isSome_none]; rfl

end Lookup

end JobSetOperator
