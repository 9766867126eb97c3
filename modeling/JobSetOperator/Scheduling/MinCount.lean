import JobSetOperator.Admission.Checked

/-!
# The minimum of a gang

A gang template without an explicit minimum gets one from the controller: the
number of pods of the Jobs that are mapped to the template. The four builders
compute it by different formulas over 32-bit integers. Each of them is the
mathematical sum modulo 2 ^ 32, so the minimum is exact where the sum fits.
-/
namespace JobSetOperator

/-! ## Specification -/

/-- The pods of the Jobs that are mapped to the template. -/
def mappedPods (platform : Platform) (js : JobSet) (templateName : String) : ℤ :=
  (js.spec.replicatedJobs.map fun rjob =>
    (((List.range rjob.replicas).filter fun (jobIdx : ℕ) =>
      schedulingGroupTemplateName platform js rjob.name jobIdx = templateName).map fun _ =>
        jobParallelism rjob).sum).sum

/-- The user has set the minimum of the template, which is the one of a Job of `rjob`. -/
structure ExplicitMinCount (platform : Platform) (js : JobSet) (scheduling : JobSetScheduling)
    (templateName : String) (rjob : ReplicatedJob) (n : ℤ) : Prop where
  mem : rjob ∈ js.spec.replicatedJobs
  own : ∃ jobIdx < rjob.replicas, templateName = perJobTemplateName platform js rjob.name jobIdx
  entry : ∃ entry ∈ scheduling.replicatedJobs, ∃ job policy, entry.job = some job ∧
    entry.targetReplicatedJobs = [rjob.name] ∧ job.schedulingPolicy = some policy ∧
    policy.gang = some (some n)

/-- The minimum is the user's, between one and the pods of one Job, or the number of
pods mapped to the template. -/
def MinCountExact (platform : Platform) (js : JobSet) (scheduling : JobSetScheduling)
    (templateName : String) (minCount : ℤ) : Prop :=
  (∃ rjob, ExplicitMinCount platform js scheduling templateName rjob minCount ∧ 1 ≤ minCount ∧
    minCount ≤ jobParallelism rjob) ∨ minCount = mappedPods platform js templateName

/-! ## Sums of 32 bits -/

theorem int32_add_int32 (a b : ℤ) : int32 (a + int32 b) = int32 (a + b) := by
  unfold int32
  exact Int.add_bmod_bmod

theorem int32_int32_add (a b : ℤ) : int32 (int32 a + b) = int32 (a + b) := by
  unfold int32
  exact Int.bmod_add_bmod

theorem int32_sum (l : List ℤ) : int32 (l.map int32).sum = int32 l.sum := by
  induction l with
  | nil => rfl
  | cons a l ih =>
    rw [List.map_cons, List.sum_cons, List.sum_cons, int32_int32_add, ← int32_add_int32, ih,
      int32_add_int32]

/-- A sum of 32 bits is the mathematical one exactly when that one fits. -/
theorem int32_eq_iff_isInt32 (n : ℤ) : int32 n = n ↔ isInt32 n = true := by
  unfold isInt32
  rw [decide_eq_true_eq]
  exact int32_eq_iff

/-- The pods of a source. -/
def Source.pods (js : JobSet) : Source → ℤ
  | .jobSet => (js.spec.replicatedJobs.map fun rjob => jobParallelism rjob * rjob.replicas).sum
  | .group _ first members =>
    ((first :: members).map fun rjob => jobParallelism rjob * rjob.replicas).sum
  | .job rjob _ _ => jobParallelism rjob
  | .replicatedJob rjob => jobParallelism rjob * rjob.replicas

/-- The minimum the controller computes for a source. -/
def Source.derived (js : JobSet) : Source → ℤ
  | .jobSet => totalReplicatedJobPodCount js.spec.replicatedJobs
  | .group _ first members => groupMinCount (first :: members)
  | .job rjob _ _ => jobParallelism rjob
  | .replicatedJob rjob => replicatedJobPodCount rjob

theorem groupMinCount_eq (members : List ReplicatedJob) :
    groupMinCount members =
      int32 (members.map fun rjob => jobParallelism rjob * rjob.replicas).sum := by
  have hfold : ∀ (l : List ReplicatedJob) (total : ℤ),
      l.foldl (fun totalMin rjob => int32 (totalMin + replicatedJobPodCount rjob)) (int32 total) =
        int32 (total + (l.map fun rjob => jobParallelism rjob * rjob.replicas).sum) := by
    intro l
    induction l with
    | nil => simp
    | cons rjob rest ih =>
      intro total
      rw [List.foldl_cons, int32_int32_add, replicatedJobPodCount, int32_add_int32, ih,
        List.map_cons, List.sum_cons, add_assoc]
  have hzero : int32 0 = 0 := by decide
  have h := hfold members 0
  rwa [hzero, zero_add] at h

theorem isInt32_jobParallelism {js : JobSet} (hschema : schemaValid js.spec = true)
    {rjob : ReplicatedJob} (hr : rjob ∈ js.spec.replicatedJobs) :
    isInt32 (jobParallelism rjob) = true := by
  unfold schemaValid at hschema
  simp only [Bool.and_eq_true] at hschema
  have hsizes := List.all_eq_true.mp hschema.1.1.2 rjob hr
  simp only [Bool.and_eq_true] at hsizes
  obtain ⟨⟨-, hp⟩, hc⟩ := hsizes
  have hcount : isInt32 (rjob.template.spec.parallelism.getD 1) = true := by
    cases hparallelism : rjob.template.spec.parallelism with
    | none => decide
    | some p =>
      rw [hparallelism] at hp
      exact hp
  unfold jobParallelism
  cases hcompletions : rjob.template.spec.completions with
  | none => exact hcount
  | some c =>
    rw [hcompletions] at hc
    dsimp only
    split_ifs
    · exact hc
    · exact hcount

/-- The controller's minimum is the number of pods modulo 2 ^ 32. -/
theorem derived_eq {js : JobSet} {scheduling : JobSetScheduling}
    (hschema : schemaValid js.spec = true) (hn : js.jobNames.Nodup) {s : Source}
    (h : s ∈ sources js scheduling) : s.derived js = int32 (s.pods js) := by
  obtain ⟨rfl, -⟩ | ⟨-, ⟨policy, -, first, members, -, -, rfl⟩ |
    ⟨policy, -, first, members, jobPolicy, -, hmembers, jobIdx, -, rfl⟩ | ⟨rjob, -, rfl⟩⟩ :=
    mem_sources h
  · have hmap : js.spec.replicatedJobs.map replicatedJobPodCount =
        (js.spec.replicatedJobs.map fun rjob => jobParallelism rjob * rjob.replicas).map int32 := by
      rw [List.map_map]
      rfl
    rw [Source.derived, totalReplicatedJobPodCount, hmap, int32_sum]
    rfl
  · exact groupMinCount_eq (first :: members)
  · have hmem : first ∈ policy.targetReplicatedJobs.filterMap (rjobsByName js) := by simp [hmembers]
    have hr := ((mem_members hn).mp hmem).1
    exact ((int32_eq_iff_isInt32 _).mpr (isInt32_jobParallelism hschema hr)).symm
  · rfl

/-! ## The template of a source -/

/-- The explicit minimum of a source. -/
def Source.explicit : Source → Option ℤ
  | .job _ _ policy => policy.schedulingPolicy.bind fun policy => policy.gang.bind id
  | _ => none

/-- The minimum of a gang policy. -/
def PodGroupSchedulingPolicy.minCount (policy : PodGroupSchedulingPolicy) : Option ℤ :=
  policy.gang.bind id

/-- A gang template has the minimum of its policy, or the one of the callback. -/
theorem item_gang {item : WorkloadItem} {derived minCount : ℤ} {explicit : Option ℤ}
    (hc : item.callbacks = [gangMinCountCallback derived])
    (hp : (item.input.policy.podGroupData.or item.defaultConfig.policy).bind (·.minCount) = explicit)
    (h : item.template.schedulingPolicy.gang = some minCount) : minCount = explicit.getD derived := by
  subst hp
  unfold WorkloadItem.template WorkloadItem.config at h
  rw [hc] at h
  dsimp only [List.foldl_cons, List.foldl_nil] at h
  generalize item.input.policy.podGroupData.or item.defaultConfig.policy = policy at h ⊢
  rcases policy with _ | ⟨basic, _ | _ | explicit⟩
  · simp [gangMinCountCallback, SchedulingConfig.podGroupPolicy] at h
  · simp [gangMinCountCallback, SchedulingConfig.podGroupPolicy] at h
  · simpa [gangMinCountCallback, SchedulingConfig.podGroupPolicy,
      PodGroupSchedulingPolicy.minCount] using h.symm
  · simpa [gangMinCountCallback, SchedulingConfig.podGroupPolicy,
      PodGroupSchedulingPolicy.minCount] using h.symm

/-- A composite policy has no minimum of its own. -/
theorem composite_minCount (policy : Option CompositeSchedulingPolicy) (path : List String) :
    ((mapCompositePolicyInput policy path).podGroupData.or (some ⟨none, some none⟩)).bind
      (·.minCount) = none := by
  rcases policy with _ | ⟨basic, _ | _⟩ <;> rfl

/-- A policy with the global one as its fallback has its own minimum. -/
theorem fallback_minCount (scheduling : JobSetScheduling)
    (policy : BuilderInput PodGroupSchedulingPolicy) :
    ((policy.orElse (globalSchedulingInput scheduling).policy).podGroupData.or
      (some ⟨none, some none⟩)).bind (·.minCount) = policy.podGroupData.bind (·.minCount) := by
  rcases policy with ⟨_ | data, path⟩
  · exact composite_minCount scheduling.schedulingPolicy _
  · rfl

/-- A gang template has the explicit minimum of its source, or the controller's. -/
theorem source_gang {platform : Platform} {js : JobSet} {scheduling : JobSetScheduling} {s : Source}
    {minCount : ℤ}
    (h : (s.item platform js scheduling).template.schedulingPolicy.gang = some minCount) :
    minCount = s.explicit.getD (s.derived js) := by
  cases s with
  | jobSet => exact item_gang rfl (composite_minCount scheduling.schedulingPolicy _) h
  | group policy first members =>
    have hown : (groupInput policy).policy.podGroupData.bind (·.minCount) = none := by
      rcases hp : policy.schedulingPolicy with _ | ⟨basic, _ | _⟩ <;>
        simp [groupInput, mapCompositePolicyInput, hp, BuilderInput.unset,
          PodGroupSchedulingPolicy.minCount]
    exact item_gang rfl ((fallback_minCount scheduling _).trans hown) h
  | job rjob jobIdx policy =>
    have hown : (jobInput rjob policy).policy.podGroupData.bind (·.minCount) =
        (Source.job rjob jobIdx policy).explicit := by
      cases hp : policy.schedulingPolicy <;>
        simp [jobInput, mapInput, hp, BuilderInput.unset, Source.explicit,
          PodGroupSchedulingPolicy.minCount]
    exact item_gang rfl ((fallback_minCount scheduling _).trans hown) h
  | replicatedJob rjob => exact item_gang rfl (composite_minCount scheduling.schedulingPolicy _) h

/-! ## The Jobs of a template -/

section Mapped

variable {platform : Platform} {js : JobSet} {scheduling : JobSetScheduling}

/-- The pods of the Jobs with a given source. -/
def sourcePods (js : JobSet) (scheduling : JobSetScheduling) (s : Source) : ℤ :=
  (js.spec.replicatedJobs.map fun rjob =>
    ((List.range rjob.replicas).countP fun jobIdx => sourceOf js scheduling rjob jobIdx = s) *
      jobParallelism rjob).sum

/-- A Job is mapped to the template of a source if that is its source. -/
theorem mappedPods_eq (h : Targeted js scheduling) (hs : js.spec.scheduling = some scheduling)
    (hnodup : ((sources js scheduling).map (Source.templateName platform js)).Nodup) {s : Source}
    (hmem : s ∈ sources js scheduling) :
    mappedPods platform js (s.templateName platform js) = sourcePods js scheduling s := by
  unfold mappedPods sourcePods
  congr 1
  refine List.map_congr_left fun rjob hr => ?_
  have hfilter : ((List.range rjob.replicas).filter fun (jobIdx : ℕ) =>
      schedulingGroupTemplateName platform js rjob.name jobIdx = s.templateName platform js) =
      (List.range rjob.replicas).filter fun jobIdx => sourceOf js scheduling rjob jobIdx = s := by
    refine List.filter_congr fun jobIdx hidx => ?_
    rw [← h.sourceOf_templateName hs platform hr jobIdx]
    have hsource := h.sourceOf_mem hr (List.mem_range.mp hidx)
    rw [decide_eq_decide]
    exact ⟨fun heq => List.inj_on_of_nodup_map hnodup hsource hmem heq, fun heq => by rw [heq]⟩
  rw [hfilter, List.map_const', List.sum_replicate, nsmul_eq_mul, List.countP_eq_length_filter]

/-- The pods of a source from the number of Jobs it takes of each ReplicatedJob. -/
theorem sourcePods_of_count {s : Source} {p : ReplicatedJob → Prop} [DecidablePred p]
    {count : ReplicatedJob → ℕ}
    (h : ∀ rjob ∈ js.spec.replicatedJobs, ((List.range rjob.replicas).countP fun jobIdx =>
      sourceOf js scheduling rjob jobIdx = s) = if p rjob then count rjob else 0) :
    sourcePods js scheduling s = ((js.spec.replicatedJobs.filter fun rjob => p rjob).map fun rjob =>
      jobParallelism rjob * count rjob).sum := by
  unfold sourcePods
  generalize js.spec.replicatedJobs = l at h ⊢
  induction l with
  | nil => rfl
  | cons rjob rest ih =>
    have hrest := ih fun r hr => h r (List.mem_cons_of_mem _ hr)
    rw [List.map_cons, List.sum_cons, hrest, h rjob List.mem_cons_self]
    by_cases hp : p rjob
    · rw [if_pos hp, List.filter_cons_of_pos (by simpa using hp), List.map_cons, List.sum_cons,
        mul_comm]
    · rw [if_neg hp, List.filter_cons_of_neg (by simpa using hp)]
      simp

/-- A source that takes all Jobs of some ReplicatedJobs takes all their pods. -/
theorem sourcePods_of_all {s : Source} {p : ReplicatedJob → Prop} [DecidablePred p]
    (h : ∀ rjob ∈ js.spec.replicatedJobs, ∀ jobIdx,
      sourceOf js scheduling rjob jobIdx = s ↔ p rjob) :
    sourcePods js scheduling s = ((js.spec.replicatedJobs.filter fun rjob => p rjob).map fun rjob =>
      jobParallelism rjob * rjob.replicas).sum := by
  apply sourcePods_of_count
  intro rjob hr
  simp only [h rjob hr]
  by_cases hp : p rjob <;> simp [hp]

/-- What the source of a Job is below the top level. -/
theorem Targeted.sourceOf_cases (h : Targeted js scheduling)
    (htop : useTopLevelGang (some scheduling) = false) {rjob : ReplicatedJob}
    (hr : rjob ∈ js.spec.replicatedJobs) (jobIdx : ℕ) :
    (∃ policy ∈ scheduling.replicatedJobs, rjob.name ∈ policy.targetReplicatedJobs ∧
      ((∃ jobPolicy, policy.job = some jobPolicy ∧
          sourceOf js scheduling rjob jobIdx = .job rjob jobIdx jobPolicy) ∨
        (policy.job = none ∧ ∃ first members,
          policy.targetReplicatedJobs.filterMap (rjobsByName js) = first :: members ∧
          sourceOf js scheduling rjob jobIdx = .group policy first members))) ∨
    ((∀ policy ∈ scheduling.replicatedJobs, rjob.name ∉ policy.targetReplicatedJobs) ∧
      sourceOf js scheduling rjob jobIdx = .replicatedJob rjob) := by
  unfold sourceOf
  simp only [htop, Bool.false_eq_true, if_false]
  cases hfind : scheduling.replicatedJobs.find? fun p => rjob.name ∈ p.targetReplicatedJobs with
  | none =>
    refine Or.inr ⟨fun policy hpolicy => ?_, rfl⟩
    simpa using List.find?_eq_none.mp hfind policy hpolicy
  | some policy =>
    have hname : rjob.name ∈ policy.targetReplicatedJobs := by simpa using List.find?_some hfind
    refine Or.inl ⟨policy, List.mem_of_find?_eq_some hfind, hname, ?_⟩
    cases hjob : policy.job with
    | some jobPolicy =>
      refine Or.inl ⟨jobPolicy, rfl, ?_⟩
      simp only [hjob]
    | none =>
      have hmember := (mem_members h.names).mpr ⟨hr, hname⟩
      cases hmembers : policy.targetReplicatedJobs.filterMap (rjobsByName js) with
      | nil => simp [hmembers] at hmember
      | cons first members =>
        refine Or.inr ⟨rfl, first, members, rfl, ?_⟩
        simp only [hjob, hmembers]

theorem filter_eq_singleton (hn : js.jobNames.Nodup) {rjob : ReplicatedJob}
    (hr : rjob ∈ js.spec.replicatedJobs) :
    (js.spec.replicatedJobs.filter fun r => r = rjob) = [rjob] := by
  have hnodup : js.spec.replicatedJobs.Nodup := List.Nodup.of_map _ hn
  have hbeq : (fun r : ReplicatedJob => decide (r = rjob)) = fun r => r == rjob := by
    funext r
    rw [Bool.beq_eq_decide_eq]
  rw [hbeq, List.filter_beq, List.count_eq_one_of_mem hnodup hr]
  rfl

/-- The ReplicatedJobs of a group, in any order, are those it targets. -/
theorem members_perm (hn : js.jobNames.Nodup) {targets : List String} (ht : targets.Nodup) :
    (js.spec.replicatedJobs.filter fun rjob => rjob.name ∈ targets).Perm
      (targets.filterMap (rjobsByName js)) := by
  have hnodup : js.spec.replicatedJobs.Nodup := List.Nodup.of_map _ hn
  have hmembers : (targets.filterMap (rjobsByName js)).Nodup := by
    refine List.Nodup.filterMap (fun a b rjob ha hb => ?_) ht
    rw [← (rjobsByName_some ha).2, ← (rjobsByName_some hb).2]
  refine (List.perm_ext_iff_of_nodup (hnodup.filter _) hmembers).mpr fun rjob => ?_
  rw [mem_members hn, List.mem_filter, decide_eq_true_eq]

/-- A group takes all Jobs of the ReplicatedJobs it targets. -/
theorem Targeted.sourcePods_group (h : Targeted js scheduling)
    (htop : useTopLevelGang (some scheduling) = false) {policy : ReplicatedJobScheduling}
    (hpolicy : policy ∈ scheduling.replicatedJobs) {first : ReplicatedJob}
    {members : List ReplicatedJob} (hjob : policy.job = none)
    (hmembers : policy.targetReplicatedJobs.filterMap (rjobsByName js) = first :: members) :
    sourcePods js scheduling (.group policy first members) =
      (Source.group policy first members).pods js := by
  have hall : ∀ rjob ∈ js.spec.replicatedJobs, ∀ jobIdx,
      sourceOf js scheduling rjob jobIdx = .group policy first members ↔
        rjob.name ∈ policy.targetReplicatedJobs := by
    intro rjob hr jobIdx
    obtain ⟨entry, hentry, hname, ⟨jobPolicy, hsome, hsource⟩ | ⟨-, first', members', hm, hsource⟩⟩ |
      ⟨hnone, hsource⟩ := h.sourceOf_cases htop hr jobIdx
    · rw [hsource]
      constructor
      · intro heq
        cases heq
      · intro hin
        rw [entry_unique h.targets hentry hpolicy hname hin, hjob] at hsome
        cases hsome
    · rw [hsource]
      constructor
      · intro heq
        cases heq
        exact hname
      · intro hin
        rw [entry_unique h.targets hentry hpolicy hname hin, hmembers] at hm
        rw [entry_unique h.targets hentry hpolicy hname hin]
        cases hm
        rfl
    · rw [hsource]
      constructor
      · intro heq
        cases heq
      · intro hin
        exact (hnone policy hpolicy hin).elim
  have htargets : policy.targetReplicatedJobs.Nodup :=
    (List.nodup_flatMap.mp h.targets).1 policy hpolicy
  rw [sourcePods_of_all hall, Source.pods, ← hmembers]
  exact ((members_perm h.names htargets).map _).sum_eq

/-- The item of one Job takes that Job. -/
theorem Targeted.sourcePods_job (h : Targeted js scheduling)
    (htop : useTopLevelGang (some scheduling) = false) {policy : ReplicatedJobScheduling}
    (hpolicy : policy ∈ scheduling.replicatedJobs) {rjob : ReplicatedJob}
    (hr : rjob ∈ js.spec.replicatedJobs) (hname : rjob.name ∈ policy.targetReplicatedJobs)
    {jobPolicy : JobScheduling} (hjob : policy.job = some jobPolicy) {jobIdx : ℕ}
    (hidx : jobIdx < rjob.replicas) :
    sourcePods js scheduling (.job rjob jobIdx jobPolicy) = jobParallelism rjob := by
  have hiff : ∀ r ∈ js.spec.replicatedJobs, ∀ i,
      sourceOf js scheduling r i = .job rjob jobIdx jobPolicy ↔ r = rjob ∧ i = jobIdx := by
    intro r hmem i
    obtain ⟨entry, hentry, hin, ⟨jobPolicy', hsome, hsource⟩ | ⟨hnone, first', members', -, hsource⟩⟩ |
      ⟨hnone, hsource⟩ := h.sourceOf_cases htop hmem i
    · rw [hsource, Source.job.injEq]
      refine ⟨fun heq => ⟨heq.1, heq.2.1⟩, ?_⟩
      rintro ⟨rfl, rfl⟩
      rw [entry_unique h.targets hentry hpolicy hin hname, hjob] at hsome
      cases hsome
      exact ⟨rfl, rfl, rfl⟩
    · rw [hsource]
      refine ⟨fun heq => (by cases heq), ?_⟩
      rintro ⟨rfl, -⟩
      rw [entry_unique h.targets hentry hpolicy hin hname, hjob] at hnone
      cases hnone
    · rw [hsource]
      refine ⟨fun heq => (by cases heq), ?_⟩
      rintro ⟨rfl, -⟩
      exact (hnone policy hpolicy hname).elim
  have hcount : ∀ r ∈ js.spec.replicatedJobs, ((List.range r.replicas).countP fun i =>
      sourceOf js scheduling r i = .job rjob jobIdx jobPolicy) = if r = rjob then 1 else 0 := by
    intro r hmem
    simp only [hiff r hmem]
    by_cases heq : r = rjob
    · subst heq
      have hone := List.count_eq_one_of_mem List.nodup_range (List.mem_range.mpr hidx)
      simpa [List.count, Bool.beq_eq_decide_eq] using hone
    · simp [heq]
  rw [sourcePods_of_count hcount, filter_eq_singleton h.names hr]
  simp

/-- The item of a ReplicatedJob takes all its Jobs. -/
theorem Targeted.sourcePods_replicatedJob (h : Targeted js scheduling)
    (htop : useTopLevelGang (some scheduling) = false) {rjob : ReplicatedJob}
    (hr : rjob ∈ ungrouped js scheduling) :
    sourcePods js scheduling (.replicatedJob rjob) = jobParallelism rjob * rjob.replicas := by
  obtain ⟨hmem, hgrouped⟩ := List.mem_filter.mp hr
  rw [decide_eq_true_eq, mem_grouped, rjobsByName_of_mem h.names hmem] at hgrouped
  have hiff : ∀ r ∈ js.spec.replicatedJobs, ∀ i,
      sourceOf js scheduling r i = .replicatedJob rjob ↔ r = rjob := by
    intro r hr' i
    obtain ⟨entry, hentry, hin, ⟨jobPolicy', hsome, hsource⟩ | ⟨hnone, first', members', -, hsource⟩⟩ |
      ⟨hnone, hsource⟩ := h.sourceOf_cases htop hr' i
    · rw [hsource]
      refine ⟨fun heq => (by cases heq), ?_⟩
      rintro rfl
      exact (hgrouped ⟨⟨entry, hentry, hin⟩, rfl⟩).elim
    · rw [hsource]
      refine ⟨fun heq => (by cases heq), ?_⟩
      rintro rfl
      exact (hgrouped ⟨⟨entry, hentry, hin⟩, rfl⟩).elim
    · rw [hsource, Source.replicatedJob.injEq]
  rw [sourcePods_of_all hiff, filter_eq_singleton h.names hmem]
  simp

/-- The Jobs with a source have the pods of the source. -/
theorem Targeted.sourcePods_eq (h : Targeted js scheduling) {s : Source}
    (hs : s ∈ sources js scheduling) : sourcePods js scheduling s = s.pods js := by
  obtain ⟨rfl, htop⟩ | ⟨htop, ⟨policy, hpolicy, first, members, hjob, hmembers, rfl⟩ |
    ⟨policy, hpolicy, first, members, jobPolicy, hjob, hmembers, jobIdx, hidx, rfl⟩ |
    ⟨rjob, hrjob, rfl⟩⟩ := mem_sources hs
  · have hall : ∀ rjob ∈ js.spec.replicatedJobs, ∀ jobIdx,
        sourceOf js scheduling rjob jobIdx = .jobSet ↔ True := by
      intro rjob _ jobIdx
      simp [sourceOf, htop]
    rw [sourcePods_of_all hall]
    simp [Source.pods]
  · exact h.sourcePods_group htop hpolicy hjob hmembers
  · have hfirst : first ∈ policy.targetReplicatedJobs.filterMap (rjobsByName js) := by
      simp [hmembers]
    obtain ⟨hr, hname⟩ := (mem_members h.names).mp hfirst
    exact h.sourcePods_job htop hpolicy hr hname hjob hidx
  · exact h.sourcePods_replicatedJob htop hrjob

end Mapped

/-! ## Explicit minimums -/

section Explicit

variable {w : Webhook} {js : JobSet} {scheduling : JobSetScheduling}

/-- The explicit minimum of an admitted JobSet is positive, and one Job can meet it. -/
theorem explicit_bounds (hadm : Admitted w js) (hs : js.spec.scheduling = some scheduling)
    {entry : ReplicatedJobScheduling} (hentry : entry ∈ scheduling.replicatedJobs)
    {rjob : ReplicatedJob} (hr : rjob ∈ js.spec.replicatedJobs)
    (htargets : entry.targetReplicatedJobs = [rjob.name]) {job : JobScheduling}
    (hjob : entry.job = some job) {policy : PodGroupSchedulingPolicy}
    (hpolicy : job.schedulingPolicy = some policy) {n : ℤ} (hgang : policy.gang = some (some n)) :
    1 ≤ n ∧ n ≤ jobParallelism rjob := by
  have htargeted := hadm.targeted hs
  constructor
  · have hschema := hadm.schemaValid
    unfold schemaValid at hschema
    rw [hs] at hschema
    simp only [Bool.and_eq_true, Option.all_some] at hschema
    have hvalid := hschema.2.1
    unfold schedulingValid at hvalid
    rw [Bool.and_eq_true, List.all_eq_true] at hvalid
    have hentryValid := hvalid.2 entry hentry
    unfold schedulingEntryValid at hentryValid
    rw [hjob] at hentryValid
    simp only [Option.all_some, Bool.and_eq_true] at hentryValid
    have hpolicyValid := hentryValid.2.2
    unfold jobPolicyValid at hpolicyValid
    rw [hpolicy, Option.all_some, hgang] at hpolicyValid
    simp only [Option.all_some, Bool.and_eq_true, decide_eq_true_eq] at hpolicyValid
    exact hpolicyValid.2.1
  · have hmin := (hadm.schedulingChecked scheduling hs).2.minCounts
    unfold validateSchedulingGangMinCounts at hmin
    rw [hs] at hmin
    obtain ⟨i, hi, hget⟩ := List.mem_iff_getElem.mp hentry
    have hmem : validateEntryMinCount js i entry ∈
        scheduling.replicatedJobs.mapIdx (validateEntryMinCount js) := by
      rw [List.mem_mapIdx]
      exact ⟨i, hi, by rw [hget]⟩
    have hnil := List.flatten_eq_nil_iff.mp hmin _ hmem
    have hfind : replicatedJobByName js rjob.name = some rjob :=
      Library.find?_of_nodup htargeted.names hr
    obtain ⟨basic, gang⟩ := policy
    cases hgang
    unfold validateEntryMinCount at hnil
    rw [hjob, Option.bind_some, hpolicy, htargets] at hnil
    simp only [hfind] at hnil
    rw [errorIf_eq_nil, decide_eq_false_iff_not] at hnil
    simpa using hnil

/-- The template of an explicit minimum is that of the Job it is set for. -/
theorem ExplicitMinCount.source {platform : Platform} {templateName : String}
    {rjob : ReplicatedJob} {n : ℤ} (hn : js.jobNames.Nodup)
    (h : ExplicitMinCount platform js scheduling templateName rjob n) :
    ∃ s ∈ sources js scheduling, s.templateName platform js = templateName ∧
      s.explicit = some n := by
  obtain ⟨jobIdx, hidx, hname⟩ := h.own
  obtain ⟨entry, hentry, job, policy, hjob, htargets, hpolicy, hgang⟩ := h.entry
  refine ⟨.job rjob jobIdx job, ?_, hname.symm, ?_⟩
  · have htop : useTopLevelGang (some scheduling) = false := by
      unfold useTopLevelGang
      have hne : scheduling.replicatedJobs ≠ [] := List.ne_nil_of_mem hentry
      simp [List.isEmpty_eq_false_iff.mpr hne]
    unfold sources
    rw [htop]
    apply List.mem_append_left
    apply List.mem_flatMap.mpr
    refine ⟨entry, hentry, ?_⟩
    unfold entrySources
    have hmembers : entry.targetReplicatedJobs.filterMap (rjobsByName js) = [rjob] := by
      simp [htargets, rjobsByName_of_mem hn h.mem]
    simp only [hmembers, hjob]
    exact List.mem_map.mpr ⟨jobIdx, List.mem_range.mpr hidx, rfl⟩
  · simp [Source.explicit, hpolicy, hgang]

/-- A source with an explicit minimum is the Job of an entry. -/
theorem explicitMinCount_of_source (platform : Platform) (h : Targeted js scheduling) {s : Source}
    (hs : s ∈ sources js scheduling) {n : ℤ} (hn : s.explicit = some n) :
    ∃ rjob, ExplicitMinCount platform js scheduling (s.templateName platform js) rjob n := by
  obtain ⟨rfl, -⟩ | ⟨-, ⟨policy, -, first, members, -, -, rfl⟩ |
    ⟨entry, hentry, first, members, job, hjob, hmembers, jobIdx, hidx, rfl⟩ | ⟨rjob, -, rfl⟩⟩ :=
    mem_sources hs
  · cases hn
  · cases hn
  · have hfirst : first ∈ entry.targetReplicatedJobs.filterMap (rjobsByName js) := by
      simp [hmembers]
    obtain ⟨hr, hname⟩ := (mem_members h.names).mp hfirst
    obtain ⟨name, htargets⟩ := h.single hentry (by rw [hjob]; rfl)
    rw [htargets, List.mem_singleton] at hname
    rw [← hname] at htargets
    unfold Source.explicit at hn
    obtain ⟨policy, hpolicy, hgang⟩ := Option.bind_eq_some_iff.mp hn
    have hsome : policy.gang = some (some n) := by
      obtain ⟨gang, hgang, hid⟩ := Option.bind_eq_some_iff.mp hgang
      cases hid
      exact hgang
    exact ⟨first, hr, ⟨jobIdx, hidx, rfl⟩,
      ⟨entry, hentry, job, policy, hjob, htargets, hpolicy, hsome⟩⟩
  · cases hn

end Explicit

/-- A minimum is exact exactly when the user has set it or the pods of its template can
be counted in 32 bits. -/
theorem minCount_exact_iff {w : Webhook} (hlib : w.lib.Copies) {js : JobSet} (hadm : Admitted w js)
    {scheduling : JobSetScheduling} (hs : js.spec.scheduling = some scheduling) {wl : WorkloadSpec}
    (hwl : buildWorkload w.platform w.lib js scheduling = .ok wl) {tmpl : PodGroupTemplate}
    (htmpl : tmpl ∈ wl.podGroupTemplates) {minCount : ℤ}
    (hgang : tmpl.schedulingPolicy.gang = some minCount) :
    MinCountExact w.platform js scheduling tmpl.name minCount ↔
      (∃ rjob n, ExplicitMinCount w.platform js scheduling tmpl.name rjob n) ∨
        isInt32 (mappedPods w.platform js tmpl.name) = true := by
  have htargeted := hadm.targeted hs
  obtain ⟨htemplates, hnodup⟩ := buildWorkload_templates hlib hwl
  rw [htemplates] at htmpl
  obtain ⟨s, hmem, rfl⟩ := List.mem_map.mp htmpl
  have hname : (s.item w.platform js scheduling).template.name = s.templateName w.platform js :=
    Source.item_name w.platform js scheduling s
  rw [hname]
  have hmin := source_gang hgang
  cases hexplicit : s.explicit with
  | some n =>
    obtain ⟨rjob, hrjob⟩ := explicitMinCount_of_source w.platform htargeted hmem hexplicit
    obtain ⟨entry, hentry, job, policy, hjob, htargets, hpolicy, hgang⟩ := hrjob.entry
    have hbounds := explicit_bounds hadm hs hentry hrjob.mem htargets hjob hpolicy hgang
    rw [hexplicit, Option.getD_some] at hmin
    subst hmin
    exact ⟨fun _ => Or.inl ⟨rjob, _, hrjob⟩, fun _ => Or.inl ⟨rjob, hrjob, hbounds⟩⟩
  | none =>
    rw [hexplicit, Option.getD_none, derived_eq hadm.schemaValid htargeted.names hmem] at hmin
    have hpods := (mappedPods_eq htargeted hs hnodup hmem).trans (htargeted.sourcePods_eq hmem)
    -- the name of the template tells its source, which has no explicit minimum
    have hnone : ∀ rjob n,
        ¬ ExplicitMinCount w.platform js scheduling (s.templateName w.platform js) rjob n := by
      intro rjob n h
      obtain ⟨t, ht, htname, htexplicit⟩ := h.source htargeted.names
      rw [List.inj_on_of_nodup_map hnodup ht hmem htname, hexplicit] at htexplicit
      cases htexplicit
    unfold MinCountExact
    rw [hpods, hmin, ← int32_eq_iff_isInt32]
    constructor
    · rintro (⟨rjob, h, -⟩ | h)
      · exact (hnone rjob _ h).elim
      · exact Or.inr h
    · rintro (⟨rjob, n, h⟩ | h)
      · exact (hnone rjob n h).elim
      · exact Or.inr h

/-- The template of `train`, with the given minimum. -/
def trainTemplate (minCount : ℤ) : PodGroupTemplate :=
  ⟨"a-b-425f51e3c2", ⟨none, some minCount⟩, none, [], none, ""⟩

/-- Two Jobs of three pods are a gang of six. -/
theorem minCount_exact_train :
    ∃ js wl, Admitted trainWebhook js ∧ js.spec.scheduling = some trainGang ∧
      buildWorkload trainDigests copyingLibrary js trainGang = .ok wl ∧
      trainTemplate 6 ∈ wl.podGroupTemplates ∧
      MinCountExact trainDigests js trainGang "a-b-425f51e3c2" 6 := by
  have hadm : Admitted trainWebhook (defaultJobSet schedulingGates (trainSet 3)) := by
    apply Admitted.create
    · decide +kernel
    · decide +kernel
  have hwl : buildWorkload trainDigests copyingLibrary (defaultJobSet schedulingGates (trainSet 3))
      trainGang = .ok ⟨"5f3c", [trainTemplate 6]⟩ := by
    decide +kernel
  refine ⟨_, _, hadm, rfl, hwl, List.mem_singleton.mpr rfl, ?_⟩
  apply (minCount_exact_iff copyingLibrary_copies hadm rfl hwl (List.mem_singleton.mpr rfl) rfl).mpr
  exact Or.inr (by decide +kernel)

/-- Two Jobs of 2147483647 pods each are a gang of minus two. -/
theorem minCount_wraps_train :
    ∃ js wl, Admitted trainWebhook js ∧ js.spec.scheduling = some trainGang ∧
      copyingLibrary.Copies ∧ buildWorkload trainDigests copyingLibrary js trainGang = .ok wl ∧
      trainTemplate (-2) ∈ wl.podGroupTemplates ∧
      ¬ MinCountExact trainDigests js trainGang "a-b-425f51e3c2" (-2) := by
  have hadm : Admitted trainWebhook (defaultJobSet schedulingGates (trainSet 2147483647)) := by
    apply Admitted.create
    · decide +kernel
    · decide +kernel
  have hwl : buildWorkload trainDigests copyingLibrary
      (defaultJobSet schedulingGates (trainSet 2147483647)) trainGang =
        .ok ⟨"5f3c", [trainTemplate (-2)]⟩ := by
    decide +kernel
  refine ⟨_, _, hadm, rfl, copyingLibrary_copies, hwl, List.mem_singleton.mpr rfl, ?_⟩
  rintro (⟨rjob, -, hone, -⟩ | hsum)
  · exact absurd hone (by decide)
  · revert hsum
    decide +kernel

end JobSetOperator
