import JobSetOperator.Controller.MissingJobs
import JobSetOperator.Library.Numbering

/-!
# Ranks of child Jobs

The global and the group index of a child Job are running sums over the
ReplicatedJobs of the spec. Taken over all indexes in the order of the spec they
count from zero to the total, so every child Job carries a rank of its own below
the advertised number of Jobs.
-/
namespace JobSetOperator

open Library

/-! ## The running sum -/

theorem length_indexes (rjobs : List ReplicatedJob) :
    (indexes rjobs).length = (rjobs.map (·.replicas)).sum := by
  simp [indexes, List.length_flatMap]

/-- The loop counts on from its running sum. -/
theorem map_jobIndexFrom {rjobs : List ReplicatedJob} (hnames : (rjobs.map (·.name)).Nodup)
    (start : ℕ) :
    (indexes rjobs).map (fun slot => jobIndexFrom start slot.1.name slot.2 rjobs) =
      (List.range' start (rjobs.map (·.replicas)).sum).map fun k : ℕ => itoa k := by
  induction rjobs generalizing start with
  | nil => rfl
  | cons rjob rest ih =>
    obtain ⟨hfresh, hrest⟩ := List.nodup_cons.mp hnames
    have hfirst : ((List.range rjob.replicas).map fun i => (rjob, i)).map
        (fun slot => jobIndexFrom start slot.1.name slot.2 (rjob :: rest)) =
        (List.range' start rjob.replicas).map fun k : ℕ => itoa k := by
      rw [List.range'_eq_map_range, List.map_map, List.map_map]
      apply List.map_congr_left
      intro i _
      simp [jobIndexFrom]
    have hothers : (indexes rest).map
        (fun slot => jobIndexFrom start slot.1.name slot.2 (rjob :: rest)) =
        (indexes rest).map
          fun slot => jobIndexFrom (start + rjob.replicas) slot.1.name slot.2 rest := by
      apply List.map_congr_left
      intro slot hslot
      have hne : rjob.name ≠ slot.1.name := by
        intro heq
        apply hfresh
        exact List.mem_map.mpr ⟨slot.1, (mem_indexes.mp hslot).1, heq.symm⟩
      rw [jobIndexFrom, if_neg hne]
    have hsplit : indexes (rjob :: rest) =
        ((List.range rjob.replicas).map fun i => (rjob, i)) ++ indexes rest := rfl
    rw [hsplit, List.map_append, hfirst, hothers, ih hrest, ← List.map_append,
      List.range'_append_1, List.map_cons, List.sum_cons]

/-! ## Ranks -/

/-- The order of the spec: by ReplicatedJob, then by index. -/
def Before (js : JobSet) (p q : ReplicatedJob × ℕ) : Prop :=
  js.jobNames.idxOf p.1.name < js.jobNames.idxOf q.1.name ∨ p.1 = q.1 ∧ p.2 < q.2

/-- The index strings are the numbers below the total, each taken once and in the order of
the spec. -/
def Ranks (js : JobSet) (pairs : Set (ReplicatedJob × ℕ)) (index : ReplicatedJob × ℕ → String)
    (total : String) : Prop :=
  ∃ (rank : ReplicatedJob × ℕ → ℕ) (n : ℕ), total = itoa n ∧
    (∀ p ∈ pairs, index p = itoa (rank p)) ∧ Set.BijOn rank pairs {k | k < n} ∧
    ∀ p ∈ pairs, ∀ q ∈ pairs, rank p < rank q ↔ Before js p q

theorem Before.asymm {js : JobSet} (p q : ReplicatedJob × ℕ) (h : Before js p q) :
    ¬ Before js q p := by
  rintro (hlt | ⟨heq, hlt⟩)
  · rcases h with h | ⟨heq, -⟩
    · omega
    · rw [heq] at hlt
      omega
  · rcases h with h | ⟨-, h⟩
    · rw [heq] at h
      omega
    · omega

/-- The indexes of a part of the spec stand in the order of the spec. -/
theorem indexes_pairwise {js : JobSet} (hnames : js.jobNames.Nodup) {rjobs : List ReplicatedJob}
    (hrjobs : rjobs.Sublist js.spec.replicatedJobs) : (indexes rjobs).Pairwise (Before js) := by
  have horder : js.spec.replicatedJobs.Pairwise fun a b =>
      js.jobNames.idxOf a.name < js.jobNames.idxOf b.name := by
    apply List.pairwise_iff_getElem.mpr
    intro i j hi hj hij
    have hposition : ∀ k (hk : k < js.spec.replicatedJobs.length),
        js.jobNames.idxOf js.spec.replicatedJobs[k].name = k := by
      intro k hk
      have := hnames.idxOf_getElem k (by simpa [JobSet.jobNames] using hk)
      simpa [JobSet.jobNames] using this
    rw [hposition i hi, hposition j hj]
    exact hij
  unfold indexes
  rw [List.pairwise_flatMap]
  constructor
  · intro rjob _
    rw [List.pairwise_map]
    exact List.pairwise_lt_range.imp fun hlt => Or.inr ⟨rfl, hlt⟩
  · apply (horder.sublist hrjobs).imp
    intro a b hab p hp q hq
    obtain ⟨i, -, rfl⟩ := List.mem_map.mp hp
    obtain ⟨j, -, rfl⟩ := List.mem_map.mp hq
    exact Or.inl hab

/-- Both indexes are the loop over a part of the spec. -/
theorem ranks_jobIndexFrom {js : JobSet} (hnames : js.jobNames.Nodup) {rjobs : List ReplicatedJob}
    (hrjobs : rjobs.Sublist js.spec.replicatedJobs) :
    Ranks js {p | p.1 ∈ rjobs ∧ p.2 < p.1.replicas}
      (fun p => jobIndexFrom 0 p.1.name p.2 rjobs) (itoa ((rjobs.map (·.replicas)).sum : ℕ)) := by
  have hnodup : (rjobs.map (·.name)).Nodup := hnames.sublist (hrjobs.map _)
  have hmem : {p : ReplicatedJob × ℕ | p.1 ∈ rjobs ∧ p.2 < p.1.replicas} =
      {p | p ∈ indexes rjobs} := by
    ext p
    exact mem_indexes.symm
  have hmap := map_jobIndexFrom hnodup 0
  rw [← List.range_eq_range'] at hmap
  rw [hmem, ← length_indexes]
  refine ⟨fun p => (indexes rjobs).idxOf p, _, rfl, ?_, ?_, ?_⟩
  · intro p hp
    exact eq_of_map_range hmap hp
  · exact bijOn_idxOf (indexes_nodup (List.Nodup.of_map _ hnodup))
  · intro p hp q hq
    exact idxOf_lt_iff (indexes_pairwise hnames hrjobs) Before.asymm hp hq

/-- What a ranking says of one index. -/
theorem Ranks.lt {js : JobSet} {pairs : Set (ReplicatedJob × ℕ)} {total : String}
    {index : ReplicatedJob × ℕ → String} (h : Ranks js pairs index total)
    {p : ReplicatedJob × ℕ} (hp : p ∈ pairs) :
    ∃ k n : ℕ, index p = itoa k ∧ total = itoa n ∧ k < n := by
  obtain ⟨rank, n, htotal, hindex, hbij, -⟩ := h
  exact ⟨rank p, n, hindex p hp, htotal, hbij.mapsTo hp⟩

theorem Ranks.inj {js : JobSet} {pairs : Set (ReplicatedJob × ℕ)} {total : String}
    {index : ReplicatedJob × ℕ → String} (h : Ranks js pairs index total)
    {p q : ReplicatedJob × ℕ} (hp : p ∈ pairs) (hq : q ∈ pairs) (heq : index p = index q) :
    p = q := by
  obtain ⟨rank, n, -, hindex, hbij, -⟩ := h
  apply hbij.injOn hp hq
  rw [hindex p hp, hindex q hq] at heq
  exact_mod_cast itoa_injective heq

/-! ## The labels -/

/-- The entries that tell an object its ranks. -/
structure TellsRanks (js : JobSet) (p : ReplicatedJob × ℕ) (m : StrMap) : Prop where
  globalIndex : m.lookup jobGlobalIndexKey = some (globalJobIndex js p.1.name p.2)
  globalTotal : m.lookup globalReplicasKey = some (globalReplicas js)
  group : m.lookup groupNameKey = some p.1.groupName
  groupIndex : m.lookup jobGroupIndexKey = some (groupJobIndex js p.1.groupName p.1.name p.2)
  groupTotal : m.lookup groupReplicasKey = some (groupReplicas js p.1.groupName)

/-- The labels and annotations of a Job and of its pods. -/
def Job.tables (job : Job) : List StrMap :=
  [job.labels, job.annotations, job.spec.template.labels, job.spec.template.annotations]

/-- Later assignments to other keys do not hide an entry. -/
theorem assign_append_lookup {first rest : List (String × String)} {m : StrMap} {key : String}
    (h : ∀ e ∈ rest, e.1 ≠ key) :
    (assign m (first ++ rest)).lookup key = (assign m first).lookup key := by
  have hnone : rest.reverse.find? (fun e => e.1 = key) = none := by
    rw [List.find?_eq_none]
    intro e he
    simpa using h e (List.mem_reverse.mp he)
  simp [assign_lookup, List.find?_append, hnone]

theorem commonEntries_tellsRanks (platform : Platform) (gates : FeatureGates) (js : JobSet)
    (rjob : ReplicatedJob) (jobIdx individual : ℕ) (m : StrMap) :
    TellsRanks js (rjob, jobIdx)
      (assign m (commonEntries platform gates js rjob jobIdx individual)) := by
  constructor <;> rw [assign_lookup] <;> cases hc : js.spec.coordinator <;>
    simp [commonEntries, hc, replicatedJobReplicas, globalReplicasKey, jobIndexKey, jobKey,
      jobGlobalIndexKey, groupNameKey, groupReplicasKey, jobGroupIndexKey, coordinatorKey]

/-- The keys that are only written as annotations. -/
theorem annotationEntries_keys {gates : FeatureGates} {js : JobSet} {rjob : ReplicatedJob}
    {e : String × String} (h : e ∈ annotationEntries gates js rjob) :
    e.1 ∈ [executionAttemptsKey, exclusiveKey, nodeSelectorStrategyKey] := by
  have hplacement : ∀ {m : StrMap}, e ∈ exclusivePlacement m →
      e.1 ∈ [executionAttemptsKey, exclusiveKey, nodeSelectorStrategyKey] := by
    intro m hm
    unfold exclusivePlacement at hm
    split at hm
    · simp at hm
    · split at hm
      · rcases List.mem_cons.mp hm with rfl | hm
        · simp
        · rw [List.mem_singleton.mp hm]
          simp
      · rw [List.mem_singleton.mp hm]
        simp
  unfold annotationEntries at h
  rcases List.mem_append.mp h with h | h
  · rcases List.mem_append.mp h with h | h
    · split at h
      · rw [List.mem_singleton.mp h]
        simp
      · simp at h
    · exact hplacement h
  · exact hplacement h

theorem annotations_tellsRanks (platform : Platform) (gates : FeatureGates) (js : JobSet)
    (rjob : ReplicatedJob) (jobIdx individual : ℕ) (m : StrMap) :
    TellsRanks js (rjob, jobIdx) (assign m (commonEntries platform gates js rjob jobIdx individual ++
      annotationEntries gates js rjob)) := by
  have h := commonEntries_tellsRanks platform gates js rjob jobIdx individual m
  have hother : ∀ key, key ∉ [executionAttemptsKey, exclusiveKey, nodeSelectorStrategyKey] →
      ∀ e ∈ annotationEntries gates js rjob, e.1 ≠ key := by
    intro key hkey e he heq
    exact hkey (heq ▸ annotationEntries_keys he)
  constructor
  · rw [assign_append_lookup (hother _ (by decide))]
    exact h.globalIndex
  · rw [assign_append_lookup (hother _ (by decide))]
    exact h.globalTotal
  · rw [assign_append_lookup (hother _ (by decide))]
    exact h.group
  · rw [assign_append_lookup (hother _ (by decide))]
    exact h.groupIndex
  · rw [assign_append_lookup (hother _ (by decide))]
    exact h.groupTotal

/-- An entry of another key leaves the ranks alone. -/
theorem TellsRanks.insert {js : JobSet} {p : ReplicatedJob × ℕ} {m : StrMap}
    (h : TellsRanks js p m) (value : String) :
    TellsRanks js p (m.insert schedulingGroupTemplateNameKey value) := by
  constructor
  · rw [Finmap.lookup_insert_of_ne _ (by decide)]
    exact h.globalIndex
  · rw [Finmap.lookup_insert_of_ne _ (by decide)]
    exact h.globalTotal
  · rw [Finmap.lookup_insert_of_ne _ (by decide)]
    exact h.group
  · rw [Finmap.lookup_insert_of_ne _ (by decide)]
    exact h.groupIndex
  · rw [Finmap.lookup_insert_of_ne _ (by decide)]
    exact h.groupTotal

/-- The pod template keeps the labels and annotations it is given first. -/
theorem constructPodTemplate_tables (platform : Platform) (gates : FeatureGates) (js : JobSet)
    (rjob : ReplicatedJob) (jobIdx individual : ℕ) (jobAnnotations : StrMap) :
    (constructPodTemplate platform gates js rjob jobIdx individual jobAnnotations).labels =
      assign rjob.template.spec.template.labels
        (commonEntries platform gates js rjob jobIdx individual) ∧
    (constructPodTemplate platform gates js rjob jobIdx individual jobAnnotations).annotations =
      assign rjob.template.spec.template.annotations
        (commonEntries platform gates js rjob jobIdx individual ++
          annotationEntries gates js rjob) := by
  unfold constructPodTemplate
  dsimp only
  cases schedulingGroup platform gates js rjob jobIdx with
  | none => split_ifs <;> exact ⟨rfl, rfl⟩
  | some group => split_ifs <;> exact ⟨rfl, rfl⟩

/-- A constructed Job and its pods know their ranks. -/
theorem constructJob_tellsRanks {platform : Platform} {gates : FeatureGates} {js : JobSet}
    {rjob : ReplicatedJob} {jobIdx : ℕ} {job : Job}
    (h : constructJob platform gates js rjob jobIdx = .ok job) :
    ∀ m ∈ job.tables, TellsRanks js (rjob, jobIdx) m := by
  unfold constructJob at h
  cases hi : individualRestarts gates js rjob jobIdx with
  | error e => simp [hi, Bind.bind, Except.bind] at h
  | ok individual =>
    simp only [hi, Bind.bind, Except.bind, pure, Except.pure, Except.ok.injEq] at h
    subst h
    obtain ⟨hlabels, hannotations⟩ := constructPodTemplate_tables platform gates js rjob jobIdx
      individual (assign rjob.template.annotations
        (commonEntries platform gates js rjob jobIdx individual ++ annotationEntries gates js rjob))
    intro m hm
    simp only [Job.tables, List.mem_cons, List.not_mem_nil, or_false] at hm
    rcases hm with rfl | rfl | rfl | rfl
    · exact commonEntries_tellsRanks platform gates js rjob jobIdx individual _
    · have hcommon := annotations_tellsRanks platform gates js rjob jobIdx individual
        rjob.template.annotations
      cases schedulingGroup platform gates js rjob jobIdx with
      | none => exact hcommon
      | some group => exact hcommon.insert group.1
    · rw [hlabels]
      exact commonEntries_tellsRanks platform gates js rjob jobIdx individual _
    · rw [hannotations]
      exact annotations_tellsRanks platform gates js rjob jobIdx individual _

/-! ## All child Jobs -/

/-- The indexes of the JobSet. -/
def jobPairs (js : JobSet) : Set (ReplicatedJob × ℕ) :=
  {p | p.1 ∈ js.spec.replicatedJobs ∧ p.2 < p.1.replicas}

/-- The indexes of a group. -/
def groupPairs (js : JobSet) (groupName : String) : Set (ReplicatedJob × ℕ) :=
  {p | p ∈ jobPairs js ∧ p.1.groupName = groupName}

theorem ranks_globalJobIndex {js : JobSet} (hnames : js.jobNames.Nodup) :
    Ranks js (jobPairs js) (fun p => globalJobIndex js p.1.name p.2) (globalReplicas js) :=
  ranks_jobIndexFrom hnames (List.Sublist.refl _)

theorem ranks_groupJobIndex {js : JobSet} (hnames : js.jobNames.Nodup) (groupName : String) :
    Ranks js (groupPairs js groupName) (fun p => groupJobIndex js groupName p.1.name p.2)
      (groupReplicas js groupName) := by
  have hpairs : groupPairs js groupName = {p | p.1 ∈ (js.spec.replicatedJobs.filter fun rjob =>
      rjob.groupName = groupName) ∧ p.2 < p.1.replicas} := by
    ext p
    simp only [groupPairs, jobPairs, Set.mem_ofPred_eq, List.mem_filter, decide_eq_true_eq]
    tauto
  rw [hpairs]
  exact ranks_jobIndexFrom hnames List.filter_sublist

/-- The global index numbers the indexes of the JobSet and the group index those of a group, from
zero to the total and in the order of the spec. The labels and annotations of a child Job hold
both ranks, below the totals they hold, and no other index has the same ones. -/
theorem jobIndexes_ranked (platform : Platform) (gates : FeatureGates) {js : JobSet}
    (hnames : js.jobNames.Nodup) :
    Ranks js (jobPairs js) (fun p => globalJobIndex js p.1.name p.2) (globalReplicas js) ∧
    (∀ groupName, Ranks js (groupPairs js groupName)
      (fun p => groupJobIndex js groupName p.1.name p.2) (groupReplicas js groupName)) ∧
    ∀ p ∈ jobPairs js, ∀ job, constructJob platform gates js p.1 p.2 = .ok job →
      ∀ m ∈ job.tables,
        (∃ k n : ℕ, m.lookup jobGlobalIndexKey = some (itoa k) ∧
          m.lookup globalReplicasKey = some (itoa n) ∧ k < n) ∧
        (∃ k n : ℕ, m.lookup jobGroupIndexKey = some (itoa k) ∧
          m.lookup groupReplicasKey = some (itoa n) ∧ k < n) ∧
        ∀ q ∈ jobPairs js, ∀ job', constructJob platform gates js q.1 q.2 = .ok job' →
          ∀ m' ∈ job'.tables,
            m.lookup jobGlobalIndexKey = m'.lookup jobGlobalIndexKey ∨
              m.lookup groupNameKey = m'.lookup groupNameKey ∧
              m.lookup jobGroupIndexKey = m'.lookup jobGroupIndexKey → p = q := by
  have hglobal := ranks_globalJobIndex hnames
  have hgroup := ranks_groupJobIndex hnames
  refine ⟨hglobal, hgroup, ?_⟩
  intro p hp job hjob m hm
  have hranks := constructJob_tellsRanks hjob m hm
  refine ⟨?_, ?_, ?_⟩
  · obtain ⟨k, n, hk, hn, hlt⟩ := hglobal.lt hp
    exact ⟨k, n, hranks.globalIndex.trans (congrArg some hk),
      hranks.globalTotal.trans (congrArg some hn), hlt⟩
  · obtain ⟨k, n, hk, hn, hlt⟩ := (hgroup p.1.groupName).lt ⟨hp, rfl⟩
    exact ⟨k, n, hranks.groupIndex.trans (congrArg some hk),
      hranks.groupTotal.trans (congrArg some hn), hlt⟩
  · intro q hq job' hjob' m' hm' hsame
    have hranks' := constructJob_tellsRanks hjob' m' hm'
    rcases hsame with hsame | ⟨hname, hsame⟩
    · rw [hranks.globalIndex, hranks'.globalIndex] at hsame
      exact hglobal.inj hp hq (Option.some.inj hsame)
    · rw [hranks.group, hranks'.group] at hname
      have hgroupName : p.1.groupName = q.1.groupName := Option.some.inj hname
      rw [hranks.groupIndex, hranks'.groupIndex, hgroupName] at hsame
      exact (hgroup q.1.groupName).inj ⟨hp, hgroupName⟩ ⟨hq, rfl⟩ (Option.some.inj hsame)

/-- Two groups that alternate, with a ReplicatedJob without Jobs. -/
def groupedSet : JobSet :=
  plainSet [{ ReplicatedJob.single "a" 2 with groupName := "x" },
    { ReplicatedJob.single "b" 1 with groupName := "y" },
    { ReplicatedJob.single "c" 0 with groupName := "x" },
    { ReplicatedJob.single "d" 2 with groupName := "x" }] 1 .recreate

/-- The group has the ranks zero to three. -/
theorem jobIndexes_ranked_grouped :
    groupReplicas groupedSet "x" = "4" ∧
    Ranks groupedSet (groupPairs groupedSet "x")
      (fun p => groupJobIndex groupedSet "x" p.1.name p.2) (groupReplicas groupedSet "x") :=
  ⟨by decide, (jobIndexes_ranked (plainEnv restartJobGates).platform restartJobGates
    (by decide)).2.1 "x"⟩

example : [("a", 0), ("a", 1), ("d", 0), ("d", 1)].map
    (fun p => groupJobIndex groupedSet "x" p.1 p.2) = ["0", "1", "2", "3"] := by decide +kernel

end JobSetOperator
