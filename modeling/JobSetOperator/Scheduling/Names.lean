import JobSetOperator.Admission.Names
import JobSetOperator.Scheduling.Mapping

/-!
# Names of PodGroup templates

A generated name ends with a truncated hash of what the template is compiled from:
its kind, the namespace, the JobSet and the ReplicatedJob, the group or the Job. The
identity of a group is the text its targets join to, with a dash between them, and
names of ReplicatedJobs have dashes as well. So the identities of all sources are
distinct except those of groups that join to the same text; such groups get one
name, and the builders refuse the second of them.
-/
namespace JobSetOperator

/-! ## Identities -/

/-- The kind of a source. -/
def Source.kind : Source → String
  | .jobSet => "JobSet"
  | .group .. => "ReplicatedJobGroup"
  | .job .. => "Job"
  | .replicatedJob _ => "ReplicatedJob"

/-- The name of a source in its namespace. -/
def Source.localName (js : JobSet) : Source → String
  | .jobSet => js.name
  | .group policy _ _ => js.name ++ "/" ++ schedulingGroupName policy.targetReplicatedJobs
  | .job rjob jobIdx _ => js.name ++ "/" ++ rjob.name ++ "/" ++ itoa jobIdx
  | .replicatedJob rjob => js.name ++ "/" ++ rjob.name

/-- What the hash in the name of a source is taken of. -/
def Source.identity (js : JobSet) (s : Source) : String :=
  s.kind ++ "/" ++ js.inNamespace ++ "/" ++ s.localName js

/-- The readable part of the name of a source. -/
def Source.base (js : JobSet) : Source → String
  | .jobSet => js.name
  | .group policy _ _ => schedulingGroupName policy.targetReplicatedJobs
  | .job rjob jobIdx _ => rjob.name ++ "-" ++ itoa jobIdx
  | .replicatedJob rjob => rjob.name

theorem Source.templateName_eq (platform : Platform) (js : JobSet) (s : Source) :
    s.templateName platform js = hashedName (s.base js) (podGroupHash platform (s.identity js)) := by
  cases s <;> rfl

/-- The sources the names of a JobSet are made for, in whatever mode: the JobSet, those of the
entries, and all ReplicatedJobs. -/
def allSources (js : JobSet) (scheduling : JobSetScheduling) : List Source :=
  .jobSet :: (scheduling.replicatedJobs.flatMap (entrySources js) ++
    js.spec.replicatedJobs.map .replicatedJob)

theorem sources_sublist (js : JobSet) (scheduling : JobSetScheduling) :
    (sources js scheduling).Sublist (allSources js scheduling) := by
  unfold sources allSources
  split_ifs
  · exact List.Sublist.cons_cons _ (List.nil_sublist _)
  · apply List.Sublist.cons
    exact (List.Sublist.refl _).append (List.filter_sublist.map _)

/-- The identities the truncated hash has to tell apart. -/
def sourceIdentities (js : JobSet) (scheduling : JobSetScheduling) : Set String :=
  {identity | ∃ s ∈ allSources js scheduling, identity = s.identity js}

/-! ## Hashes at the end of names -/

theorem truncated_append_inj {a b c d : String} (h : a ++ "-" ++ b = c ++ "-" ++ d)
    (hlength : b.length = d.length) : b = d := by
  have hlist : (a ++ "-").toList ++ b.toList = (c ++ "-").toList ++ d.toList := by
    rw [← String.toList_append, ← String.toList_append, h]
  have hsame : b.toList.length = d.toList.length := by
    rwa [String.length_toList, String.length_toList]
  exact String.toList_inj.mp (List.append_inj_right' hlist hsame)

theorem hashedName_ends (base hash : String) : ∃ stem, hashedName base hash = stem ++ "-" ++ hash := by
  unfold hashedName
  dsimp only
  split_ifs
  · exact ⟨_, rfl⟩
  · exact ⟨_, rfl⟩

/-- Equal names have equal hashes. -/
theorem hashedName_hash_inj {a b h k : String} (heq : hashedName a h = hashedName b k)
    (hlength : h.length = k.length) : h = k := by
  obtain ⟨stem, hstem⟩ := hashedName_ends a h
  obtain ⟨stem', hstem'⟩ := hashedName_ends b k
  rw [hstem, hstem'] at heq
  exact truncated_append_inj heq hlength

/-- Sources have one name only if they have one identity. -/
theorem identity_of_templateName {platform : Platform} (hsha : platform.Sha1) {js : JobSet}
    {scheduling : JobSetScheduling}
    (hinj : Set.InjOn (podGroupHash platform) (sourceIdentities js scheduling)) {s t : Source}
    (hs : s ∈ allSources js scheduling) (ht : t ∈ allSources js scheduling)
    (h : s.templateName platform js = t.templateName platform js) :
    s.identity js = t.identity js := by
  rw [Source.templateName_eq, Source.templateName_eq] at h
  apply hinj ⟨s, hs, rfl⟩ ⟨t, ht, rfl⟩
  apply hashedName_hash_inj h
  rw [length_podGroupHash hsha, length_podGroupHash hsha]

/-! ## Kinds -/

theorem toList_slash_append (a b : String) :
    (a ++ "/" ++ b).toList = a.toList ++ '/' :: b.toList := by
  rw [String.toList_append, String.toList_append, List.append_assoc]
  rfl

/-- Texts agree when they agree before the first slash and after it. -/
theorem eq_of_first_slash {a b c d : String} (ha : '/' ∉ a.toList) (hc : '/' ∉ c.toList)
    (h : a ++ "/" ++ b = c ++ "/" ++ d) : a = c ∧ b = d := by
  have hlist := congrArg (fun s => s.toList.reverse) h
  simp only [toList_slash_append, List.reverse_append, List.reverse_cons, List.append_assoc,
    List.singleton_append] at hlist
  obtain ⟨hrest, hfirst⟩ := eq_of_last_separator (List.mem_reverse.not.mpr ha)
    (List.mem_reverse.not.mpr hc) hlist
  exact ⟨String.toList_inj.mp (List.reverse_injective hfirst),
    String.toList_inj.mp (List.reverse_injective hrest)⟩

/-- Texts agree when they agree before the last slash and after it. -/
theorem eq_of_last_slash {a b c d : String} (hb : '/' ∉ b.toList) (hd : '/' ∉ d.toList)
    (h : a ++ "/" ++ b = c ++ "/" ++ d) : a = c ∧ b = d := by
  have hlist := congrArg String.toList h
  rw [toList_slash_append, toList_slash_append] at hlist
  obtain ⟨hfirst, hrest⟩ := eq_of_last_separator hb hd hlist
  exact ⟨String.toList_inj.mp hfirst, String.toList_inj.mp hrest⟩

theorem slash_notMem_itoa (n : ℕ) : '/' ∉ (itoa n).toList := by
  intro h
  have hdigit := isDigit_of_mem_itoa h
  simp at hdigit

theorem Source.slash_notMem_kind (s : Source) : '/' ∉ s.kind.toList := by
  unfold Source.kind
  split <;> decide +kernel

theorem Source.identity_eq (js : JobSet) (s : Source) :
    s.identity js = s.kind ++ "/" ++ (js.inNamespace ++ "/" ++ s.localName js) := by
  unfold Source.identity
  simp only [String.append_assoc]

/-- An identity gives the kind and the name of the source. -/
theorem Source.identity_split {js : JobSet} {s t : Source} (h : s.identity js = t.identity js) :
    s.kind = t.kind ∧ s.localName js = t.localName js := by
  rw [Source.identity_eq, Source.identity_eq] at h
  obtain ⟨hkind, hrest⟩ := eq_of_first_slash s.slash_notMem_kind t.slash_notMem_kind h
  exact ⟨hkind, append_left_cancel hrest⟩

/-! ## Sources of one identity -/

/-- What is assumed of the targets: the ReplicatedJobs have distinct names, labels with dashes,
and the entries target existing ones, each at most once. -/
structure TargetsOnce (js : JobSet) (scheduling : JobSetScheduling) : Prop where
  names : js.jobNames.Nodup
  labels {name : String} (h : name ∈ js.jobNames) :
    name ≠ "" ∧ ∀ c ∈ name.toList, labelChar c = true
  existing {entry : ReplicatedJobScheduling} (h : entry ∈ scheduling.replicatedJobs)
    {name : String} (hname : name ∈ entry.targetReplicatedJobs) : name ∈ js.jobNames
  once : (scheduling.replicatedJobs.flatMap (·.targetReplicatedJobs)).Nodup

/-- Groups with different targets join to different texts. -/
def JoinApart (scheduling : JobSetScheduling) : Prop :=
  ∀ p ∈ scheduling.replicatedJobs, ∀ q ∈ scheduling.replicatedJobs, p.job = none → q.job = none →
    schedulingGroupName p.targetReplicatedJobs = schedulingGroupName q.targetReplicatedJobs →
    p.targetReplicatedJobs = q.targetReplicatedJobs

section Distinct

variable {js : JobSet} {scheduling : JobSetScheduling}

theorem group_mem_allSources {policy : ReplicatedJobScheduling} {first : ReplicatedJob}
    {members : List ReplicatedJob} : .group policy first members ∈ allSources js scheduling ↔
      policy ∈ scheduling.replicatedJobs ∧ policy.job = none ∧
        policy.targetReplicatedJobs.filterMap (rjobsByName js) = first :: members := by
  simp only [allSources, List.mem_cons, List.mem_append, List.mem_flatMap, mem_entrySources,
    List.mem_map, reduceCtorEq, false_or, and_false, exists_false, or_false, Source.group.injEq]
  constructor
  · rintro ⟨p, hp, f, m, hmembers, hjob, rfl, rfl, rfl⟩
    exact ⟨hp, hjob, hmembers⟩
  · rintro ⟨hp, hjob, hmembers⟩
    exact ⟨policy, hp, first, members, hmembers, hjob, rfl, rfl, rfl⟩

theorem job_mem_allSources {rjob : ReplicatedJob} {jobIdx : ℕ} {jobPolicy : JobScheduling}
    (h : .job rjob jobIdx jobPolicy ∈ allSources js scheduling) :
    ∃ policy ∈ scheduling.replicatedJobs, policy.job = some jobPolicy ∧
      rjob ∈ policy.targetReplicatedJobs.filterMap (rjobsByName js) := by
  simp only [allSources, List.mem_cons, List.mem_append, List.mem_flatMap, mem_entrySources,
    List.mem_map, reduceCtorEq, false_or, and_false, exists_false, or_false,
    Source.job.injEq] at h
  obtain ⟨policy, hpolicy, first, members, hmembers, jobPolicy', hjob, idx, -, rfl, rfl, rfl⟩ := h
  exact ⟨policy, hpolicy, hjob, by rw [hmembers]; exact List.mem_cons_self⟩

theorem replicatedJob_mem_allSources {rjob : ReplicatedJob}
    (h : .replicatedJob rjob ∈ allSources js scheduling) : rjob ∈ js.spec.replicatedJobs := by
  simp only [allSources, List.mem_cons, List.mem_append, List.mem_flatMap, mem_entrySources,
    List.mem_map, reduceCtorEq, false_or, and_false, exists_false, or_false,
    Source.replicatedJob.injEq, exists_eq_right] at h
  exact h

/-- The first member of an entry, which its sources are named or prioritized after. -/
def Source.leader : Source → Option ReplicatedJob
  | .jobSet => none
  | .group _ first _ => some first
  | .job rjob _ _ => some rjob
  | .replicatedJob _ => none

theorem leader_of_mem_entrySources {policy : ReplicatedJobScheduling} {s : Source}
    (h : s ∈ entrySources js policy) :
    ∃ first, s.leader = some first ∧ first.name ∈ policy.targetReplicatedJobs := by
  obtain ⟨first, members, hmembers, hs⟩ := mem_entrySources.mp h
  have hfirst : first ∈ policy.targetReplicatedJobs.filterMap (rjobsByName js) := by
    rw [hmembers]
    exact List.mem_cons_self
  obtain ⟨name, hname, hfind⟩ := List.mem_filterMap.mp hfirst
  obtain ⟨-, rfl⟩ := rjobsByName_some hfind
  rcases hs with ⟨-, rfl⟩ | ⟨jobPolicy, -, jobIdx, -, rfl⟩
  · exact ⟨first, rfl, hname⟩
  · exact ⟨first, rfl, hname⟩

theorem entrySources_nodup (policy : ReplicatedJobScheduling) : (entrySources js policy).Nodup := by
  unfold entrySources
  split
  · exact List.nodup_nil
  · split
    · apply List.nodup_range.map
      intro i j hij
      simpa using hij
    · exact List.nodup_singleton _

/-- No source is listed twice. -/
theorem TargetsOnce.allSources_nodup (h : TargetsOnce js scheduling) :
    (allSources js scheduling).Nodup := by
  have hentries : (scheduling.replicatedJobs.flatMap (entrySources js)).Nodup := by
    rw [List.nodup_flatMap]
    constructor
    · exact fun policy _ => entrySources_nodup policy
    · apply (List.nodup_flatMap.mp h.once).2.imp
      intro p q hdisjoint s hp hq
      obtain ⟨first, hfirst, hpn⟩ := leader_of_mem_entrySources hp
      obtain ⟨first', hfirst', hqn⟩ := leader_of_mem_entrySources hq
      cases hfirst.symm.trans hfirst'
      exact hdisjoint hpn hqn
  have hrjobs : (js.spec.replicatedJobs.map Source.replicatedJob).Nodup := by
    apply List.Nodup.map _ h.names.of_map
    intro a b hab
    simpa using hab
  unfold allSources
  rw [List.nodup_cons]
  constructor
  · simp [mem_entrySources]
  · apply hentries.append hrjobs
    intro s hs hs'
    obtain ⟨policy, -, hs⟩ := List.mem_flatMap.mp hs
    obtain ⟨first, hfirst, -⟩ := leader_of_mem_entrySources hs
    obtain ⟨rjob, -, rfl⟩ := List.mem_map.mp hs'
    cases hfirst

/-- The members of a group are among its targets, so that a group without a target has none. -/
theorem targets_ne_nil {targets : List String} {first : ReplicatedJob}
    {members : List ReplicatedJob} (h : targets.filterMap (rjobsByName js) = first :: members) :
    targets ≠ [] := by
  rintro rfl
  cases h

/-- Groups of the same targets are the same. -/
theorem TargetsOnce.entry_of_targets (h : TargetsOnce js scheduling)
    {p q : ReplicatedJobScheduling} (hp : p ∈ scheduling.replicatedJobs)
    (hq : q ∈ scheduling.replicatedJobs) (hne : p.targetReplicatedJobs ≠ [])
    (htargets : p.targetReplicatedJobs = q.targetReplicatedJobs) : p = q := by
  obtain ⟨name, hname⟩ := List.exists_mem_of_ne_nil _ hne
  exact entry_unique h.once hp hq hname (htargets ▸ hname)

/-- The identity of a source tells it apart from all others, if groups join apart. -/
theorem TargetsOnce.eq_of_identity (h : TargetsOnce js scheduling) (hjoin : JoinApart scheduling)
    {s t : Source} (hs : s ∈ allSources js scheduling) (ht : t ∈ allSources js scheduling)
    (heq : s.identity js = t.identity js) : s = t := by
  obtain ⟨hkind, hname⟩ := Source.identity_split heq
  cases s <;> cases t <;> try (simp [Source.kind] at hkind; done)
  case jobSet.jobSet => rfl
  case group.group p first members q first' members' =>
    obtain ⟨hp, hpjob, hpm⟩ := group_mem_allSources.mp hs
    obtain ⟨hq, hqjob, hqm⟩ := group_mem_allSources.mp ht
    have htargets := hjoin p hp q hq hpjob hqjob (append_left_cancel hname)
    obtain rfl := h.entry_of_targets hp hq (targets_ne_nil hpm) htargets
    rw [hpm] at hqm
    cases hqm
    rfl
  case job.job rjob idx policy rjob' idx' policy' =>
    obtain ⟨p, hp, hpjob, hpm⟩ := job_mem_allSources hs
    obtain ⟨q, hq, hqjob, hqm⟩ := job_mem_allSources ht
    obtain ⟨hlocal, hidx⟩ := eq_of_last_slash (slash_notMem_itoa idx) (slash_notMem_itoa idx') hname
    obtain ⟨hr, hrp⟩ := (mem_members h.names).mp hpm
    obtain ⟨hr', hrq⟩ := (mem_members h.names).mp hqm
    obtain rfl := List.inj_on_of_nodup_map h.names hr hr' (append_left_cancel hlocal)
    obtain rfl := entry_unique h.once hp hq hrp hrq
    have hindex : idx = idx' := by exact_mod_cast itoa_injective hidx
    have hpolicy : policy = policy' := Option.some.inj (hpjob.symm.trans hqjob)
    rw [hindex, hpolicy]
  case replicatedJob.replicatedJob rjob rjob' =>
    have hr := replicatedJob_mem_allSources hs
    have hr' := replicatedJob_mem_allSources ht
    rw [List.inj_on_of_nodup_map h.names hr hr' (append_left_cancel hname)]

end Distinct

/-! ## Distinct names -/

/-- Distinct sources have distinct short names, and the builders accept them. -/
structure NamesUnique (platform : Platform) (js : JobSet) (scheduling : JobSetScheduling) :
    Prop where
  distinct : Set.InjOn (Source.templateName platform js) {s | s ∈ allSources js scheduling}
  short {s : Source} (h : s ∈ allSources js scheduling) : (s.templateName platform js).length ≤ 63
  built : ∃ builders, newBuildersForJobSet platform js scheduling = .ok builders

theorem schedulingGroupName_eq_empty {targets : List String} (hne : ∀ name ∈ targets, name ≠ "")
    (h : schedulingGroupName targets = "") : targets = [] := by
  cases targets with
  | nil => rfl
  | cons name rest =>
    exfalso
    apply hne name List.mem_cons_self
    unfold schedulingGroupName at h
    cases rest with
    | nil => rwa [String.intercalate_singleton] at h
    | cons next others =>
      rw [String.intercalate_cons_cons, String.append_assoc] at h
      exact (String.append_eq_empty_iff.mp h).1

section Unique

variable {platform : Platform} {js : JobSet} {scheduling : JobSetScheduling}

/-- A group with a target is a source. -/
theorem TargetsOnce.group_mem (h : TargetsOnce js scheduling) {p : ReplicatedJobScheduling}
    (hp : p ∈ scheduling.replicatedJobs) (hjob : p.job = none) (hne : p.targetReplicatedJobs ≠ []) :
    ∃ first members, .group p first members ∈ allSources js scheduling := by
  obtain ⟨name, hname⟩ := List.exists_mem_of_ne_nil _ hne
  obtain ⟨rjob, hr, hrname⟩ := List.mem_map.mp (h.existing hp hname)
  have hmember : rjob ∈ p.targetReplicatedJobs.filterMap (rjobsByName js) :=
    (mem_members h.names).mpr ⟨hr, hrname ▸ hname⟩
  cases hmembers : p.targetReplicatedJobs.filterMap (rjobsByName js) with
  | nil =>
    rw [hmembers] at hmember
    cases hmember
  | cons first members => exact ⟨first, members, group_mem_allSources.mpr ⟨hp, hjob, hmembers⟩⟩

/-- Groups whose names are distinct join apart. -/
theorem TargetsOnce.joinApart (h : TargetsOnce js scheduling)
    (hdistinct : Set.InjOn (Source.templateName platform js) {s | s ∈ allSources js scheduling}) :
    JoinApart scheduling := by
  have hlabels : ∀ entry ∈ scheduling.replicatedJobs, ∀ name ∈ entry.targetReplicatedJobs,
      name ≠ "" := fun entry hentry name hname => (h.labels (h.existing hentry hname)).1
  intro p hp q hq hpjob hqjob hjoined
  by_cases hpne : p.targetReplicatedJobs = []
  · rw [hpne] at hjoined ⊢
    exact (schedulingGroupName_eq_empty (hlabels q hq) hjoined.symm).symm
  by_cases hqne : q.targetReplicatedJobs = []
  · rw [hqne] at hjoined ⊢
    exact schedulingGroupName_eq_empty (hlabels p hp) hjoined
  obtain ⟨first, members, hps⟩ := h.group_mem hp hpjob hpne
  obtain ⟨first', members', hqs⟩ := h.group_mem hq hqjob hqne
  have hname : (Source.group p first members).templateName platform js =
      (Source.group q first' members').templateName platform js := by
    unfold Source.templateName groupTemplateName
    unfold schedulingGroupName at hjoined
    simp only [hjoined]
  cases hdistinct hps hqs hname
  rfl

/-- The names of a JobSet are unique exactly if no two of its groups join to one text. -/
theorem namesUnique_iff (hsha : platform.Sha1) (h : TargetsOnce js scheduling)
    (hinj : Set.InjOn (podGroupHash platform) (sourceIdentities js scheduling)) :
    NamesUnique platform js scheduling ↔ JoinApart scheduling := by
  constructor
  · exact fun hunique => h.joinApart hunique.distinct
  · intro hjoin
    have hdistinct : Set.InjOn (Source.templateName platform js)
        {s | s ∈ allSources js scheduling} := by
      intro s hs t ht heq
      exact h.eq_of_identity hjoin hs ht (identity_of_templateName hsha hinj hs ht heq)
    constructor
    · exact hdistinct
    · exact fun {s} _ => (length_templateName hsha js s).2
    · have hnodup := h.allSources_nodup.map_on fun s hs t ht heq => hdistinct hs ht heq
      have hsources := hnodup.sublist ((sources_sublist js scheduling).map _)
      exact ⟨_, newBuildersForJobSet_of_nodup hsources⟩

end Unique

/-! ## Dashes in names -/

def dashTable : List (String × String) := [
  ("JobSet/default/train", "9820341ee6aef91745fbe7ddda68f01eb84002a9"),
  ("ReplicatedJob/default/train/a", "3eb746531d4994382957a56376fbcb58df9ca2b1"),
  ("ReplicatedJob/default/train/b", "b42b9e150af14273399aeb7bd4c113991ab5c491"),
  ("ReplicatedJob/default/train/c", "7a3a1570f5f1bcdc3887d8195485434f1e30a04c"),
  ("ReplicatedJob/default/train/a-b", "23dc4cb3aeb72b9df83cecde2b0622680650468f"),
  ("ReplicatedJob/default/train/b-c", "afcf11d32d05bdd534c88244ba86a1aad8935960"),
  ("ReplicatedJobGroup/default/train/a-b", "425f51e3c26b180d357074f607022682fe369d4f"),
  ("ReplicatedJobGroup/default/train/a-b-c", "bd4fd21e79933e8793afeb47f5190358194b10dd"),
  ("Job/default/train/c/0", "573bc5526a2d7aca5d730196ddd0842092f4c5af"),
  ("Job/default/train/c/1", "9b644f55331bac52ca4c917c243f35ad181ab97f")]

/-- Digests of the sources of `train`. -/
def dashDigests : Platform where
  sha1Hash identity := (dashTable.lookup identity).getD "da39a3ee5e6b4b0d3255bfef95601890afd80709"
  matchString _ _ := some true

theorem dashDigests_sha1 : dashDigests.Sha1 := by
  have hlengths : ∀ entry ∈ dashTable, entry.2.length = 40 := by decide +kernel
  intro text
  unfold dashDigests
  dsimp only
  cases hlookup : dashTable.lookup text with
  | none => rfl
  | some digest =>
    obtain ⟨before, after, htable, -⟩ := List.lookup_eq_some_iff.mp hlookup
    exact hlengths (text, digest) (by simp [htable])

/-- The JobSet `train` with ReplicatedJobs of the given names. -/
def dashSet (names : List String) (scheduling : JobSetScheduling) : JobSet :=
  let js := trainSet 1
  { js with spec := { js.spec with
      replicatedJobs := names.map fun name => .single name 2
      scheduling := some scheduling } }

/-- The ReplicatedJobs `a` and `b` are a group and `c` has a gang for each Job. -/
def dashApart : JobSetScheduling :=
  ⟨none, none, none, [⟨["a", "b"], none, none, none, none⟩,
    ⟨["c"], none, none, none, some ⟨none, none, none, []⟩⟩]⟩

/-- Two groups that join to `a-b-c`. -/
def dashTwice : JobSetScheduling :=
  ⟨none, none, none, [⟨["a-b", "c"], none, none, none, none⟩,
    ⟨["a", "b-c"], none, none, none, none⟩]⟩

theorem labels_of_all {names : List String}
    (h : (names.all fun name => name ≠ "" && name.toList.all labelChar) = true) {name : String}
    (hname : name ∈ names) : name ≠ "" ∧ ∀ c ∈ name.toList, labelChar c = true := by
  have hone := List.all_eq_true.mp h name hname
  simpa using hone

theorem hash_injOn {platform : Platform} {js : JobSet} {scheduling : JobSetScheduling}
    (h : (((allSources js scheduling).map (Source.identity js)).dedup.map
      (podGroupHash platform)).Nodup) :
    Set.InjOn (podGroupHash platform) (sourceIdentities js scheduling) := by
  rintro x ⟨s, hs, rfl⟩ y ⟨t, ht, rfl⟩ heq
  exact List.inj_on_of_nodup_map h (List.mem_dedup.mpr (List.mem_map_of_mem hs))
    (List.mem_dedup.mpr (List.mem_map_of_mem ht)) heq

def apartSet : JobSet := dashSet ["a", "b", "a-b", "c"] dashApart

def twiceSet : JobSet := dashSet ["a-b", "c", "a", "b-c"] dashTwice

theorem apartSet_targetsOnce : TargetsOnce apartSet dashApart where
  names := by decide +kernel
  labels := labels_of_all (by decide +kernel)
  existing {entry} h {name} hname := by
    revert entry name
    decide +kernel
  once := by decide +kernel

theorem twiceSet_targetsOnce : TargetsOnce twiceSet dashTwice where
  names := by decide +kernel
  labels := labels_of_all (by decide +kernel)
  existing {entry} h {name} hname := by
    revert entry name
    decide +kernel
  once := by decide +kernel

theorem dashApart_joinApart : JoinApart dashApart := by
  unfold JoinApart
  decide +kernel

/-- The names of `train` with a group, a gang for each Job and a ReplicatedJob called as the
group are unique. -/
theorem namesUnique_apartSet : TargetsOnce apartSet dashApart ∧ dashDigests.Sha1 ∧
    Set.InjOn (podGroupHash dashDigests) (sourceIdentities apartSet dashApart) ∧
    NamesUnique dashDigests apartSet dashApart := by
  have hinj : Set.InjOn (podGroupHash dashDigests) (sourceIdentities apartSet dashApart) :=
    hash_injOn (by decide +kernel)
  refine ⟨apartSet_targetsOnce, dashDigests_sha1, hinj, ?_⟩
  exact (namesUnique_iff dashDigests_sha1 apartSet_targetsOnce hinj).mpr dashApart_joinApart

/-- Groups that join to one text get one name, and the builders refuse it. -/
theorem not_namesUnique_twiceSet : TargetsOnce twiceSet dashTwice ∧ dashDigests.Sha1 ∧
    Set.InjOn (podGroupHash dashDigests) (sourceIdentities twiceSet dashTwice) ∧
    newBuildersForJobSet dashDigests twiceSet dashTwice = .error "a-b-c-bd4fd21e79" ∧
    ¬ NamesUnique dashDigests twiceSet dashTwice := by
  have herror : newBuildersForJobSet dashDigests twiceSet dashTwice =
      .error "a-b-c-bd4fd21e79" := by
    rfl
  refine ⟨twiceSet_targetsOnce, dashDigests_sha1, hash_injOn (by decide +kernel), herror, ?_⟩
  intro hunique
  obtain ⟨builders, hbuilt⟩ := hunique.built
  rw [herror] at hbuilt
  cases hbuilt

end JobSetOperator
