import JobSetOperator.Controller.StartupOrder

/-!
# The Jobs a reconcile constructs

`constructJobsFromTemplate` builds a Job for every index of a ReplicatedJob whose
name is free. The names tell the indexes apart, so the constructed Jobs are the
missing ones, each once. Their labels are read back by `getChildJobs`, which sorts
them as active Jobs of the current attempt.
-/
namespace JobSetOperator

/-- All Jobs of a snapshot. -/
def ChildJobs.all (c : ChildJobs) : List Job := c.active ++ c.successful ++ c.failed ++ c.previous

/-- The indexes of all ReplicatedJobs. -/
def slots (js : JobSet) : List (ReplicatedJob × ℕ) :=
  js.spec.replicatedJobs.flatMap fun rjob => (List.range rjob.replicas).map fun i => (rjob, i)

def slotName (js : JobSet) (slot : ReplicatedJob × ℕ) : String :=
  genJobName js.name slot.1.name slot.2

/-- The indexes whose Job name is free. -/
def missing (js : JobSet) (ownedJobs : ChildJobs) : List (ReplicatedJob × ℕ) :=
  (slots js).filter fun slot => slotName js slot ∉ ownedJobs.all.map (·.name)

/-- The JobSet waits for Jobs of earlier attempts. -/
def recreationBlocked (js : JobSet) (ownedJobs : ChildJobs) : Bool :=
  decide (ownedJobs.previous ≠ []) && useBlockingRecreate js

/-- The Jobs constructed for all ReplicatedJobs, in order. -/
def constructJobs (platform : Platform) (gates : FeatureGates) (js : JobSet)
    (ownedJobs : ChildJobs) : List ReplicatedJob → Except String (List Job)
  | [] => .ok []
  | rjob :: rest => do
    let jobs ← constructJobsFromTemplate platform gates js rjob ownedJobs
    let others ← constructJobs platform gates js ownedJobs rest
    pure (jobs ++ others)

/-- The recorded restarts of the indexes are missing or complete. -/
def RestartListsComplete (js : JobSet) : Prop :=
  ∀ rjs ∈ js.status.replicatedJobsStatus,
    rjs.jobRestarts = [] ∨ rjs.jobRestarts.length = getReplicatedJobReplicas js rjs.name

/-! ## One Job -/

/-- The Job stands for the index, also when it is listed back. -/
structure BuiltFor (gates : FeatureGates) (js : JobSet) (slot : ReplicatedJob × ℕ) (job : Job) :
    Prop where
  name : job.name = slotName js slot
  replicatedJob : job.labels.lookup replicatedJobNameKey = some slot.1.name
  index : jobIndexLabel job = some (slot.2 : ℤ)
  suspend : job.spec.suspend = some (jobSetSuspended js)
  listed : ∀ stored : Job, stored.labels = job.labels → stored.status = job.status →
    classifyJob gates js stored = .ok .active

theorem getReplicatedJobReplicas_of_mem {js : JobSet} (hnames : js.jobNames.Nodup)
    {rjob : ReplicatedJob} (hrjob : rjob ∈ js.spec.replicatedJobs) :
    getReplicatedJobReplicas js rjob.name = rjob.replicas := by
  unfold getReplicatedJobReplicas
  cases hfind : js.spec.replicatedJobs.find? fun rj => rj.name = rjob.name with
  | none =>
    have := List.find?_eq_none.mp hfind rjob hrjob
    simp at this
  | some found =>
    have hname : found.name = rjob.name := by simpa using List.find?_some hfind
    obtain rfl := Library.eq_of_key hnames (List.mem_of_find?_eq_some hfind) hrjob hname
    rfl

/-- Complete lists have an entry for every index. -/
theorem length_getJobRestarts {js : JobSet} (hnames : js.jobNames.Nodup)
    (hlists : RestartListsComplete js) {rjob : ReplicatedJob}
    (hrjob : rjob ∈ js.spec.replicatedJobs) :
    (getJobRestarts js rjob.name).length = rjob.replicas := by
  have hreplicas := getReplicatedJobReplicas_of_mem hnames hrjob
  unfold getJobRestarts
  cases hfind : findReplicatedJobStatus js.status.replicatedJobsStatus rjob.name with
  | none => simp [hreplicas]
  | some rjs =>
    have hname : rjs.name = rjob.name := by simpa using List.find?_some hfind
    have hlist := hlists rjs (List.mem_of_find?_eq_some hfind)
    rw [hname, hreplicas] at hlist
    dsimp only
    split_ifs with hempty
    · simp [hreplicas]
    · exact hlist.resolve_left hempty

theorem indexGo_of_lt {list : List ℕ} {i : ℕ} (h : i < list.length) :
    indexGo list i = .ok (list.getD i 0) := by
  unfold indexGo
  rw [if_neg (by omega)]
  simp [List.getD, h]

/-- With complete lists every Job can be built. -/
theorem constructJob_exists (platform : Platform) {gates : FeatureGates} {js : JobSet}
    (hnames : js.jobNames.Nodup) (hlists : gates.restartJob = true → RestartListsComplete js)
    {rjob : ReplicatedJob} (hrjob : rjob ∈ js.spec.replicatedJobs) {jobIdx : ℕ}
    (hidx : jobIdx < rjob.replicas) :
    ∃ job, constructJob platform gates js rjob jobIdx = .ok job := by
  have hindividual : ∃ n, individualRestarts gates js rjob jobIdx = .ok n := by
    unfold individualRestarts
    split_ifs with hgate
    · have hlength := length_getJobRestarts hnames (hlists hgate) hrjob
      exact ⟨_, indexGo_of_lt (hlength ▸ hidx)⟩
    · exact ⟨0, rfl⟩
  obtain ⟨n, hn⟩ := hindividual
  unfold constructJob
  rw [hn]
  exact ⟨_, rfl⟩

/-- A Job that was just built is an active Job of the current attempt. -/
theorem constructJob_builtFor {platform : Platform} {gates : FeatureGates} {js : JobSet}
    {rjob : ReplicatedJob} {jobIdx : ℕ} {job : Job}
    (h : constructJob platform gates js rjob jobIdx = .ok job) :
    BuiltFor gates js (rjob, jobIdx) job := by
  obtain ⟨hrestarts, hname, hindex, hindividual, -⟩ := constructJob_labels h
  obtain ⟨n, -, hjob⟩ := except_bind_ok h
  cases hjob
  refine ⟨rfl, hname, ?_, rfl, fun stored hlabels hstatus => ?_⟩
  · unfold jobIndexLabel
    rw [hindex]
    exact parseInt_itoa _
  · have hfinished : finishedBucket stored = .active := by
      unfold finishedBucket jobFinished
      rw [hstatus]
      rfl
    have hlabel : requireInt restartsKey (stored.labels.get restartsKey) =
        .ok (js.status.restarts : ℤ) := by
      unfold requireInt StrMap.get
      rw [hlabels, hrestarts, Option.getD_some, parseInt_itoa]
    unfold classifyJob
    rw [hlabel, except_ok_bind, if_neg (lt_irrefl _)]
    split_ifs with hgate
    · obtain ⟨m, hm, hattempt⟩ := hindividual hgate
      have hcurrent : outdatedIndividually js stored = .ok false := by
        unfold outdatedIndividually requireLabel requireInt
        rw [hlabels, hname, hindex, hattempt]
        simp only [except_ok_bind, parseInt_itoa, hm, lt_irrefl, decide_false]
        rfl
      rw [hcurrent, except_ok_bind, hfinished]
      rfl
    · rw [hfinished]
      rfl

/-! ## All Jobs -/

theorem shouldCreateJob_iff {jobName : String} {ownedJobs : ChildJobs} :
    shouldCreateJob jobName ownedJobs = true ↔ jobName ∉ ownedJobs.all.map (·.name) := by
  simp only [shouldCreateJob, ChildJobs.all, List.all_eq_true, decide_eq_true_eq, List.mem_map,
    not_exists, not_and]
  exact forall_congr' fun job => imp_congr_right fun _ => ne_comm

/-- The Job is what `constructJob` builds for the index. -/
def Constructed (platform : Platform) (gates : FeatureGates) (js : JobSet)
    (slot : ReplicatedJob × ℕ) (job : Job) : Prop :=
  constructJob platform gates js slot.1 slot.2 = .ok job

section Slots

variable (platform : Platform) {gates : FeatureGates} {js : JobSet}
  (hnames : js.jobNames.Nodup) (hlists : gates.restartJob = true → RestartListsComplete js)
  (ownedJobs : ChildJobs)

include hnames hlists

/-- The loop over the indexes of one ReplicatedJob. -/
theorem constructJobsAt_constructed {rjob : ReplicatedJob} (hrjob : rjob ∈ js.spec.replicatedJobs)
    {indexes : List ℕ} (hindexes : ∀ i ∈ indexes, i < rjob.replicas) :
    ∃ jobs, constructJobsAt platform gates js rjob ownedJobs indexes = .ok jobs ∧
      List.Forall₂ (Constructed platform gates js)
        ((indexes.map fun i => (rjob, i)).filter fun slot =>
          slotName js slot ∉ ownedJobs.all.map (·.name)) jobs := by
  induction indexes with
  | nil => exact ⟨[], rfl, List.Forall₂.nil⟩
  | cons jobIdx rest ih =>
    obtain ⟨jobs, hjobs, hbuilt⟩ := ih fun i hi => hindexes i (List.mem_cons_of_mem _ hi)
    unfold constructJobsAt
    rw [List.map_cons]
    by_cases hfree : slotName js (rjob, jobIdx) ∉ ownedJobs.all.map (·.name)
    · obtain ⟨job, hjob⟩ := constructJob_exists platform hnames hlists hrjob
        (hindexes jobIdx List.mem_cons_self)
      have hcreate : shouldCreateJob (genJobName js.name rjob.name jobIdx) ownedJobs = true :=
        shouldCreateJob_iff.mpr hfree
      refine ⟨job :: jobs, ?_, ?_⟩
      · rw [if_pos hcreate, hjob, hjobs]
        rfl
      · rw [List.filter_cons_of_pos (by simpa using hfree)]
        exact List.Forall₂.cons hjob hbuilt
    · have hkeep : ¬ shouldCreateJob (genJobName js.name rjob.name jobIdx) ownedJobs = true :=
        fun h => hfree (shouldCreateJob_iff.mp h)
      refine ⟨jobs, ?_, ?_⟩
      · rw [if_neg hkeep]
        exact hjobs
      · rw [List.filter_cons_of_neg (by simpa using hfree)]
        exact hbuilt

/-- The loop over the ReplicatedJobs. -/
theorem constructJobs_constructed {rjobs : List ReplicatedJob}
    (hsub : ∀ rjob ∈ rjobs, rjob ∈ js.spec.replicatedJobs)
    (hfree : recreationBlocked js ownedJobs = false) :
    ∃ jobs, constructJobs platform gates js ownedJobs rjobs = .ok jobs ∧
      List.Forall₂ (Constructed platform gates js)
        ((rjobs.flatMap fun rjob => (List.range rjob.replicas).map fun i => (rjob, i)).filter
          fun slot => slotName js slot ∉ ownedJobs.all.map (·.name)) jobs := by
  induction rjobs with
  | nil => exact ⟨[], rfl, List.Forall₂.nil⟩
  | cons rjob rest ih =>
    obtain ⟨others, hothers, hrest⟩ := ih fun r hr => hsub r (List.mem_cons_of_mem _ hr)
    obtain ⟨jobs, hjobs, hbuilt⟩ := constructJobsAt_constructed platform hnames hlists ownedJobs
      (hsub rjob List.mem_cons_self) (fun i => List.mem_range.mp)
    refine ⟨jobs ++ others, ?_, ?_⟩
    · have hopen : ¬ (ownedJobs.previous ≠ [] ∧ useBlockingRecreate js = true) := by
        simpa [recreationBlocked] using hfree
      unfold constructJobs constructJobsFromTemplate
      rw [if_neg hopen, hjobs, hothers]
      rfl
    · rw [List.flatMap_cons, List.filter_append]
      exact List.rel_append hbuilt hrest

end Slots

theorem constructJobs_blocked (platform : Platform) (gates : FeatureGates) {js : JobSet}
    {ownedJobs : ChildJobs} (h : recreationBlocked js ownedJobs = true)
    (rjobs : List ReplicatedJob) :
    constructJobs platform gates js ownedJobs rjobs = .ok [] := by
  have hblocked : ownedJobs.previous ≠ [] ∧ useBlockingRecreate js = true := by
    simpa [recreationBlocked] using h
  induction rjobs with
  | nil => rfl
  | cons rjob rest ih =>
    unfold constructJobs constructJobsFromTemplate
    rw [if_pos hblocked, ih]
    rfl

/-- The indexes of some ReplicatedJobs, in order. -/
def indexes (rjobs : List ReplicatedJob) : List (ReplicatedJob × ℕ) :=
  rjobs.flatMap fun rjob => (List.range rjob.replicas).map fun i => (rjob, i)

theorem mem_indexes {rjobs : List ReplicatedJob} {slot : ReplicatedJob × ℕ} :
    slot ∈ indexes rjobs ↔ slot.1 ∈ rjobs ∧ slot.2 < slot.1.replicas := by
  obtain ⟨rjob, i⟩ := slot
  simp only [indexes, List.mem_flatMap, List.mem_map, List.mem_range, Prod.mk.injEq]
  constructor
  · rintro ⟨rjob', hmem, i', hi, rfl, rfl⟩
    exact ⟨hmem, hi⟩
  · rintro ⟨hmem, hi⟩
    exact ⟨rjob, hmem, i, hi, rfl, rfl⟩

theorem indexes_nodup {rjobs : List ReplicatedJob} (h : rjobs.Nodup) : (indexes rjobs).Nodup := by
  unfold indexes
  rw [List.nodup_flatMap]
  constructor
  · intro rjob _
    exact (List.nodup_range).map fun i j h => (Prod.mk.inj h).2
  · apply h.imp
    intro a b hab slot ha hb
    obtain ⟨i, -, rfl⟩ := List.mem_map.mp ha
    obtain ⟨j, -, hj⟩ := List.mem_map.mp hb
    cases hj
    exact hab rfl

/-- The indexes have different names. -/
theorem slotNames_nodup {js : JobSet} (hnames : js.jobNames.Nodup) :
    ((slots js).map (slotName js)).Nodup := by
  have hinjective : ∀ a ∈ slots js, ∀ b ∈ slots js, slotName js a = slotName js b → a = b := by
    rintro ⟨rjob, i⟩ ha ⟨rjob', j⟩ hb h
    obtain ⟨hname, rfl⟩ := genJobName_inj h
    obtain rfl := Library.eq_of_key hnames (mem_indexes.mp ha).1 (mem_indexes.mp hb).1 hname
    rfl
  exact (indexes_nodup (List.Nodup.of_map _ hnames)).map_on hinjective

/-- The constructed Jobs are the missing ones, each once, unless the JobSet waits for older
Jobs; they have different names and are listed back as active Jobs of their indexes. -/
theorem construction_covers (platform : Platform) {gates : FeatureGates} {js : JobSet}
    (hnames : js.jobNames.Nodup) (hlists : gates.restartJob = true → RestartListsComplete js)
    (ownedJobs : ChildJobs) :
    ∃ jobs, constructJobs platform gates js ownedJobs js.spec.replicatedJobs = .ok jobs ∧
      (recreationBlocked js ownedJobs = true → jobs = []) ∧
      (recreationBlocked js ownedJobs = false →
        List.Forall₂ (BuiltFor gates js) (missing js ownedJobs) jobs) ∧
      (jobs.map (·.name)).Nodup := by
  cases hblocked : recreationBlocked js ownedJobs with
  | true => exact ⟨[], constructJobs_blocked platform gates hblocked _, by simp⟩
  | false =>
    obtain ⟨jobs, hjobs, hconstructed⟩ := constructJobs_constructed platform hnames hlists ownedJobs
      (fun _ h => h) hblocked
    have hbuilt' : List.Forall₂ (BuiltFor gates js) (missing js ownedJobs) jobs :=
      hconstructed.imp fun _ _ h => constructJob_builtFor h
    refine ⟨jobs, hjobs, by simp, fun _ => hbuilt', ?_⟩
    have hmap : jobs.map (·.name) = (missing js ownedJobs).map (slotName js) := by
      rw [← List.forall₂_eq_eq_eq, List.forall₂_map_left_iff, List.forall₂_map_right_iff]
      exact hbuilt'.flip.imp fun _ _ h => h.name
    rw [hmap]
    exact (slotNames_nodup hnames).sublist (List.filter_sublist.map _)

/-- Two ReplicatedJobs whose names differ by what looks like an index. -/
def dashedSet : JobSet := plainSet [.single "a" 2, .single "a-1" 2] 1 .recreate

/-- One Job exists, and the other three are built. -/
theorem construction_covers_dashed :
    ∃ jobs, constructJobs (plainEnv restartJobGates).platform restartJobGates dashedSet
        ⟨[Job.child "js" "a" "0" ⟨[], 1, none, 0, none⟩], [], [], []⟩
        dashedSet.spec.replicatedJobs = .ok jobs ∧
      jobs.map (·.name) = ["js-a-1", "js-a-1-0", "js-a-1-1"] ∧ (jobs.map (·.name)).Nodup := by
  have hnames : dashedSet.jobNames.Nodup := by decide
  have hlists : RestartListsComplete dashedSet := fun rjs hrjs => by
    simp [dashedSet, plainSet, JobSet.zero, JobSetStatus.new] at hrjs
  obtain ⟨jobs, hjobs, -, hbuilt, hnodup⟩ :=
    construction_covers (plainEnv restartJobGates).platform hnames (fun _ => hlists)
      ⟨[Job.child "js" "a" "0" ⟨[], 1, none, 0, none⟩], [], [], []⟩
  refine ⟨jobs, hjobs, ?_, hnodup⟩
  have hmissing : (missing dashedSet ⟨[Job.child "js" "a" "0" ⟨[], 1, none, 0, none⟩], [], [], []⟩).map
      (slotName dashedSet) = ["js-a-1", "js-a-1-0", "js-a-1-1"] := by decide +kernel
  rw [← hmissing, ← List.forall₂_eq_eq_eq, List.forall₂_map_left_iff, List.forall₂_map_right_iff]
  exact (hbuilt (by decide)).flip.imp fun _ _ h => h.name

/-- A status that records the restarts of one index out of two. -/
def partlyRecorded : JobSet :=
  let js := plainSet [.single "w" 2] 1 .recreate
  { js with status := { js.status with
    replicatedJobsStatus := [⟨"w", 0, 0, 0, 0, 0, [1], [1]⟩] } }

/-- The construction of the second Job looks beyond the list. -/
theorem construction_beyond_list :
    partlyRecorded.jobNames.Nodup ∧
    constructJobs (plainEnv restartJobGates).platform restartJobGates partlyRecorded .empty
      partlyRecorded.spec.replicatedJobs = .error "index out of range" := by
  refine ⟨by decide, ?_⟩
  decide +kernel

end JobSetOperator
