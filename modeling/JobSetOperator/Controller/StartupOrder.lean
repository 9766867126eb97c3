import JobSetOperator.Controller.Traversal

/-!
# The order in which ReplicatedJobs start

Both loops over the ReplicatedJobs decide from counts. For a snapshot whose Jobs
have distinct indexes below the number of replicas, a count that reaches the
number of replicas covers every index. So `DependsOn` is honoured on the Jobs
themselves. The startup order counts a Job as started once it is ready, and a
suspended Job whose pods had succeeded before counts as ready too.
-/
namespace JobSetOperator

open Library Library.Program

/-! ## Counts and indexes -/

/-- Enough distinct numbers below `n` are all of them. -/
theorem exists_of_count {α : Type} {l : List α} {f : α → ℕ} {n : ℕ} (hnodup : (l.map f).Nodup)
    (hlt : ∀ a ∈ l, f a < n) (hn : n ≤ l.length) {i : ℕ} (hi : i < n) : ∃ a ∈ l, f a = i := by
  have hsub : (l.map f).toFinset ⊆ Finset.range n := by
    intro k hk
    obtain ⟨a, ha, rfl⟩ := List.mem_map.mp (List.mem_toFinset.mp hk)
    exact Finset.mem_range.mpr (hlt a ha)
  have hcard : (Finset.range n).card ≤ (l.map f).toFinset.card := by
    rw [Finset.card_range, List.toFinset_card_of_nodup hnodup, List.length_map]
    exact hn
  have hall := Finset.eq_of_subset_of_card_le hsub hcard
  have hmem : i ∈ (l.map f).toFinset := by
    rw [hall]
    exact Finset.mem_range.mpr hi
  exact List.mem_map.mp (List.mem_toFinset.mp hmem)

/-- The child Jobs of a JobSet: each has an index of a ReplicatedJob of its own. -/
structure ChildrenOk (js : JobSet) (jobs : List Job) : Prop where
  indexed : ∀ job ∈ jobs, ∃ rjob ∈ js.spec.replicatedJobs, ∃ i < rjob.replicas,
    job.labels.lookup replicatedJobNameKey = some rjob.name ∧ jobIndexLabel job = some (i : ℤ)
  unique : jobs.Pairwise fun a b =>
    ¬ (a.labels.lookup replicatedJobNameKey = b.labels.lookup replicatedJobNameKey ∧
      jobIndexLabel a = jobIndexLabel b)

/-- Every index of the ReplicatedJob has a Job of that kind. -/
def Covered (jobs : List Job) (rjob : ReplicatedJob) (kind : Job → Prop) : Prop :=
  ∀ i < rjob.replicas, ∃ job ∈ jobs, job.labels.lookup replicatedJobNameKey = some rjob.name ∧
    jobIndexLabel job = some (i : ℤ) ∧ kind job

theorem Covered.mono {jobs : List Job} {rjob : ReplicatedJob} {kind kind' : Job → Prop}
    (h : Covered jobs rjob kind) (himp : ∀ job ∈ jobs, kind job → kind' job) :
    Covered jobs rjob kind' := by
  intro i hi
  obtain ⟨job, hmem, hname, hindex, hkind⟩ := h i hi
  exact ⟨job, hmem, hname, hindex, himp job hmem hkind⟩

/-- The index of a Job as a number. -/
def jobIndex (job : Job) : ℕ := ((jobIndexLabel job).getD 0).toNat

/-- Jobs of one ReplicatedJob have different indexes below its replicas. -/
theorem ChildrenOk.indexes {js : JobSet} {jobs l : List Job} (h : ChildrenOk js jobs)
    (hnames : js.jobNames.Nodup) {rjob : ReplicatedJob} (hrjob : rjob ∈ js.spec.replicatedJobs)
    (hl : l.Subperm jobs) (hof : ∀ job ∈ l, job.labels.get replicatedJobNameKey = rjob.name) :
    (∀ job ∈ l, job.labels.lookup replicatedJobNameKey = some rjob.name ∧
      jobIndexLabel job = some (jobIndex job : ℤ) ∧ jobIndex job < rjob.replicas) ∧
    (l.map jobIndex).Nodup := by
  have hmem : ∀ job ∈ l, job ∈ jobs := fun job hjob => hl.subset hjob
  have hindexed : ∀ job ∈ l, job.labels.lookup replicatedJobNameKey = some rjob.name ∧
      jobIndexLabel job = some (jobIndex job : ℤ) ∧ jobIndex job < rjob.replicas := by
    intro job hjob
    obtain ⟨rjob', hrjob', i, hi, hname, hindex⟩ := h.indexed job (hmem job hjob)
    have hget := hof job hjob
    unfold StrMap.get at hget
    rw [hname, Option.getD_some] at hget
    obtain rfl := eq_of_key hnames hrjob' hrjob hget
    have hi' : jobIndex job = i := by
      unfold jobIndex
      rw [hindex]
      rfl
    exact ⟨hname, by rw [hindex, hi'], by rw [hi']; exact hi⟩
  have hpairwise : l.Pairwise fun a b =>
      ¬ (a.labels.lookup replicatedJobNameKey = b.labels.lookup replicatedJobNameKey ∧
        jobIndexLabel a = jobIndexLabel b) := by
    obtain ⟨l', hperm, hsub⟩ := hl
    refine (hperm.pairwise_iff ?_).mp (h.unique.sublist hsub)
    rintro a b hab ⟨hname, hindex⟩
    exact hab ⟨hname.symm, hindex.symm⟩
  refine ⟨hindexed, List.pairwise_map.mpr (hpairwise.imp_of_mem ?_)⟩
  intro a b ha hb hab hidx
  obtain ⟨hna, hia, -⟩ := hindexed a ha
  obtain ⟨hnb, hib, -⟩ := hindexed b hb
  exact hab ⟨by rw [hna, hnb], by rw [hia, hib, hidx]⟩

/-- As many Jobs of a ReplicatedJob as it has replicas cover its indexes. -/
theorem ChildrenOk.covered {js : JobSet} {jobs l : List Job} (h : ChildrenOk js jobs)
    (hnames : js.jobNames.Nodup) {rjob : ReplicatedJob} (hrjob : rjob ∈ js.spec.replicatedJobs)
    (hl : l.Subperm jobs) (hof : ∀ job ∈ l, job.labels.get replicatedJobNameKey = rjob.name)
    (hcount : rjob.replicas ≤ l.length) : Covered jobs rjob (· ∈ l) := by
  obtain ⟨hindexed, hnodup⟩ := h.indexes hnames hrjob hl hof
  intro i hi
  obtain ⟨job, hjob, rfl⟩ :=
    exists_of_count hnodup (fun job hjob => (hindexed job hjob).2.2) hcount hi
  obtain ⟨hname, hindex, -⟩ := hindexed job hjob
  exact ⟨job, hl.subset hjob, hname, hindex, hjob⟩

/-- There are at most as many Jobs of a ReplicatedJob as it has replicas. -/
theorem ChildrenOk.length_le {js : JobSet} {jobs l : List Job} (h : ChildrenOk js jobs)
    (hnames : js.jobNames.Nodup) {rjob : ReplicatedJob} (hrjob : rjob ∈ js.spec.replicatedJobs)
    (hl : l.Subperm jobs) (hof : ∀ job ∈ l, job.labels.get replicatedJobNameKey = rjob.name) :
    l.length ≤ rjob.replicas := by
  obtain ⟨hindexed, hnodup⟩ := h.indexes hnames hrjob hl hof
  have hsub : l.map jobIndex ⊆ List.range rjob.replicas := by
    intro i hi
    obtain ⟨job, hjob, rfl⟩ := List.mem_map.mp hi
    exact List.mem_range.mpr (hindexed job hjob).2.2
  have hle := (hnodup.subperm hsub).length_le
  rwa [List.length_map, List.length_range] at hle

/-- The buckets hold the Jobs of the snapshot, each once. -/
theorem getChildJobs_perm {gates : FeatureGates} {js : JobSet} {jobs : List Job}
    {owned : ChildJobs} (h : getChildJobs gates js jobs = .ok owned) :
    (owned.active ++ owned.successful ++ owned.failed ++ owned.previous).Perm jobs := by
  induction jobs generalizing owned with
  | nil =>
    cases h
    exact List.Perm.refl _
  | cons first rest ih =>
    obtain ⟨bucket, -, h⟩ := except_bind_ok h
    obtain ⟨others, hothers, h⟩ := except_bind_ok h
    cases h
    have hrest := (ih hothers).cons first
    refine List.Perm.trans ?_ hrest
    cases bucket <;> simp only [ChildJobs.add, List.append_assoc, List.cons_append]
    · exact List.Perm.refl _
    · exact List.perm_middle
    · rw [← List.append_assoc, ← List.append_assoc]
      exact List.perm_middle
    · rw [← List.append_assoc, ← List.append_assoc, ← List.append_assoc, ← List.append_assoc]
      exact List.perm_middle

/-! ## What the counts stand for -/

/-- The Job is of the current attempt: its labels are not behind the counters. -/
def CurrentJob (gates : FeatureGates) (js : JobSet) (job : Job) : Prop :=
  (∃ r, restartLabel job = some r ∧ (js.status.restarts : ℤ) ≤ r) ∧
    (gates.restartJob = true → outdatedIndividually js job = .ok false)

theorem jobFinished_cases {job : Job} {t : JobConditionType} (h : jobFinished job = some t) :
    t = .jobComplete ∨ t = .jobFailed := by
  unfold jobFinished at h
  obtain ⟨c, hc, rfl⟩ := Option.map_eq_some_iff.mp h
  have htype := List.find?_some hc
  simp only [decide_eq_true_eq] at htype
  exact htype.1

/-- What the bucket of a Job says about it. -/
theorem bucket_facts {gates : FeatureGates} {js : JobSet} {jobs : List Job} {owned : ChildJobs}
    (h : getChildJobs gates js jobs = .ok owned) {job : Job} {b : Bucket}
    (hjob : job ∈ owned.jobs b) (hb : b ≠ .previous) :
    job ∈ jobs ∧ CurrentJob gates js job ∧ b = finishedBucket job := by
  obtain ⟨hmem, hc⟩ := (getChildJobs_mem h).mp hjob
  obtain ⟨hbucket, hcurrent⟩ := classifyJob_current hc hb
  exact ⟨hmem, hcurrent, hbucket⟩

theorem finishedBucket_active {job : Job} (h : Bucket.active = finishedBucket job) :
    jobFinished job = none := by
  unfold finishedBucket at h
  split at h
  · cases h
  · cases h
  · assumption

theorem finishedBucket_successful {job : Job} (h : Bucket.successful = finishedBucket job) :
    jobFinished job = some .jobComplete := by
  unfold finishedBucket at h
  split at h
  · cases h
  · rename_i t hne hfin
    rcases jobFinished_cases hfin with rfl | rfl
    · exact hfin
    · exact absurd rfl hne
  · cases h

theorem finishedBucket_failed {job : Job} (h : Bucket.failed = finishedBucket job) :
    jobFinished job = some .jobFailed := by
  unfold finishedBucket at h
  split at h
  · assumption
  · cases h
  · cases h

theorem ofReplicatedJob_label {name : String} {jobs : List Job} {job : Job}
    (h : job ∈ ofReplicatedJob name jobs) : job.labels.get replicatedJobNameKey = name := by
  have := (List.mem_filter.mp h).2
  simp only [ne_eq, Bool.decide_and, decide_not, Bool.and_eq_true, decide_eq_true_eq] at this
  exact this.2

section Counts

variable {env : Env} {js : JobSet} {jobs : List Job} {owned : ChildJobs}

/-- The successful Jobs of a ReplicatedJob. -/
theorem covered_of_succeeded (hjobs : ChildrenOk js jobs) (hnames : js.jobNames.Nodup)
    (hsorted : getChildJobs env.gates js jobs = .ok owned) {rjob : ReplicatedJob}
    (hrjob : rjob ∈ js.spec.replicatedJobs)
    (hcount : rjob.replicas = (replicatedJobStatus env.gates js owned rjob.name).succeeded) :
    Covered jobs rjob fun job =>
      CurrentJob env.gates js job ∧ jobFinished job = some .jobComplete := by
  have hsub : (ofReplicatedJob rjob.name owned.successful).Subperm jobs := by
    refine List.Subperm.trans (List.Sublist.subperm ?_) (getChildJobs_perm hsorted).subperm
    refine (List.filter_sublist.trans (List.sublist_append_right owned.active _)).trans ?_
    rw [List.append_assoc _ owned.failed]
    exact List.sublist_append_left _ _
  have hcovered := hjobs.covered hnames hrjob hsub (fun job => ofReplicatedJob_label)
    hcount.le
  refine hcovered.mono fun job _ hjob => ?_
  have hbucket : job ∈ owned.jobs .successful := List.mem_of_mem_filter hjob
  obtain ⟨-, hcurrent, hb⟩ := bucket_facts hsorted hbucket (by decide)
  exact ⟨hcurrent, finishedBucket_successful hb⟩

/-- The Jobs of a ReplicatedJob that are ready or have finished. -/
theorem covered_of_started (hjobs : ChildrenOk js jobs) (hnames : js.jobNames.Nodup)
    (hsorted : getChildJobs env.gates js jobs = .ok owned) {rjob : ReplicatedJob}
    (hrjob : rjob ∈ js.spec.replicatedJobs)
    (hcount : allReplicasStarted rjob.replicas
      (replicatedJobStatus env.gates js owned rjob.name) = true) :
    Covered jobs rjob fun job => CurrentJob env.gates js job ∧
      ((jobFinished job = none ∧ jobReady job = true) ∨ jobFinished job = some .jobComplete ∨
        jobFinished job = some .jobFailed) := by
  let ready := (ofReplicatedJob rjob.name owned.active).filter jobReady
  let succeeded := ofReplicatedJob rjob.name owned.successful
  let failed := ofReplicatedJob rjob.name owned.failed
  have hcount' : rjob.replicas = failed.length + ready.length + succeeded.length :=
    of_decide_eq_true hcount
  have hsub : (ready ++ succeeded ++ failed).Subperm jobs := by
    refine List.Subperm.trans (List.Sublist.subperm ?_) (getChildJobs_perm hsorted).subperm
    have hready : ready.Sublist owned.active := List.filter_sublist.trans List.filter_sublist
    exact ((hready.append List.filter_sublist).append List.filter_sublist).trans
      (List.sublist_append_left _ _)
  have hof : ∀ job ∈ ready ++ succeeded ++ failed,
      job.labels.get replicatedJobNameKey = rjob.name := by
    intro job hjob
    simp only [List.mem_append] at hjob
    rcases hjob with (hjob | hjob) | hjob
    · exact ofReplicatedJob_label (List.mem_of_mem_filter hjob)
    · exact ofReplicatedJob_label hjob
    · exact ofReplicatedJob_label hjob
  have hcovered := hjobs.covered hnames hrjob hsub hof (by simp only [List.length_append]; omega)
  refine hcovered.mono fun job _ hjob => ?_
  simp only [List.mem_append] at hjob
  rcases hjob with (hjob | hjob) | hjob
  · obtain ⟨hof, hready⟩ := List.mem_filter.mp hjob
    have hbucket : job ∈ owned.jobs .active := List.mem_of_mem_filter hof
    obtain ⟨-, hcurrent, hb⟩ := bucket_facts hsorted hbucket (by decide)
    exact ⟨hcurrent, Or.inl ⟨finishedBucket_active hb, hready⟩⟩
  · have hbucket : job ∈ owned.jobs .successful := List.mem_of_mem_filter hjob
    obtain ⟨-, hcurrent, hb⟩ := bucket_facts hsorted hbucket (by decide)
    exact ⟨hcurrent, Or.inr (Or.inl (finishedBucket_successful hb))⟩
  · have hbucket : job ∈ owned.jobs .failed := List.mem_of_mem_filter hjob
    obtain ⟨-, hcurrent, hb⟩ := bucket_facts hsorted hbucket (by decide)
    exact ⟨hcurrent, Or.inr (Or.inr (finishedBucket_failed hb))⟩

end Counts

/-! ## The map of replicas -/

theorem foldl_addReplicas_of_notMem {rjobs : List ReplicatedJob} {name : String}
    (h : name ∉ rjobs.map (·.name)) (m : String → ℕ) :
    rjobs.foldl addReplicas m name = m name := by
  induction rjobs generalizing m with
  | nil => rfl
  | cons first rest ih =>
    simp only [List.map_cons, List.mem_cons, not_or] at h
    rw [List.foldl_cons, ih h.2, addReplicas, Function.update_of_ne h.1]

theorem foldl_addReplicas_of_mem {rjobs : List ReplicatedJob}
    (hnames : (rjobs.map (·.name)).Nodup) {rjob : ReplicatedJob} (hrjob : rjob ∈ rjobs)
    (m : String → ℕ) : rjobs.foldl addReplicas m rjob.name = rjob.replicas := by
  induction rjobs generalizing m with
  | nil => simp at hrjob
  | cons first rest ih =>
    obtain ⟨hnot, hrest⟩ := List.nodup_cons.mp hnames
    rw [List.foldl_cons]
    rcases List.mem_cons.mp hrjob with rfl | hmem
    · rw [foldl_addReplicas_of_notMem hnot, addReplicas, Function.update_self]
    · exact ih hrest hmem _

/-- What admission promises of `DependsOn`: the names of the ReplicatedJobs are
distinct, and a dependency points to an earlier ReplicatedJob. -/
structure DependsOnOk (js : JobSet) : Prop where
  names : js.jobNames.Nodup
  earlier : ∀ before rjob after, js.spec.replicatedJobs = before ++ rjob :: after →
    ∀ dep ∈ rjob.dependsOn.getD [], ∃ d ∈ before, d.name = dep.name

/-- The names before a ReplicatedJob are distinct. -/
theorem nodup_before {js : JobSet} (hnames : js.jobNames.Nodup) {before after : List ReplicatedJob}
    {rjob : ReplicatedJob} (hsplit : js.spec.replicatedJobs = before ++ rjob :: after) :
    ((before ++ [rjob]).map (·.name)).Nodup := by
  unfold JobSet.jobNames at hnames
  rw [hsplit, List.append_cons, List.map_append] at hnames
  exact hnames.of_append_left

/-- For an earlier ReplicatedJob the map is complete already. -/
theorem replicaMap_before {js : JobSet} (hnames : js.jobNames.Nodup)
    {before after : List ReplicatedJob} {rjob d : ReplicatedJob}
    (hsplit : js.spec.replicatedJobs = before ++ rjob :: after) (hd : d ∈ before) :
    replicaMap (before ++ [rjob]) d.name = d.replicas ∧
      replicaMap js.spec.replicatedJobs d.name = d.replicas := by
  constructor
  · exact foldl_addReplicas_of_mem (nodup_before hnames hsplit) (List.mem_append_left _ hd) _
  · have hmem : d ∈ js.spec.replicatedJobs := by
      rw [hsplit]
      exact List.mem_append_left _ hd
    exact foldl_addReplicas_of_mem hnames hmem _

/-- The map the loops fill as they go decides like the map of all ReplicatedJobs. -/
theorem dependencyReachedStatus_replicaMap {js : JobSet} (hjs : DependsOnOk js)
    {before after : List ReplicatedJob} {rjob : ReplicatedJob}
    (hsplit : js.spec.replicatedJobs = before ++ rjob :: after)
    (statuses : List ReplicatedJobStatus) :
    dependencyReachedStatus rjob (replicaMap (before ++ [rjob])) statuses =
      dependencyReachedStatus rjob (replicaMap js.spec.replicatedJobs) statuses := by
  unfold dependencyReachedStatus
  have hdep : ∀ dep ∈ rjob.dependsOn.getD [],
      dependencyReached (replicaMap (before ++ [rjob])) statuses dep =
        dependencyReached (replicaMap js.spec.replicatedJobs) statuses dep := by
    intro dep hdep
    obtain ⟨d, hd, hname⟩ := hjs.earlier before rjob after hsplit dep hdep
    obtain ⟨h₁, h₂⟩ := replicaMap_before hjs.names hsplit hd
    rw [hname] at h₁ h₂
    unfold dependencyReached
    rw [h₁, h₂]
  rw [Bool.eq_iff_iff, List.all_eq_true, List.all_eq_true]
  constructor
  · intro h dep hmem
    rw [← hdep dep hmem]
    exact h dep hmem
  · intro h dep hmem
    rw [hdep dep hmem]
    exact h dep hmem

/-! ## The calls that start a Job -/

/-- The call creates the Job or writes it unsuspended. -/
def Starts (r : Request) (job : Job) : Prop :=
  r = .createJob job ∨ (r = .updateJob job ∧ jobSuspended job = false)

theorem resumedJob_labels (gates : FeatureGates) (js : JobSet) (job : Job) :
    (resumedJob gates js job).labels = job.labels := by
  unfold resumedJob stampAttempt
  dsimp only
  split_ifs <;> rfl

/-- A Job is started when its ReplicatedJob has its turn. -/
theorem turn_of_starts {env : Env} {js : JobSet} {jobs : List Job} {r : Request} {job : Job}
    (hr : Issues r (reconcileRequest env js jobs)) (hjob : Starts r job) :
    ∃ owned before rjob after inOrder, getChildJobs env.gates js jobs = .ok owned ∧
      js.spec.replicatedJobs = before ++ rjob :: after ∧
      job.labels.get replicatedJobNameKey = rjob.name ∧
      Turn (calculateReplicatedJobStatuses env.gates js owned) inOrder before rjob ∧
      (jobSetSuspended js = false → inOrder = inOrderStartupPolicy js.spec.startupPolicy) := by
  obtain ⟨s, hcalls⟩ := (reconcileRequest_follows env js jobs).of_issues hr
  rcases hjob with rfl | ⟨rfl, hrunning⟩
  · obtain ⟨owned, active, p, q, rjob, created, hrun, ⟨before, after, hsplit, hturn⟩, hc, hmem⟩ :=
      hcalls
    obtain ⟨index, -, hconstruct, -⟩ := constructJobsFromTemplate_mem hc hmem
    obtain ⟨-, hname, -⟩ := constructJob_labels hconstruct
    refine ⟨owned, before, rjob, after, _, hrun.sorted, hsplit, ?_, hturn, fun hs => ?_⟩
    · unfold StrMap.get
      rw [hname, Option.getD_some]
    · unfold waitsInOrder
      rw [hs, Bool.not_false, Bool.true_and]
  · rcases hcalls with ⟨_, _, _, _, _, _, running, _, _, rfl⟩ | ⟨q, suspended, hres, hwritten⟩
    · simp [jobSuspended] at hrunning
    · obtain ⟨owned, active, p, rjob, hrun, -, ⟨before, after, hsplit, hturn⟩, hmem, -⟩ := hres
      refine ⟨owned, before, rjob, after, _, hrun.sorted, hsplit, ?_, hturn, fun _ => rfl⟩
      have hlabels : job.labels = suspended.labels := by
        rcases hwritten with ⟨-, rfl⟩ | ⟨version, -, rfl⟩
        · exact resumedJob_labels _ _ _
        · exact resumedJob_labels _ _ _
      rw [hlabels]
      simpa using (List.mem_filter.mp hmem).2

/-! ## DependsOn -/

/-- What a dependency asks of the snapshot. -/
def DependencyMet (gates : FeatureGates) (js : JobSet) (jobs : List Job) (dep : DependsOn) : Prop :=
  ∃ d ∈ js.spec.replicatedJobs, d.name = dep.name ∧
    match dep.status with
    | .dependencyComplete => Covered jobs d fun job =>
        CurrentJob gates js job ∧ jobFinished job = some .jobComplete
    | .dependencyReady => Covered jobs d fun job => CurrentJob gates js job ∧
        ((jobFinished job = none ∧ jobReady job = true) ∨ jobFinished job = some .jobComplete ∨
          jobFinished job = some .jobFailed)

/-- A dependency that the counts report as reached is met by the Jobs. -/
theorem dependencyMet_of_reached {env : Env} {js : JobSet} {jobs : List Job} {owned : ChildJobs}
    (hjs : DependsOnOk js) (hjobs : ChildrenOk js jobs)
    (hsorted : getChildJobs env.gates js jobs = .ok owned) {before after : List ReplicatedJob}
    {rjob : ReplicatedJob} (hsplit : js.spec.replicatedJobs = before ++ rjob :: after)
    {dep : DependsOn} (hdep : dep ∈ rjob.dependsOn.getD [])
    (hreached : dependencyReached (replicaMap (before ++ [rjob]))
      (calculateReplicatedJobStatuses env.gates js owned) dep = true) :
    DependencyMet env.gates js jobs dep := by
  obtain ⟨d, hd, hname⟩ := hjs.earlier before rjob after hsplit dep hdep
  have hmem : d ∈ js.spec.replicatedJobs := by
    rw [hsplit]
    exact List.mem_append_left _ hd
  have hmap := (replicaMap_before hjs.names hsplit hd).1
  have hfind := calculated_find env.gates owned (List.mem_map_of_mem (f := (·.name)) hmem)
  rw [hname] at hmap hfind
  unfold dependencyReached at hreached
  rw [hfind] at hreached
  refine ⟨d, hmem, hname, ?_⟩
  cases hstatus : dep.status with
  | dependencyComplete =>
    simp only [hstatus, hmap, decide_eq_true_eq] at hreached
    rw [← hname] at hreached
    exact covered_of_succeeded hjobs hjs.names hsorted hmem hreached
  | dependencyReady =>
    simp only [hstatus, hmap, decide_eq_true_eq] at hreached
    rw [← hname] at hreached
    exact covered_of_started hjobs hjs.names hsorted hmem (decide_eq_true hreached)

/-- `DependsOn` is honoured: whatever the API answers, a reconcile starts a Job of a
ReplicatedJob only if every index of each of its dependencies has a Job of the
current attempt in the snapshot that has succeeded (`Complete`) or is ready or has
finished (`Ready`). The map of replicas each loop has filled so far gives the same
verdict as the map of all ReplicatedJobs. -/
theorem dependsOn_ordering {env : Env} {js : JobSet} {jobs : List Job} (hjs : DependsOnOk js)
    (hjobs : ChildrenOk js jobs) :
    (∀ r job, Issues r (reconcileRequest env js jobs) → Starts r job →
      ∃ rjob ∈ js.spec.replicatedJobs, job.labels.get replicatedJobNameKey = rjob.name ∧
        ∀ dep ∈ rjob.dependsOn.getD [], DependencyMet env.gates js jobs dep) ∧
    ∀ before rjob after statuses, js.spec.replicatedJobs = before ++ rjob :: after →
      dependencyReachedStatus rjob (replicaMap (before ++ [rjob])) statuses =
        dependencyReachedStatus rjob (replicaMap js.spec.replicatedJobs) statuses := by
  refine ⟨fun r job hr hjob => ?_, fun before rjob after statuses hsplit =>
    dependencyReachedStatus_replicaMap hjs hsplit statuses⟩
  obtain ⟨owned, before, rjob, after, inOrder, hsorted, hsplit, hname, hturn, -⟩ :=
    turn_of_starts hr hjob
  refine ⟨rjob, by rw [hsplit]; simp, hname, fun dep hdep => ?_⟩
  have hreached := List.all_eq_true.mp hturn.reached dep hdep
  exact dependencyMet_of_reached hjs hjobs hsorted hsplit hdep hreached

/-- `b` waits for `a`, whose only Job has succeeded: the Job of `b` is created. -/
theorem dependsOn_ordering_two :
    let js := plainSet [.single "a" 1, { ReplicatedJob.single "b" 1 with
      dependsOn := some [⟨"a", .dependencyComplete⟩] }] 0 .recreate
    let jobs := [Job.child "js" "a" "0"
      ⟨[⟨.jobComplete, .conditionTrue, "", "", 0⟩], 0, none, 1, some 0⟩]
    ∃ job, Issues (.createJob job) (reconcileRequest (plainEnv restartJobGates) js jobs) ∧
      ∃ rjob ∈ js.spec.replicatedJobs, job.labels.get replicatedJobNameKey = rjob.name ∧
        ∀ dep ∈ rjob.dependsOn.getD [], DependencyMet restartJobGates js jobs dep := by
  intro js jobs
  have hjs : DependsOnOk js := by
    refine ⟨by decide, ?_⟩
    rintro (_ | ⟨first, _ | ⟨second, before⟩⟩) rjob after hsplit
    · cases hsplit
      simp [ReplicatedJob.single]
    · cases hsplit
      simp [ReplicatedJob.single]
    · simp [js, plainSet] at hsplit
  have hjobs : ChildrenOk js jobs := by
    refine ⟨fun job hjob => ?_, List.pairwise_singleton _ _⟩
    rw [List.mem_singleton.mp hjob]
    exact ⟨.single "a" 1, List.mem_cons_self, 0, by decide, by decide +kernel, by decide +kernel⟩
  have hcreated : (nextCreated (reconcileRequest (plainEnv restartJobGates) js jobs)).isSome =
      true := by decide +kernel
  obtain ⟨job, hjob⟩ := Option.isSome_iff_exists.mp hcreated
  have hissues := issues_of_nextCreated hjob
  exact ⟨job, hissues, (dependsOn_ordering hjs hjobs).1 _ job hissues (Or.inl rfl)⟩

/-! ## The startup order -/

/-- A ReplicatedJob the startup order has passed has started. -/
theorem Waited.started {gates : FeatureGates} {js : JobSet} {owned : ChildJobs}
    (hdeps : ∀ rjob ∈ js.spec.replicatedJobs, rjob.dependsOn = none)
    {before after : List ReplicatedJob} {rjob : ReplicatedJob}
    (hsplit : js.spec.replicatedJobs = before ++ rjob :: after)
    (h : Waited (calculateReplicatedJobStatuses gates js owned) true before) {d : ReplicatedJob}
    (hd : d ∈ before) :
    allReplicasStarted d.replicas (replicatedJobStatus gates js owned d.name) = true := by
  have hmem : d ∈ js.spec.replicatedJobs := by
    rw [hsplit]
    exact List.mem_append_left _ hd
  obtain ⟨front, back, rfl⟩ := List.append_of_mem hd
  rcases h rfl front d back rfl with hfalse | hstarted
  · unfold dependencyReachedStatus at hfalse
    rw [hdeps d hmem] at hfalse
    simp at hfalse
  · unfold replicasStarted at hstarted
    rw [calculated_find gates owned (List.mem_map_of_mem (f := (·.name)) hmem)] at hstarted
    exact Except.ok.inj hstarted

/-- Jobs start in order: a reconcile starts a Job of a ReplicatedJob only if every
index of the earlier ones has a Job of the current attempt in the snapshot that has
finished or is not suspended. -/
def StartsInOrder (env : Env) (js : JobSet) (jobs : List Job) : Prop :=
  ∀ r job, Issues r (reconcileRequest env js jobs) → Starts r job →
    ∃ before rjob after, js.spec.replicatedJobs = before ++ rjob :: after ∧
      job.labels.get replicatedJobNameKey = rjob.name ∧
      ∀ d ∈ before, Covered jobs d fun job =>
        CurrentJob env.gates js job ∧ (jobFinished job ≠ none ∨ jobSuspended job = false)

/-- The ReplicatedJobs the startup order gets past have started: where all replicas of the
first ones count as started, none of their Jobs counts as ready while it is suspended. -/
def PassedStarted (gates : FeatureGates) (js : JobSet) (jobs : List Job) : Prop :=
  ∀ owned before rjob after, getChildJobs gates js jobs = .ok owned →
    js.spec.replicatedJobs = before ++ rjob :: after →
    (∀ d ∈ before,
      allReplicasStarted d.replicas (replicatedJobStatus gates js owned d.name) = true) →
    ∀ d ∈ before, ∀ job ∈ jobs, job.labels.lookup replicatedJobNameKey = some d.name →
      CurrentJob gates js job → jobFinished job = none → jobSuspended job = true →
      jobReady job = false

/-- A JobSet whose Jobs of `a` come before those of `b`. -/
def inOrderSet : JobSet :=
  let js := plainSet [.single "a" 1, .single "b" 1] 0 .recreate
  { js with spec := { js.spec with startupPolicy := some ⟨.inOrder⟩ } }

/-- The Job of `a` runs. -/
def readyFirst : Job := Job.child "js" "a" "0" ⟨[], 1, some 1, 0, none⟩

theorem childrenOk_readyFirst : ChildrenOk inOrderSet [readyFirst] := by
  refine ⟨fun job hjob => ?_, List.pairwise_singleton _ _⟩
  rw [List.mem_singleton.mp hjob]
  exact ⟨.single "a" 1, List.mem_cons_self, 0, by decide, by decide +kernel, by decide +kernel⟩

/-- The Job of `a` was suspended when one of its two completions had succeeded. -/
def partlySucceeded : Job :=
  { Job.child "js" "a" "0" ⟨[], 0, some 0, 1, none⟩ with
    spec := { JobSpec.zero with
      parallelism := some 1, completions := some 2, suspend := some true } }

theorem childrenOk_partlySucceeded : ChildrenOk inOrderSet [partlySucceeded] := by
  refine ⟨fun job hjob => ?_, List.pairwise_singleton _ _⟩
  rw [List.mem_singleton.mp hjob]
  exact ⟨.single "a" 1, List.mem_cons_self, 0, by decide, by decide +kernel, by decide +kernel⟩

end JobSetOperator
