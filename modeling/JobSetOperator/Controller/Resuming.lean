import JobSetOperator.Controller.StartupOrder

/-!
# Which Jobs a resumption leaves suspended

`resumeJobsIfNecessary` goes through the ReplicatedJobs whose dependencies are
reached. Without a startup order it resumes the suspended Jobs of each of them.
With the order it looks at the first one that has not started, and reports the
JobSet as resumed when all have. A suspended Job can be among the started ones: it
counts as ready when enough of its pods had succeeded before it was suspended.
-/
namespace JobSetOperator

open Library Library.Program

/-! ## The loop over the ReplicatedJobs that are reached -/

/-- The ReplicatedJobs whose dependencies are reached. -/
def reachedJobs (js : JobSet) (statuses : List ReplicatedJobStatus) : List ReplicatedJob :=
  js.spec.replicatedJobs.filter fun rjob =>
    dependencyReachedStatus rjob (replicaMap js.spec.replicatedJobs) statuses

/-- The end of a resumption that has gone through all ReplicatedJobs. -/
def reportResumed (p : Pass) : Prog Pass := do
  let now ← readClock
  pure (setJobSetResumedCondition now p)

/-- The end of a resumption at the first ReplicatedJob that has not started. -/
def reportInProgress (p : Pass) : Prog Pass := do
  let now ← readClock
  pure (setInOrderStartupPolicyInProgressCondition now p)

/-- The ReplicatedJob counts as started. -/
def countsAsStarted (gates : FeatureGates) (js : JobSet) (owned : ChildJobs)
    (rjob : ReplicatedJob) : Bool :=
  allReplicasStarted rjob.replicas (replicatedJobStatus gates js owned rjob.name)

theorem resumeJobsOf_append (env : Env) (js : JobSet) (l l' : List Job) :
    resumeJobsOf env js (l ++ l') = resumeJobsOf env js l >>= fun _ => resumeJobsOf env js l' := by
  induction l with
  | nil => rfl
  | cons job rest ih =>
    rw [List.cons_append, resumeJobsOf, resumeJobsOf]
    split_ifs
    · exact ih
    · rw [ih, Program.assoc]

section Loop

variable {env : Env} {js : JobSet} {owned : ChildJobs} {p : Pass} (active : List Job)
  (hjs : DependsOnOk js) (hspec : p.js.spec = js.spec)

include hjs hspec

/-- Without a startup order the suspended Jobs of all of them are resumed. -/
theorem resumeJobsLoop_anyOrder (statuses : List ReplicatedJobStatus)
    (horder : inOrderStartupPolicy js.spec.startupPolicy = false)
    {before rest : List ReplicatedJob} (hsplit : js.spec.replicatedJobs = before ++ rest) :
    resumeJobsLoop env active statuses p rest (replicaMap before) =
      resumeJobsOf env p.js ((rest.filter fun rjob => dependencyReachedStatus rjob
        (replicaMap js.spec.replicatedJobs) statuses).flatMap (activeJobsOf active)) >>=
          fun _ => reportResumed p := by
  induction rest generalizing before with
  | nil => rfl
  | cons rjob rest ih =>
    have hrest := @ih (before ++ [rjob]) (by simp [hsplit])
    rw [resumeJobsLoop]
    simp only [addReplicas_replicaMap]
    rw [dependencyReachedStatus_replicaMap hjs hsplit, hspec, horder, hrest]
    cases hreached : dependencyReachedStatus rjob (replicaMap js.spec.replicatedJobs) statuses with
    | false =>
      rw [List.filter_cons_of_neg (by simp [hreached])]
      rfl
    | true =>
      rw [List.filter_cons_of_pos (by simp [hreached]), List.flatMap_cons, resumeJobsOf_append,
        Program.assoc]
      rfl

/-- With the startup order, nothing is resumed when all of them count as started; otherwise
the Jobs of the first one that does not. -/
theorem resumeJobsLoop_inOrder
    (horder : inOrderStartupPolicy js.spec.startupPolicy = true)
    {before rest : List ReplicatedJob} (hsplit : js.spec.replicatedJobs = before ++ rest) :
    let reached := rest.filter fun rjob => dependencyReachedStatus rjob
      (replicaMap js.spec.replicatedJobs) (calculateReplicatedJobStatuses env.gates js owned)
    resumeJobsLoop env active (calculateReplicatedJobStatuses env.gates js owned) p rest
        (replicaMap before) =
      match reached.find? fun rjob => !countsAsStarted env.gates js owned rjob with
      | none => reportResumed p
      | some rjob => resumeJobsOf env p.js (activeJobsOf active rjob) >>= fun _ =>
          reportInProgress p := by
  induction rest generalizing before with
  | nil => rfl
  | cons rjob rest ih =>
    intro reached
    have hmem : rjob ∈ js.spec.replicatedJobs := by simp [hsplit]
    have hstarted : replicasStarted (calculateReplicatedJobStatuses env.gates js owned) rjob =
        .ok (countsAsStarted env.gates js owned rjob) := by
      unfold replicasStarted
      rw [calculated_find env.gates owned (List.mem_map_of_mem (f := (·.name)) hmem)]
      rfl
    have hrest := @ih (before ++ [rjob]) (by simp [hsplit])
    rw [resumeJobsLoop]
    simp only [addReplicas_replicaMap]
    rw [dependencyReachedStatus_replicaMap hjs hsplit, hspec, horder, hrest, hstarted]
    cases hreached : dependencyReachedStatus rjob (replicaMap js.spec.replicatedJobs)
        (calculateReplicatedJobStatuses env.gates js owned) with
    | false =>
      have hskip : reached = rest.filter _ := List.filter_cons_of_neg (by simp [hreached])
      rw [hskip]
      rfl
    | true =>
      have hkeep : reached = rjob :: rest.filter _ := List.filter_cons_of_pos hreached
      rw [hkeep]
      cases hcounts : countsAsStarted env.gates js owned rjob with
      | true =>
        rw [List.find?_cons_of_neg (by simp [hcounts])]
        rfl
      | false =>
        rw [List.find?_cons_of_pos (by simp [hcounts])]
        rfl

end Loop

/-! ## Jobs after the call -/

/-- The calls of a reconcile with their answers. -/
abbrev Trace := List (Σ r : Request, r.Response)

/-- The Job runs after the calls: it was not suspended, or was written so. -/
def LeftRunning (t : Trace) (job : Job) : Prop :=
  jobSuspended job = false ∨ ∃ j, ⟨.updateJob j, Except.ok ()⟩ ∈ t ∧ j.name = job.name ∧
    jobSuspended j = false

theorem LeftRunning.mono {t t' : Trace} {job : Job} (h : LeftRunning t job) (hsub : t ⊆ t') :
    LeftRunning t' job := by
  rcases h with h | ⟨j, hj, hname, hrunning⟩
  · exact Or.inl h
  · exact Or.inr ⟨j, hsub hj, hname, hrunning⟩

theorem resumedJob_name (gates : FeatureGates) (js : JobSet) (job : Job) :
    (resumedJob gates js job).name = job.name := by
  unfold resumedJob stampAttempt
  dsimp only
  split_ifs <;> rfl

/-- The write of a resumed Job. -/
theorem leftRunning_of_resumed {t : Trace} {gates : FeatureGates} {js : JobSet} {job read : Job}
    (hname : read.name = job.name)
    (h : ⟨.updateJob (resumedJob gates js read), Except.ok ()⟩ ∈ t) : LeftRunning t job :=
  Or.inr ⟨_, h, (resumedJob_name gates js read).trans hname, rfl⟩

section Paths

variable {A : (r : Request) → r.Response → Prop}

theorem path_liftExcept_ok {α : Type} {e : Except String α} {t : Trace} {a : α}
    (h : Path A (liftExcept e) t (.ok a)) : t = [] ∧ e = .ok a := by
  cases e with
  | ok b =>
    obtain ⟨rfl, hb⟩ := h
    exact ⟨rfl, by cases hb; rfl⟩
  | error e =>
    obtain ⟨-, he⟩ := h
    cases he

/-- A write of a Job that brings no error was acknowledged. -/
theorem path_updateJob_ok {job : Job} {t : Trace}
    (h : Path A (send (.updateJob job) >>= fun outcome => liftExcept outcome) t (.ok ())) :
    t = [⟨.updateJob job, Except.ok ()⟩] := by
  obtain ⟨outcome, t', -, ht, hlift⟩ := path_ask_bind.mp h
  obtain ⟨rfl, rfl⟩ := path_liftExcept_ok hlift
  exact ht

theorem path_resumeJob {env : Env} {js : JobSet} {job : Job} {t : Trace}
    (h : Path A (resumeJob env js job) t (.ok ())) : LeftRunning t job := by
  unfold resumeJob at h
  split_ifs at h
  · obtain ⟨answer, t', -, ht, hrest⟩ := path_ask_bind.mp h
    rcases path_bind.mp hrest with ⟨e, he, -⟩ | ⟨t₁, t₂, version, ht', -, hwrite⟩
    · cases he
    · have hlast := path_updateJob_ok hwrite
      have hmem := List.mem_append_right t₁ (hlast ▸ List.mem_cons_self)
      rw [ht, ht']
      apply leftRunning_of_resumed _ (List.mem_cons_of_mem _ hmem)
      rfl
  · have hlast := path_updateJob_ok h
    rw [hlast]
    exact leftRunning_of_resumed rfl List.mem_cons_self

/-- Every Job the loop goes through runs afterwards. -/
theorem path_resumeJobsOf {env : Env} {js : JobSet} {l : List Job} {t : Trace}
    (h : Path A (resumeJobsOf env js l) t (.ok ())) : ∀ job ∈ l, LeftRunning t job := by
  induction l generalizing t with
  | nil => simp
  | cons first rest ih =>
    rw [resumeJobsOf] at h
    split_ifs at h with hrunning
    · rw [List.forall_mem_cons]
      exact ⟨Or.inl (by simpa using hrunning), ih h⟩
    · rcases path_bind.mp h with ⟨e, he, -⟩ | ⟨t₁, t₂, u, rfl, hfirst, hrest⟩
      · cases he
      · rw [List.forall_mem_cons]
        constructor
        · exact (path_resumeJob hfirst).mono (List.subset_append_left _ _)
        · intro job hjob
          exact (ih hrest job hjob).mono (List.subset_append_right _ _)

end Paths

/-! ## Complete resumptions -/

section Resumption

variable (env : Env) (js : JobSet) (owned : ChildJobs) (p : Pass)

/-- The call with the counts of the same Jobs. -/
def resumption : Prog Pass :=
  resumeJobsIfNecessary env owned.active (calculateReplicatedJobStatuses env.gates js owned) p

/-- The ReplicatedJobs with reached dependencies, by the counts of the Jobs. -/
def reachedByCounts : List ReplicatedJob :=
  reachedJobs js (calculateReplicatedJobStatuses env.gates js owned)

/-- The startup order is not in the way: every ReplicatedJob with reached dependencies counts
as started. -/
def AllStarted : Prop :=
  ∀ rjob ∈ reachedByCounts env js owned, countsAsStarted env.gates js owned rjob = true

/-- The call sets the condition: it does not return early. -/
def ReportsResumed : Prop :=
  inOrderStartupPolicy js.spec.startupPolicy = true → AllStarted env js owned

/-- Whatever the API answers, a call that succeeds and sets the condition leaves no active Job
suspended whose ReplicatedJob has its dependencies reached. -/
def ResumeComplete : Prop :=
  ∀ t p', Path (fun _ _ => True) (resumption env js owned p) t (.ok p') →
    ReportsResumed env js owned → ∀ rjob ∈ reachedByCounts env js owned,
      ∀ job ∈ activeJobsOf owned.active rjob, LeftRunning t job

/-- The startup order skips a suspended Job: all ReplicatedJobs with reached dependencies count
as started, and one of them has a suspended active Job. -/
def SkipsSuspended : Prop :=
  inOrderStartupPolicy js.spec.startupPolicy = true ∧ AllStarted env js owned ∧
    ∃ rjob ∈ reachedByCounts env js owned, ∃ job ∈ activeJobsOf owned.active rjob,
      jobSuspended job = true

variable {env js owned p} (hjs : DependsOnOk js) (hspec : p.js.spec = js.spec)

include hjs hspec

theorem resumption_anyOrder (horder : inOrderStartupPolicy js.spec.startupPolicy = false) :
    resumption env js owned p = resumeJobsOf env p.js
      ((reachedByCounts env js owned).flatMap (activeJobsOf owned.active)) >>=
        fun _ => reportResumed p := by
  unfold resumption resumeJobsIfNecessary
  rw [hspec]
  exact @resumeJobsLoop_anyOrder env js p owned.active hjs hspec _ horder [] _ rfl

theorem resumption_started (horder : inOrderStartupPolicy js.spec.startupPolicy = true)
    (hall : AllStarted env js owned) : resumption env js owned p = reportResumed p := by
  have hloop := @resumeJobsLoop_inOrder env js owned p owned.active hjs hspec horder []
    js.spec.replicatedJobs rfl
  have hnone : ((reachedByCounts env js owned).find? fun rjob =>
      !countsAsStarted env.gates js owned rjob) = none := by
    rw [List.find?_eq_none]
    intro rjob hrjob
    simp [hall rjob hrjob]
  unfold resumption resumeJobsIfNecessary
  rw [hspec]
  refine hloop.trans ?_
  unfold reachedByCounts reachedJobs at hnone
  rw [hnone]

theorem resumption_inProgress (horder : inOrderStartupPolicy js.spec.startupPolicy = true)
    (hall : ¬ AllStarted env js owned) :
    ∃ rjob, resumption env js owned p = resumeJobsOf env p.js (activeJobsOf owned.active rjob) >>=
      fun _ => reportInProgress p := by
  have hloop := @resumeJobsLoop_inOrder env js owned p owned.active hjs hspec horder []
    js.spec.replicatedJobs rfl
  cases hfind : (reachedByCounts env js owned).find? fun rjob =>
      !countsAsStarted env.gates js owned rjob with
  | none =>
    exfalso
    apply hall
    intro rjob hrjob
    simpa using List.find?_eq_none.mp hfind rjob hrjob
  | some rjob =>
    refine ⟨rjob, ?_⟩
    unfold resumption resumeJobsIfNecessary
    rw [hspec]
    refine hloop.trans ?_
    unfold reachedByCounts reachedJobs at hfind
    rw [hfind]

/-- A call that sets the condition resumes everything that is reached, unless the startup
order skips a suspended Job. -/
theorem resumeComplete_iff : ResumeComplete env js owned p ↔ ¬ SkipsSuspended env js owned := by
  constructor
  · rintro hcomplete ⟨horder, hall, rjob, hrjob, job, hjob, hsuspended⟩
    have hpath : Path (fun _ _ => True) (resumption env js owned p) [⟨.now, (0 : Time)⟩]
        (.ok (setJobSetResumedCondition 0 p)) := by
      rw [resumption_started hjs hspec horder hall]
      exact ⟨(0 : Time), [], trivial, rfl, rfl, rfl⟩
    rcases hcomplete _ _ hpath (fun _ => hall) rjob hrjob job hjob with hrunning | ⟨j, hj, -⟩
    · rw [hsuspended] at hrunning
      cases hrunning
    · cases congrArg Sigma.fst (List.mem_singleton.mp hj)
  · intro hskip t p' hpath hreports rjob hrjob job hjob
    cases horder : inOrderStartupPolicy js.spec.startupPolicy with
    | false =>
      rw [resumption_anyOrder hjs hspec horder] at hpath
      rcases path_bind.mp hpath with ⟨e, he, -⟩ | ⟨t₁, t₂, u, rfl, hresumed, -⟩
      · cases he
      · have hmem := List.mem_flatMap.mpr ⟨rjob, hrjob, hjob⟩
        exact (path_resumeJobsOf hresumed job hmem).mono (List.subset_append_left _ _)
    | true =>
      left
      cases hsuspended : jobSuspended job with
      | false => rfl
      | true => exact absurd ⟨horder, hreports horder, rjob, hrjob, job, hjob, hsuspended⟩ hskip

/-- What the call sets. -/
theorem resumption_condition {t : Trace} {p' : Pass}
    (hpath : Path (fun _ _ => True) (resumption env js owned p) t (.ok p')) :
    (ReportsResumed env js owned → ∃ now, p' = setJobSetResumedCondition now p) ∧
    (¬ ReportsResumed env js owned →
      ∃ now, p' = setInOrderStartupPolicyInProgressCondition now p) := by
  constructor
  · intro hreports
    cases horder : inOrderStartupPolicy js.spec.startupPolicy with
    | false =>
      rw [resumption_anyOrder hjs hspec horder] at hpath
      rcases path_bind.mp hpath with ⟨e, he, -⟩ | ⟨t₁, t₂, u, rfl, -, hreport⟩
      · cases he
      · obtain ⟨now, t', -, -, -, hp⟩ := path_ask_bind.mp hreport
        exact ⟨now, Except.ok.inj hp⟩
    | true =>
      rw [resumption_started hjs hspec horder (hreports horder)] at hpath
      obtain ⟨now, t', -, -, -, hp⟩ := path_ask_bind.mp hpath
      exact ⟨now, Except.ok.inj hp⟩
  · intro hreports
    unfold ReportsResumed at hreports
    push Not at hreports
    obtain ⟨horder, hall⟩ := hreports
    obtain ⟨rjob, hprog⟩ := resumption_inProgress hjs hspec horder hall
    rw [hprog] at hpath
    rcases path_bind.mp hpath with ⟨e, he, -⟩ | ⟨t₁, t₂, u, rfl, -, hreport⟩
    · cases he
    · obtain ⟨now, t', -, -, -, hp⟩ := path_ask_bind.mp hreport
      exact ⟨now, Except.ok.inj hp⟩

end Resumption

/-- The active Jobs of a ReplicatedJob that counts as started are all counted as ready. -/
theorem jobReady_of_countsAsStarted {gates : FeatureGates} {js : JobSet} {owned : ChildJobs}
    (hnames : js.jobNames.Nodup)
    (hjobs : ChildrenOk js (owned.active ++ owned.successful ++ owned.failed))
    {rjob : ReplicatedJob} (hrjob : rjob ∈ js.spec.replicatedJobs)
    (hstarted : countsAsStarted gates js owned rjob = true) {job : Job}
    (hjob : job ∈ activeJobsOf owned.active rjob) : jobReady job = true := by
  let active := ofReplicatedJob rjob.name owned.active
  let succeeded := ofReplicatedJob rjob.name owned.successful
  let failed := ofReplicatedJob rjob.name owned.failed
  have hcount : rjob.replicas =
      failed.length + (active.filter jobReady).length + succeeded.length :=
    of_decide_eq_true hstarted
  obtain ⟨hmem, hlabel⟩ := List.mem_filter.mp hjob
  simp only [decide_eq_true_eq] at hlabel
  have hname : rjob.name ≠ "" := by
    -- the Jobs of a ReplicatedJob without a name are not counted
    intro hempty
    have hnone : ∀ l : List Job, ofReplicatedJob rjob.name l = [] := by
      intro l
      simp [ofReplicatedJob, hempty]
    simp only [active, succeeded, failed, hnone] at hcount
    obtain ⟨other, hother, i, hi, hof, -⟩ := hjobs.indexed job (by simp [hmem])
    unfold StrMap.get at hlabel
    rw [hof, Option.getD_some] at hlabel
    rw [eq_of_key hnames hother hrjob hlabel] at hi
    simp at hcount
    omega
  have hactive : job ∈ active := by
    simp [active, ofReplicatedJob, hmem, hname, hlabel]
  have hle : (active ++ succeeded ++ failed).length ≤ rjob.replicas := by
    apply hjobs.length_le hnames hrjob
    · exact ((List.filter_sublist.append List.filter_sublist).append List.filter_sublist).subperm
    · intro j hj
      simp only [List.mem_append] at hj
      rcases hj with (hj | hj) | hj
      · exact ofReplicatedJob_label hj
      · exact ofReplicatedJob_label hj
      · exact ofReplicatedJob_label hj
  by_contra hnot
  have hlt : (active.filter jobReady).length < active.length :=
    List.length_filter_lt_length_iff_exists.mpr ⟨job, hactive, hnot⟩
  simp only [List.length_append] at hle
  omega

/-- When a resumption is complete. A call that succeeds sets the Suspended condition to False
unless the startup order makes it return early. The active Jobs with reached dependencies are
then all unsuspended, if and only if the order does not skip a suspended Job because its
ReplicatedJob counts as started. Such a Job counts as ready itself. -/
theorem resumption_complete_iff {env : Env} {js : JobSet} {owned : ChildJobs} {p : Pass}
    (hjs : DependsOnOk js) (hspec : p.js.spec = js.spec) :
    (∀ t p', Path (fun _ _ => True) (resumption env js owned p) t (.ok p') →
      (ReportsResumed env js owned → ∃ now, p' = setJobSetResumedCondition now p) ∧
      (¬ ReportsResumed env js owned →
        ∃ now, p' = setInOrderStartupPolicyInProgressCondition now p)) ∧
    (ResumeComplete env js owned p ↔ ¬ SkipsSuspended env js owned) ∧
    (ChildrenOk js (owned.active ++ owned.successful ++ owned.failed) →
      ∀ rjob ∈ js.spec.replicatedJobs, countsAsStarted env.gates js owned rjob = true →
        ∀ job ∈ activeJobsOf owned.active rjob, jobReady job = true) := by
  refine ⟨fun t p' hpath => resumption_condition hjs hspec hpath, resumeComplete_iff hjs hspec, ?_⟩
  intro hjobs rjob hrjob hstarted job hjob
  exact jobReady_of_countsAsStarted hjs.names hjobs hrjob hstarted hjob

theorem dependsOnOk_of_none {js : JobSet} (hnames : js.jobNames.Nodup)
    (h : ∀ rjob ∈ js.spec.replicatedJobs, rjob.dependsOn = none) : DependsOnOk js := by
  refine ⟨hnames, fun before rjob after hsplit dep hdep => ?_⟩
  rw [h rjob (by simp [hsplit])] at hdep
  simp at hdep

/-- A JobSet of one ReplicatedJob that is no longer suspended, as its condition still says. -/
def resumedSet (order : Option StartupPolicy) : JobSet :=
  let js := plainSet [.single "a" 1] 0 .recreate
  { js with
    spec := { js.spec with startupPolicy := order }
    status := { js.status with
      conditions := [⟨.jobSetSuspended, .conditionTrue, "SuspendedJobs", "", 0⟩] } }

theorem dependsOnOk_resumedSet (order : Option StartupPolicy) : DependsOnOk (resumedSet order) := by
  apply dependsOnOk_of_none
  · change (["a"] : List String).Nodup
    simp
  · intro rjob hrjob
    rw [List.mem_singleton.mp hrjob]
    rfl

/-- Without the startup order the Job is resumed. -/
theorem resumption_complete_anyOrder :
    ResumeComplete (plainEnv restartJobGates) (resumedSet none) ⟨[partlySucceeded], [], [], []⟩
      (.start (resumedSet none)) := by
  apply (resumption_complete_iff (dependsOnOk_resumedSet none) rfl).2.1.mpr
  rintro ⟨horder, -⟩
  cases horder

/-- With the startup order the condition turns to False and the Job stays suspended. -/
theorem resumption_incomplete_inOrder :
    let js := resumedSet (some ⟨.inOrder⟩)
    let owned : ChildJobs := ⟨[partlySucceeded], [], [], []⟩
    getChildJobs restartJobGates js [partlySucceeded] = .ok owned ∧ jobSetSuspended js = false ∧
    isStatusConditionTrue js.status.conditions .jobSetSuspended = true ∧
    ReportsResumed (plainEnv restartJobGates) js owned ∧
    (∀ now, isStatusConditionTrue (setJobSetResumedCondition now (.start js)).js.status.conditions
      .jobSetSuspended = false) ∧
    ¬ ResumeComplete (plainEnv restartJobGates) js owned (.start js) := by
  intro js owned
  have hall : AllStarted (plainEnv restartJobGates) js owned := by
    intro rjob hrjob
    unfold reachedByCounts reachedJobs at hrjob
    have hmem := List.mem_of_mem_filter hrjob
    obtain rfl : rjob = .single "a" 1 := List.mem_singleton.mp hmem
    decide +kernel
  have hsorted : getChildJobs restartJobGates js [partlySucceeded] = .ok owned := by
    have hclass : classifyJob restartJobGates js partlySucceeded = .ok .active := by
      decide +kernel
    unfold getChildJobs
    rw [hclass]
    rfl
  refine ⟨hsorted, rfl, rfl, fun _ => hall, fun now => rfl, ?_⟩
  rw [resumeComplete_iff (dependsOnOk_resumedSet _) rfl]
  apply not_not_intro
  refine ⟨rfl, hall, .single "a" 1, ?_, partlySucceeded, ?_, rfl⟩
  · exact List.mem_filter.mpr ⟨List.mem_cons_self, rfl⟩
  · apply List.mem_filter.mpr
    exact ⟨List.mem_cons_self, by decide +kernel⟩

end JobSetOperator
