import JobSetOperator.Convergence.Effects

/-!
# Whose turn it is

The loop that creates Jobs and the loop that resumes them go through the
ReplicatedJobs in the same way: both skip those that wait for a dependency, and with
the InOrder policy both stop at the first one that has not started. `turns` says
which ReplicatedJobs they handle and whether they reach the end, so both loops ask
for the same startup condition.
-/
namespace JobSetOperator.Convergence

open Library Library.Program

/-! ## The order of the loops -/

/-- All replicas of the ReplicatedJob have started. -/
def started (statuses : List ReplicatedJobStatus) (rjob : ReplicatedJob) : Bool :=
  (findReplicatedJobStatus statuses rjob.name).any (allReplicasStarted rjob.replicas)

/-- The ReplicatedJobs a loop handles, and whether it reaches the end. -/
def turns (statuses : List ReplicatedJobStatus) (inOrder : Bool) :
    List ReplicatedJob → (String → ℕ) → List ReplicatedJob × Bool
  | [], _ => ([], true)
  | rjob :: rest, rJobsReplicas =>
    let rJobsReplicas := addReplicas rJobsReplicas rjob
    if !dependencyReachedStatus rjob rJobsReplicas statuses then
      turns statuses inOrder rest rJobsReplicas
    else if inOrder then
      if started statuses rjob then turns statuses inOrder rest rJobsReplicas else ([rjob], false)
    else
      let r := turns statuses inOrder rest rJobsReplicas
      (rjob :: r.1, r.2)

theorem turns_sublist (statuses : List ReplicatedJobStatus) (inOrder : Bool)
    (rjobs : List ReplicatedJob) (rJobsReplicas : String → ℕ) :
    (turns statuses inOrder rjobs rJobsReplicas).1.Sublist rjobs := by
  induction rjobs generalizing rJobsReplicas with
  | nil => exact List.Sublist.refl _
  | cons rjob rest ih =>
    unfold turns
    dsimp only
    split_ifs
    · exact (ih _).cons rjob
    · exact (ih _).cons rjob
    · exact List.Sublist.cons_cons rjob (List.nil_sublist rest)
    · exact (ih _).cons_cons rjob

/-- Without an order and without dependencies it is everybody's turn. -/
theorem turns_anyOrder (statuses : List ReplicatedJobStatus) {rjobs : List ReplicatedJob}
    (h : ∀ rjob ∈ rjobs, rjob.dependsOn.getD [] = []) (rJobsReplicas : String → ℕ) :
    turns statuses false rjobs rJobsReplicas = (rjobs, true) := by
  induction rjobs generalizing rJobsReplicas with
  | nil => rfl
  | cons rjob rest ih =>
    obtain ⟨hfirst, hrest⟩ := List.forall_mem_cons.mp h
    have hreached : dependencyReachedStatus rjob (addReplicas rJobsReplicas rjob) statuses = true := by
      simp [dependencyReachedStatus, hfirst]
    unfold turns
    simp [hreached, ih hrest]

/-- The statuses list every ReplicatedJob. -/
def Listed (statuses : List ReplicatedJobStatus) (rjobs : List ReplicatedJob) : Prop :=
  ∀ rjob ∈ rjobs, ∃ status, findReplicatedJobStatus statuses rjob.name = some status

theorem replicasStarted_eq {statuses : List ReplicatedJobStatus} {rjob : ReplicatedJob}
    (h : ∃ status, findReplicatedJobStatus statuses rjob.name = some status) :
    replicasStarted statuses rjob = .ok (started statuses rjob) := by
  obtain ⟨status, hstatus⟩ := h
  simp [replicasStarted, started, hstatus]

/-! ## Requests for conditions -/

def restartingFalseRequest (reason message : String) : ConditionOpts :=
  conditionOpts eventTypeNormal .jobSetRestarting .conditionFalse reason message

def suspendedRequest : ConditionOpts :=
  conditionOpts eventTypeNormal .jobSetSuspended .conditionTrue "SuspendedJobs"
    "jobset is suspended"

def resumedRequest : ConditionOpts :=
  conditionOpts eventTypeNormal .jobSetSuspended .conditionFalse "ResumeJobs" "jobset is resumed"

def inProgressRequest : ConditionOpts :=
  conditionOpts eventTypeNormal .jobSetStartupPolicyInProgress .conditionTrue
    "InOrderStartupPolicyInProgress" "in order startup policy is in progress"

def completedRequest : ConditionOpts :=
  conditionOpts eventTypeNormal .jobSetStartupPolicyCompleted .conditionTrue
    "InOrderStartupPolicyCompleted" "in order startup policy has completed"

/-- What `clearRestarting` asks for. -/
def readyRequests (js : JobSet) (statuses : List ReplicatedJobStatus) : List ConditionOpts :=
  if !jobSetSuspended js ∧ allJobsReady js statuses then
    [restartingFalseRequest "JobsReady" "all jobs are ready"]
  else []

/-- What the loop that creates Jobs asks for. -/
def startupRequests (js : JobSet) (completed : Bool) : List ConditionOpts :=
  if waitsInOrder js then [if completed then completedRequest else inProgressRequest] else []

/-- What the loop that resumes Jobs asks for. -/
def resumeRequest (completed : Bool) : ConditionOpts :=
  if completed then resumedRequest else inProgressRequest

/-- What suspending or resuming asks for. -/
def suspendRequests (js : JobSet) (completed : Bool) : List ConditionOpts :=
  if jobSetSuspended js then
    [suspendedRequest, restartingFalseRequest "JobSetSuspended" "jobset is suspended"]
  else [resumeRequest completed]

/-- The requests of one pass do not compete. -/
theorem requests_compatible (js : JobSet) (statuses : List ReplicatedJobStatus) (completed : Bool) :
    (readyRequests js statuses ++ startupRequests js completed ++
      suspendRequests js completed).Pairwise Compatible := by
  unfold readyRequests startupRequests suspendRequests waitsInOrder
  cases jobSetSuspended js <;> cases allJobsReady js statuses <;>
    cases inOrderStartupPolicy js.spec.startupPolicy <;> cases completed <;>
    simp [Compatible, restartingFalseRequest, suspendedRequest, resumeRequest, resumedRequest,
      inProgressRequest, completedRequest, conditionOpts, exclusiveConditions]

theorem requests_nonterminal (js : JobSet) (statuses : List ReplicatedJobStatus) (completed : Bool)
    {t : JobSetConditionType} (ht : t.terminal) :
    ∀ o ∈ readyRequests js statuses ++ startupRequests js completed ++ suspendRequests js completed,
      o.condition.type ≠ t := by
  unfold readyRequests startupRequests suspendRequests resumeRequest
  rcases ht with rfl | rfl <;> split_ifs <;>
    simp [restartingFalseRequest, suspendedRequest, resumedRequest, inProgressRequest,
      completedRequest, conditionOpts]

/-! ## Creating the missing Jobs -/

section Create

variable {env : Env} {js : JobSet} (hgate : env.gates.restartJob = false)
  (hnames : js.jobNames.Nodup) (owned : ChildJobs) {statuses : List ReplicatedJobStatus}

include hgate hnames

theorem constructJobsFromTemplate_exists {rjob : ReplicatedJob}
    (hrjob : rjob ∈ js.spec.replicatedJobs) :
    ∃ jobs, constructJobsFromTemplate env.platform env.gates js rjob owned = .ok jobs := by
  unfold constructJobsFromTemplate
  split_ifs
  · exact ⟨[], rfl⟩
  · obtain ⟨jobs, hjobs, -⟩ := constructJobsAt_constructed env.platform hnames
      (fun h => by cases hgate.symm.trans h) owned hrjob (fun i => List.mem_range.mp)
    exact ⟨jobs, hjobs⟩

theorem yields_reconcileReplicatedJobsLoop {p : Pass} (hp : p.js = js)
    {rjobs : List ReplicatedJob} (hsub : ∀ rjob ∈ rjobs, rjob ∈ js.spec.replicatedJobs)
    (hlisted : Listed statuses rjobs) (rJobsReplicas : String → ℕ) (s : Session) :
    Yields serves (fun s' p' => ∃ jobs stored,
      constructJobs env.platform env.gates js owned
        (turns statuses (waitsInOrder js) rjobs rJobsReplicas).1 = .ok jobs ∧
      List.Forall₂ Stores jobs stored ∧ s' = s.create stored ∧
      Asks (startupRequests js (turns statuses (waitsInOrder js) rjobs rJobsReplicas).2) p p') s
      (reconcileReplicatedJobsLoop env owned statuses p rjobs rJobsReplicas) := by
  induction rjobs generalizing rJobsReplicas s with
  | nil =>
    unfold reconcileReplicatedJobsLoop turns startupRequests
    rw [hp, if_pos rfl]
    split_ifs
    · apply ensures_readClock_bind
      intro now
      exact ⟨_, rfl, [], [], rfl, List.Forall₂.nil, (s.create_nil).symm, Asks.single now _ p⟩
    · exact ⟨_, rfl, [], [], rfl, List.Forall₂.nil, (s.create_nil).symm, Asks.nil p⟩
  | cons rjob rest ih =>
    obtain ⟨hrjob, hrest⟩ := List.forall_mem_cons.mp hsub
    obtain ⟨hfirst, hothers⟩ := List.forall_mem_cons.mp hlisted
    obtain ⟨jobs, hjobs⟩ := constructJobsFromTemplate_exists hgate hnames owned hrjob
    unfold reconcileReplicatedJobsLoop turns
    rw [hp, hjobs, replicasStarted_eq hfirst]
    simp only [liftExcept, done_bind]
    split_ifs with hwaits horder hstarted
    · exact ih hrest hothers _ s
    · exact ih hrest hothers _ s
    · apply (yields_createJobs jobs s).bind
      rintro s' ⟨⟩ ⟨stored, hstored, rfl⟩
      apply ensures_readClock_bind
      intro now
      refine ⟨_, rfl, jobs, stored, ?_, hstored, rfl, ?_⟩
      · simp [constructJobs, hjobs, Bind.bind, Except.bind, pure, Except.pure]
      · rw [startupRequests, if_pos horder]
        exact Asks.single now _ p
    · apply (yields_createJobs jobs s).bind
      rintro s' ⟨⟩ ⟨stored, hstored, rfl⟩
      apply (ih hrest hothers _ _).mono
      rintro s'' p' ⟨jobs', stored', hjobs', hstored', rfl, hasks⟩
      refine ⟨jobs ++ jobs', stored ++ stored', ?_, ?_, ?_, hasks⟩
      · simp [constructJobs, hjobs, hjobs', Bind.bind, Except.bind, pure, Except.pure]
      · exact List.rel_append hstored hstored'
      · exact (s.create_append stored stored').symm

end Create

/-! ## Suspending and resuming -/

/-- The Job is as it was, except that a chosen one is suspended or resumed. -/
structure Reworked (suspend : Bool) (names : List String) (job job' : Job) : Prop where
  name : job'.name = job.name
  labels : job'.labels = job.labels
  deletionTimestamp : job'.deletionTimestamp = job.deletionTimestamp
  conditions : job'.status.conditions = job.status.conditions
  chosen (h : job.name ∈ names) : jobSuspended job' = suspend
  other (h : job.name ∉ names) : job' = job

/-- The Jobs of the names are suspended or resumed. -/
structure Session.Reworks (suspend : Bool) (names : List String) (s s' : Session) : Prop where
  site : s'.toSite = { s.toSite with jobs := s'.jobs }
  jobs : List.Forall₂ (Reworked suspend names) s.jobs s'.jobs
  wrote : s'.wrote = (s.wrote || !names.isEmpty)

theorem Reworked.refl (suspend : Bool) (job : Job) : Reworked suspend [] job job :=
  ⟨rfl, rfl, rfl, rfl, by simp, fun _ => rfl⟩

theorem Reworked.trans {suspend : Bool} {names names' : List String} {a b c : Job}
    (h : Reworked suspend names a b) (h' : Reworked suspend names' b c) :
    Reworked suspend (names ++ names') a c where
  name := h'.name.trans h.name
  labels := h'.labels.trans h.labels
  deletionTimestamp := h'.deletionTimestamp.trans h.deletionTimestamp
  conditions := h'.conditions.trans h.conditions
  chosen hmem := by
    by_cases hlater : b.name ∈ names'
    · exact h'.chosen hlater
    · rw [h'.other hlater]
      apply h.chosen
      rw [h.name] at hlater
      exact (List.mem_append.mp hmem).resolve_right hlater
  other hmem := by
    obtain ⟨hfirst, hlater⟩ := not_or.mp (fun hor => hmem (List.mem_append.mpr hor))
    rw [h'.other (by rwa [h.name]), h.other hfirst]

theorem Session.Reworks.refl (suspend : Bool) (s : Session) : s.Reworks suspend [] s :=
  ⟨rfl, List.forall₂_same.mpr fun job _ => Reworked.refl suspend job, by simp⟩

theorem forall₂_trans {α β γ : Type} {R : α → β → Prop} {S : β → γ → Prop} {T : α → γ → Prop}
    (h : ∀ a b c, R a b → S b c → T a c) {as : List α} {bs : List β} {cs : List γ}
    (hR : List.Forall₂ R as bs) (hS : List.Forall₂ S bs cs) :
    List.Forall₂ T as cs := by
  induction hR generalizing cs with
  | nil =>
    cases hS
    exact List.Forall₂.nil
  | cons hfirst _ ih =>
    cases hS with
    | cons hfirst' hrest' => exact List.Forall₂.cons (h _ _ _ hfirst hfirst') (ih hrest')

theorem Session.Reworks.trans {suspend : Bool} {names names' : List String} {a b c : Session}
    (h : a.Reworks suspend names b) (h' : b.Reworks suspend names' c) :
    a.Reworks suspend (names ++ names') c where
  site := by rw [h'.site, h.site]
  jobs := forall₂_trans (fun _ _ _ hab hbc => hab.trans hbc) h.jobs h'.jobs
  wrote := by
    rw [h'.wrote, h.wrote]
    cases names <;> simp

/-- The stored Jobs of the name are versions of the Job. -/
def Agrees (jobs : List Job) (job : Job) : Prop :=
  ∀ stored ∈ jobs, stored.name = job.name →
    stored.labels = job.labels ∧ stored.status.conditions = job.status.conditions

theorem Session.Reworks.agrees {suspend : Bool} {names : List String} {s s' : Session}
    (h : s.Reworks suspend names s') {job : Job} (ha : Agrees s.jobs job) : Agrees s'.jobs job := by
  intro stored' hstored' hname
  obtain ⟨i, hi, rfl⟩ := List.getElem_of_mem hstored'
  have hi' : i < s.jobs.length := h.jobs.length_eq ▸ hi
  have hr : Reworked suspend names s.jobs[i] s'.jobs[i] := h.jobs.get hi' hi
  obtain ⟨hlabels, hconditions⟩ := ha s.jobs[i] (List.getElem_mem hi') (hr.name.symm.trans hname)
  exact ⟨hr.labels.trans hlabels, hr.conditions.trans hconditions⟩

/-- An update of one Job. -/
theorem reworks_modifyNamed {s : Session} {job : Job} {suspend : Bool} {f : Job → Job}
    (h : ∀ stored ∈ s.jobs, stored.name = job.name → Reworked suspend [job.name] stored (f stored)) :
    s.Reworks suspend [job.name] { s with jobs := modifyNamed job.name f s.jobs, wrote := true } where
  site := rfl
  jobs := by
    apply List.forall₂_map_right_iff.mpr
    apply List.forall₂_same.mpr
    intro stored hstored
    split_ifs with hname
    · exact h stored hstored hname
    · exact ⟨rfl, rfl, rfl, rfl, fun hmem => absurd (List.mem_singleton.mp hmem) hname, fun _ => rfl⟩
  wrote := by simp

/-- The Jobs that are not in the wanted state. -/
def toSuspend (active : List Job) : List Job := active.filter fun job => !jobSuspended job

theorem yields_suspendJobsLoop (active : List Job) (s : Session)
    (ha : ∀ job ∈ active, Agrees s.jobs job) :
    Yields serves (fun s' _ => s.Reworks true ((toSuspend active).map (·.name)) s') s
      (suspendJobsLoop active) := by
  induction active generalizing s with
  | nil => exact yields_done (Session.Reworks.refl true s)
  | cons job rest ih =>
    obtain ⟨hfirst, hrest⟩ := List.forall_mem_cons.mp ha
    unfold suspendJobsLoop
    split_ifs with hsuspended
    · have hskip : toSuspend (job :: rest) = toSuspend rest := by simp [toSuspend, hsuspended]
      rw [hskip]
      exact ih s hrest
    · have hlist : toSuspend (job :: rest) = job :: toSuspend rest := by
        simp [toSuspend, hsuspended]
      apply ensures_updateJob_bind
      have hone := @reworks_modifyNamed s job true (fun old => { old with
        labels := job.labels
        annotations := job.annotations
        spec := { job.spec with suspend := some true } }) fun stored hstored hname =>
          ⟨rfl, (hfirst stored hstored hname).1.symm, rfl, rfl, fun _ => rfl,
            fun hmem => absurd (List.mem_singleton.mpr hname) hmem⟩
      apply (ih _ fun j hj => hone.agrees (hrest j hj)).mono
      intro s' _ hreworks
      rw [hlist]
      exact hone.trans hreworks

theorem modifyNamed_modifyNamed {name : String} {f g : Job → Job} (hf : ∀ job, (f job).name = job.name)
    (jobs : List Job) :
    modifyNamed name g (modifyNamed name f jobs) = modifyNamed name (fun job => g (f job)) jobs := by
  unfold modifyNamed
  rw [List.map_map]
  apply List.map_congr_left
  intro job _
  by_cases h : job.name = name
  · simp [h, hf]
  · simp [h]

theorem resumedJob_keeps (gates : FeatureGates) (js : JobSet) (job : Job) :
    (resumedJob gates js job).name = job.name ∧ (resumedJob gates js job).labels = job.labels ∧
      (resumedJob gates js job).spec.suspend = some false := by
  unfold resumedJob stampAttempt
  dsimp only
  split_ifs <;> exact ⟨rfl, rfl, rfl⟩

/-- The effect of writing a resumed Job, possibly after its status. -/
theorem reworks_resumed {s : Session} {job sent : Job} {status : Job → JobStatus}
    (ha : Agrees s.jobs job) (hlabels : sent.labels = job.labels)
    (hsuspend : sent.spec.suspend = some false)
    (hstatus : ∀ stored ∈ s.jobs, stored.name = job.name →
      (status stored).conditions = stored.status.conditions) :
    s.Reworks false [job.name] { s with
      jobs := modifyNamed job.name (fun old => { old with
        labels := sent.labels, annotations := sent.annotations, spec := sent.spec
        status := status old }) s.jobs
      wrote := true } := by
  apply reworks_modifyNamed
  intro stored hstored hname
  constructor
  · rfl
  · exact hlabels.trans (ha stored hstored hname).1.symm
  · rfl
  · exact hstatus stored hstored hname
  · intro _
    unfold jobSuspended
    rw [hsuspend]
    rfl
  · exact fun hmem => absurd (List.mem_singleton.mpr hname) hmem

theorem yields_resumeJob (env : Env) (js : JobSet) {job : Job} {s : Session}
    (ha : Agrees s.jobs job) :
    Yields serves (fun s' _ => s.Reworks false [job.name] s') s (resumeJob env js job) := by
  unfold resumeJob
  split_ifs with hstarted
  · -- the start time is cleared first; the second write finds the Job under the same name
    apply ensures_updateJobStatus_bind
    intro version
    apply ensures_updateJob_bind
    obtain ⟨hname, hlabels, hsuspend⟩ :=
      resumedJob_keeps env.gates js { job.cleared with resourceVersion := version }
    have hone := @reworks_resumed s job
      (resumedJob env.gates js { job.cleared with resourceVersion := version })
      (fun _ => job.cleared.status) ha hlabels hsuspend fun stored hstored hstoredName =>
        (ha stored hstored hstoredName).2.symm
    refine ⟨(), rfl, ?_⟩
    rw [hname]
    dsimp only [Job.cleared]
    rw [modifyNamed_modifyNamed]
    · exact hone
    · exact fun _ => rfl
  · apply ensures_updateJob_bind
    obtain ⟨hname, hlabels, hsuspend⟩ := resumedJob_keeps env.gates js job
    refine ⟨(), rfl, ?_⟩
    rw [hname]
    exact reworks_resumed ha hlabels hsuspend fun _ _ _ => rfl

/-- The suspended Jobs. -/
def toResume (jobs : List Job) : List Job := jobs.filter jobSuspended

theorem yields_resumeJobsOf (env : Env) (js : JobSet) (jobs : List Job) (s : Session)
    (ha : ∀ job ∈ jobs, Agrees s.jobs job) :
    Yields serves (fun s' _ => s.Reworks false ((toResume jobs).map (·.name)) s') s
      (resumeJobsOf env js jobs) := by
  induction jobs generalizing s with
  | nil => exact yields_done (Session.Reworks.refl false s)
  | cons job rest ih =>
    obtain ⟨hfirst, hrest⟩ := List.forall_mem_cons.mp ha
    unfold resumeJobsOf
    split_ifs with hrunning
    · have hskip : toResume (job :: rest) = toResume rest := by
        simp [toResume, (Bool.not_eq_true' _).mp hrunning]
      rw [hskip]
      exact ih s hrest
    · have hlist : toResume (job :: rest) = job :: toResume rest := by
        simp [toResume, by simpa using hrunning]
      apply (yields_resumeJob env js hfirst).bind
      intro s' _ hone
      apply (ih s' fun j hj => hone.agrees (hrest j hj)).mono
      intro s'' _ hreworks
      rw [hlist]
      exact hone.trans hreworks

/-- The Jobs the resumption loop resumes. -/
def resumedBy (active : List Job) (rjobs : List ReplicatedJob) : List Job :=
  rjobs.flatMap fun rjob => toResume (activeJobsOf active rjob)

theorem yields_resumeJobsLoop (env : Env) {active : List Job} {statuses : List ReplicatedJobStatus}
    {p : Pass} {inOrder : Bool} (horder : inOrderStartupPolicy p.js.spec.startupPolicy = inOrder)
    {rjobs : List ReplicatedJob} (hlisted : Listed statuses rjobs) (rJobsReplicas : String → ℕ)
    (s : Session) (ha : ∀ job ∈ active, Agrees s.jobs job) :
    Yields serves (fun s' p' =>
      s.Reworks false ((resumedBy active (turns statuses inOrder rjobs rJobsReplicas).1).map
        (·.name)) s' ∧
      Asks [resumeRequest (turns statuses inOrder rjobs rJobsReplicas).2] p p') s
      (resumeJobsLoop env active statuses p rjobs rJobsReplicas) := by
  have hof : ∀ {s : Session}, (∀ job ∈ active, Agrees s.jobs job) → ∀ rjob,
      ∀ job ∈ activeJobsOf active rjob, Agrees s.jobs job :=
    fun ha _ job hjob => ha job (List.mem_filter.mp hjob).1
  induction rjobs generalizing rJobsReplicas s with
  | nil =>
    unfold resumeJobsLoop turns
    apply ensures_readClock_bind
    intro now
    exact ⟨_, rfl, Session.Reworks.refl false s, Asks.single now _ p⟩
  | cons rjob rest ih =>
    obtain ⟨hfirst, hothers⟩ := List.forall_mem_cons.mp hlisted
    unfold resumeJobsLoop turns
    rw [horder, replicasStarted_eq hfirst]
    simp only [liftExcept, done_bind]
    split_ifs with hwaits hinOrder hstarted
    · exact ih hothers _ s ha
    · exact ih hothers _ s ha
    · apply (yields_resumeJobsOf env p.js _ s (hof ha rjob)).bind
      intro s' _ hreworks
      apply ensures_readClock_bind
      intro now
      refine ⟨_, rfl, ?_, Asks.single now _ p⟩
      simpa [resumedBy] using hreworks
    · apply (yields_resumeJobsOf env p.js _ s (hof ha rjob)).bind
      intro s' _ hone
      apply (ih hothers _ s' fun job hjob => hone.agrees (ha job hjob)).mono
      rintro s'' p' ⟨hreworks, hasks⟩
      refine ⟨?_, hasks⟩
      simpa [resumedBy] using hone.trans hreworks

/-- The Jobs whose suspension a running pass changes. -/
def reworkedJobs (js : JobSet) (active : List Job) (rjobs : List ReplicatedJob) : List Job :=
  if jobSetSuspended js then toSuspend active else resumedBy active rjobs

theorem yields_suspendOrResume (env : Env) {active : List Job}
    {statuses : List ReplicatedJobStatus} {p : Pass}
    (hlisted : Listed statuses p.js.spec.replicatedJobs) (s : Session)
    (ha : ∀ job ∈ active, Agrees s.jobs job) :
    Yields serves (fun s' p' =>
      let turn := turns statuses (waitsInOrder p.js) p.js.spec.replicatedJobs fun _ => 0
      s.Reworks (jobSetSuspended p.js) ((reworkedJobs p.js active turn.1).map (·.name)) s' ∧
      Asks (suspendRequests p.js turn.2) p p') s
      (suspendOrResume env active statuses p) := by
  unfold suspendOrResume reworkedJobs suspendRequests
  cases hsuspended : jobSetSuspended p.js with
  | true =>
    simp only [if_true]
    unfold suspendJobs
    apply (yields_suspendJobsLoop active s ha).bind
    intro s' _ hreworks
    apply ensures_readClock_bind
    intro now
    exact ⟨_, rfl, hreworks, .cons now (.cons now (.nil _))⟩
  | false =>
    have hwaits : waitsInOrder p.js = inOrderStartupPolicy p.js.spec.startupPolicy := by
      simp [waitsInOrder, hsuspended]
    rw [hwaits]
    exact yields_resumeJobsLoop env rfl hlisted _ s ha

/-! ## The status -/

/-- The status is written if the pass asks for it. -/
def Session.record (s : Session) (p : Pass) : Session :=
  if p.opts.shouldUpdate then
    { s with js := { s.js with status := p.js.status }, wrote := true }
  else s

theorem yields_countMetrics (metrics : List Metric) (s : Session) :
    Yields serves (fun s' _ => s' = s) s (countMetrics metrics) := by
  induction metrics with
  | nil => exact yields_done rfl
  | cons metric rest ih =>
    apply ensures_send_bind
    rintro ⟨⟩ s' rfl
    exact ih

theorem yields_emitEvents (events : List EventParams) (s : Session) :
    Yields serves (fun s' _ => s' = s) s (emitEvents events) := by
  induction events with
  | nil => exact yields_done rfl
  | cons event rest ih =>
    apply ensures_recordEvent_bind
    exact ih

theorem yields_updateJobSetStatus (p : Pass) (s : Session) :
    Yields serves (fun s' _ => s' = s.record p) s (updateJobSetStatus p) := by
  unfold updateJobSetStatus Session.record
  apply (yields_countMetrics p.metrics s).bind
  rintro s' ⟨⟩ rfl
  split_ifs
  · apply ensures_send_bind
    rintro (err | ⟨⟩) s'' hs
    · exact hs.elim
    · cases hs
      exact yields_emitEvents p.opts.events _
  · exact yields_done rfl

end JobSetOperator.Convergence
