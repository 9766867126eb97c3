import JobSetOperator.Controller.Traversal

/-!
# What a status write changes

Most steps of a reconcile touch neither the terminal conditions nor the restart
counters. `Harmless` collects what they keep; the others end the JobSet
(`Ends`), restart it (`RestartsAll`) or restart one of its Jobs (`RestartsJob`).
`Writes.cases` reduces every status write to these.
-/
namespace JobSetOperator

open Library

/-- The step changes nothing of the JobSet but its status, and there neither the
terminal conditions nor the terminal state. -/
structure KeepsTerminal (a b : JobSet) : Prop where
  frame : b = { a with status := b.status }
  terminal : ∀ t : JobSetConditionType, t.terminal →
    (CondTrue b.status.conditions t ↔ CondTrue a.status.conditions t)
  terminalState : b.status.terminalState = a.status.terminalState

/-- The step keeps the restart counters, too. -/
structure Harmless (a b : JobSet) : Prop extends KeepsTerminal a b where
  restarts : b.status.restarts = a.status.restarts
  counted : b.status.restartsCountTowardsMax = a.status.restartsCountTowardsMax
  statuses : b.status.replicatedJobsStatus = a.status.replicatedJobsStatus

/-- The step sets the terminal condition `t`. -/
structure Ends (t : JobSetConditionType) (a b : JobSet) : Prop where
  frame : b = { a with status := b.status }
  isTerminal : t.terminal
  isTrue : CondTrue b.status.conditions t
  others : ∀ t' : JobSetConditionType, t'.terminal → t' ≠ t →
    (CondTrue b.status.conditions t' ↔ CondTrue a.status.conditions t')
  terminalState : b.status.terminalState = some t
  restarts : b.status.restarts = a.status.restarts
  counted : b.status.restartsCountTowardsMax = a.status.restartsCountTowardsMax
  statuses : b.status.replicatedJobsStatus = a.status.replicatedJobsStatus

theorem frame_trans {a b c : JobSet} (h₁ : b = { a with status := b.status })
    (h₂ : c = { b with status := c.status }) : c = { a with status := c.status } := by
  rw [h₂, h₁]

theorem KeepsTerminal.trans {a b c : JobSet} (h₁ : KeepsTerminal a b) (h₂ : KeepsTerminal b c) :
    KeepsTerminal a c :=
  ⟨frame_trans h₁.frame h₂.frame, fun t ht => (h₂.terminal t ht).trans (h₁.terminal t ht),
    h₂.terminalState.trans h₁.terminalState⟩

/-- Only other parts of the status change. -/
theorem harmless_of_status {a : JobSet} {status : JobSetStatus}
    (hcond : status.conditions = a.status.conditions)
    (hstate : status.terminalState = a.status.terminalState)
    (hrestarts : status.restarts = a.status.restarts)
    (hcounted : status.restartsCountTowardsMax = a.status.restartsCountTowardsMax)
    (hstatuses : status.replicatedJobsStatus = a.status.replicatedJobsStatus) :
    Harmless a { a with status := status } :=
  ⟨⟨rfl, fun _ _ => by rw [hcond], hstate⟩, hrestarts, hcounted, hstatuses⟩

theorem Harmless.refl (a : JobSet) : Harmless a a := harmless_of_status rfl rfl rfl rfl rfl

theorem Harmless.trans {a b c : JobSet} (h₁ : Harmless a b) (h₂ : Harmless b c) : Harmless a c :=
  ⟨h₁.toKeepsTerminal.trans h₂.toKeepsTerminal, h₂.restarts.trans h₁.restarts,
    h₂.counted.trans h₁.counted, h₂.statuses.trans h₁.statuses⟩

theorem Harmless.ends {t : JobSetConditionType} {a b c : JobSet} (h₁ : Harmless a b)
    (h₂ : Ends t b c) : Ends t a c :=
  ⟨frame_trans h₁.frame h₂.frame, h₂.isTerminal, h₂.isTrue,
    fun t' ht hne => (h₂.others t' ht hne).trans (h₁.terminal t' ht), h₂.terminalState,
    h₂.restarts.trans h₁.restarts, h₂.counted.trans h₁.counted, h₂.statuses.trans h₁.statuses⟩

theorem Ends.harmless {t : JobSetConditionType} {a b c : JobSet} (h₁ : Ends t a b)
    (h₂ : Harmless b c) : Ends t a c :=
  ⟨frame_trans h₁.frame h₂.frame, h₁.isTerminal, (h₂.terminal t h₁.isTerminal).mpr h₁.isTrue,
    fun t' ht hne => (h₂.terminal t' ht).trans (h₁.others t' ht hne),
    h₂.terminalState.trans h₁.terminalState, h₂.restarts.trans h₁.restarts,
    h₂.counted.trans h₁.counted, h₂.statuses.trans h₁.statuses⟩

/-! ## Harmless steps -/

theorem harmless_setCondition (now : Time) (o : ConditionOpts) (p : Pass)
    (ht : ¬ o.condition.type.terminal) : Harmless p.js (setCondition now o p).js := by
  have hcond : ∀ t : JobSetConditionType, t.terminal →
      (CondTrue (setCondition now o p).js.status.conditions t ↔
        CondTrue p.js.status.conditions t) := by
    intro t hterm
    have hne : o.condition.type ≠ t := fun h => ht (h ▸ hterm)
    rw [setCondition_js]
    exact updateCondition_other now _ o hterm hne
  refine ⟨⟨?_, hcond, ?_⟩, ?_, ?_, ?_⟩ <;> rw [setCondition_js]

theorem harmless_setRestartingConditionFalse (now : Time) (reason message : String) (p : Pass) :
    Harmless p.js (setRestartingConditionFalse now reason message p).js :=
  harmless_setCondition _ _ _ (by rintro (h | h) <;> cases h)

theorem harmless_setExecutionAttempts (attempts : ℕ) (p : Pass) :
    Harmless p.js (setExecutionAttempts attempts p).js :=
  harmless_of_status rfl rfl rfl rfl rfl

theorem harmless_setStartTime (startTime : Option Time) (p : Pass) :
    Harmless p.js (setStartTime startTime p).js :=
  harmless_of_status rfl rfl rfl rfl rfl

theorem harmless_resetStartTimeOnGlobalRestart (gates : FeatureGates) (now : Time) (before : ℕ)
    (p : Pass) : Harmless p.js (resetStartTimeOnGlobalRestart gates now before p).js := by
  unfold resetStartTimeOnGlobalRestart
  split_ifs
  · exact Harmless.refl _
  · exact harmless_setStartTime _ _
  · exact Harmless.refl _

theorem entryPass_keepsTerminal (env : Env) (js : JobSet) (owned : ChildJobs) :
    KeepsTerminal js (entryPass env js owned).js := by
  rw [entryPass_js]
  exact ⟨rfl, fun _ _ => Iff.rfl, rfl⟩

theorem ActivePass.harmless {env : Env} {js : JobSet} {owned : ChildJobs} {p : Pass}
    (h : ActivePass env js owned p) : Harmless (entryPass env js owned).js p.js := by
  obtain ⟨now, now', rfl⟩ := h
  have hclear : Harmless (entryPass env js owned).js (clearRestarting
      (calculateReplicatedJobStatuses env.gates js owned) now (entryPass env js owned)).js := by
    unfold clearRestarting
    split_ifs
    · exact harmless_setRestartingConditionFalse _ _ _ _
    · exact Harmless.refl _
  refine hclear.trans ?_
  unfold syncActiveDeadlineStartTime
  split_ifs
  · exact harmless_setStartTime _ _
  · exact Harmless.refl _
  · exact harmless_setStartTime _ _
  · exact Harmless.refl _

theorem AttemptsStep.harmless {env : Env} {owned : ChildJobs} {active : List Job} {p q : Pass}
    {acked : Option JobSet} (h : AttemptsStep env owned active p acked q) :
    Harmless p.js q.js := by
  cases h with
  | keep h => exact Harmless.refl _
  | start h => exact harmless_setExecutionAttempts _ _
  | resume h => exact harmless_setExecutionAttempts _ _

theorem StartupStep.harmless {p p' : Pass} (h : StartupStep p p') : Harmless p.js p'.js := by
  rcases h with rfl | ⟨now, rfl | rfl⟩
  · exact Harmless.refl _
  · exact harmless_setCondition _ _ _ (by rintro (h | h) <;> cases h)
  · exact harmless_setCondition _ _ _ (by rintro (h | h) <;> cases h)

theorem SuspendStep.harmless {js : JobSet} {p p' : Pass} (h : SuspendStep js p p') :
    Harmless p.js p'.js := by
  rcases h with ⟨now, ⟨-, rfl⟩ | ⟨-, rfl | rfl⟩⟩
  · refine Harmless.trans (harmless_setCondition now _ p ?_)
      (harmless_setRestartingConditionFalse _ _ _ _)
    rintro (h | h) <;> cases h
  · exact harmless_setCondition _ _ _ (by rintro (h | h) <;> cases h)
  · exact harmless_setCondition _ _ _ (by rintro (h | h) <;> cases h)

/-! ## Steps that end the JobSet -/

/-- One terminal condition, the restarting condition and the terminal state. -/
theorem ends_of_setCondition (now : Time) (o : ConditionOpts) (reason message : String) (p : Pass)
    (ht : o.condition.type.terminal) (hs : o.condition.status = .conditionTrue) {b : JobSet}
    (hb : b = { (setRestartingConditionFalse now reason message (setCondition now o p)).js with
      status := { (setRestartingConditionFalse now reason message (setCondition now o p)).js.status
        with terminalState := some o.condition.type } }) :
    Ends o.condition.type p.js b := by
  have hset : (setCondition now o p).js.status.conditions =
      (updateCondition now p.js.status.conditions o).1 := by rw [setCondition_js]
  have hrestart := harmless_setRestartingConditionFalse now reason message (setCondition now o p)
  have hframe : (setCondition now o p).js =
      { p.js with status := (setCondition now o p).js.status } := by rw [setCondition_js]
  subst hb
  refine ⟨frame_trans hframe hrestart.frame ▸ rfl, ht, ?_, fun t' ht' hne => ?_, rfl, ?_, ?_, ?_⟩
  · refine (hrestart.terminal _ ht).mpr ?_
    rw [hset]
    exact updateCondition_true now _ o hs
  · refine (hrestart.terminal t' ht').trans ?_
    rw [hset]
    exact updateCondition_other now _ o ht' (Ne.symm hne)
  · exact hrestart.restarts.trans (by rw [setCondition_js])
  · exact hrestart.counted.trans (by rw [setCondition_js])
  · exact hrestart.statuses.trans (by rw [setCondition_js])

theorem ends_setJobSetCompletedCondition (now : Time) (p : Pass) :
    Ends .jobSetCompleted p.js (setJobSetCompletedCondition now p).js :=
  ends_of_setCondition now (conditionOpts eventTypeNormal .jobSetCompleted .conditionTrue
    "AllJobsCompleted" "jobset completed successfully") "JobSetCompleted"
    "jobset completed successfully" p (Or.inl rfl) rfl rfl

theorem ends_setJobSetFailedCondition (now : Time) (reason msg : String) (p : Pass) :
    Ends .jobSetFailed p.js (setJobSetFailedCondition now reason msg p).js :=
  ends_of_setCondition now (conditionOpts eventTypeWarning .jobSetFailed .conditionTrue reason msg)
    "JobSetFailed" "jobset failed" p (Or.inr rfl) rfl rfl

theorem InPlaceStep.cases {p p' : Pass} (h : InPlaceStep p p') :
    Harmless p.js p'.js ∨ Ends .jobSetFailed p.js p'.js := by
  rcases h with rfl | ⟨now, pods, h⟩
  · exact Or.inl (Harmless.refl _)
  · rcases reconcileInPlaceRestart_effect h with rfl | rfl | ⟨previous, current, rfl⟩
    · exact Or.inr (ends_setJobSetFailedCondition _ _ _ _)
    · exact Or.inl (Harmless.refl _)
    · exact Or.inl (harmless_of_status rfl rfl rfl rfl rfl)

theorem ends_failOnActiveDeadline (now : Time) (p : Pass) :
    Ends .jobSetFailed p.js (failOnActiveDeadline now p).js :=
  ends_setJobSetFailedCondition now _ _ p

/-! ## Restarts -/

/-- The whole JobSet is restarted, caused by `job`. A restart that counts is
within the budget. -/
structure RestartsAll (env : Env) (owned : ChildJobs) (job : Job) (a b : JobSet) : Prop
    extends KeepsTerminal a b where
  cause : failureCause env.platform a owned.failed = some job
  restarts : b.status.restarts = a.status.restarts + 1
  counted : b.status.restartsCountTowardsMax = a.status.restartsCountTowardsMax ∨
    (b.status.restartsCountTowardsMax = a.status.restartsCountTowardsMax + 1 ∧
      ∃ fp, a.spec.failurePolicy = some fp ∧
        (env.gates.restartJob = true → (totalRestartsCountTowardsMax a : ℤ) < fp.maxRestarts))
  statuses : b.status.replicatedJobsStatus = a.status.replicatedJobsStatus

/-- One Job is restarted, caused by `job`: the entry of its index is raised in the
list of restarts and, within the budget, in the list of those that count. -/
structure RestartsJob (env : Env) (owned : ChildJobs) (job : Job) (a b : JobSet) : Prop
    extends KeepsTerminal a b where
  gate : env.gates.restartJob = true
  cause : failureCause env.platform a owned.failed = some job
  restarts : b.status.restarts = a.status.restarts
  counted : b.status.restartsCountTowardsMax = a.status.restartsCountTowardsMax
  raised : ∃ (name : String) (index : ℕ), job.labels.lookup replicatedJobNameKey = some name ∧
    (job.labels.lookup jobIndexKey).bind parseInt = some (index : ℤ) ∧
    ∃ total counts : List ℕ, index < (getJobRestarts a name).length ∧
      total = (getJobRestarts a name).modify index (· + 1) ∧
      (b.status.replicatedJobsStatus = updateStatusOf name
          (fun rjs => { rjs with jobRestarts := total }) a.status.replicatedJobsStatus ∨
        ∃ fp, a.spec.failurePolicy = some fp ∧
          (totalRestartsCountTowardsMax a : ℤ) < fp.maxRestarts ∧
          index < (getJobRestartsCountTowardsMax a name).length ∧
          counts = (getJobRestartsCountTowardsMax a name).modify index (· + 1) ∧
          b.status.replicatedJobsStatus = updateStatusOf name
            (fun rjs => { rjs with jobRestarts := total, jobRestartsCountTowardsMax := counts })
            a.status.replicatedJobsStatus)

theorem Harmless.spec {a b : JobSet} (h : Harmless a b) : b.spec = a.spec := by
  rw [h.frame]

theorem Harmless.failureCause {a b : JobSet} (h : Harmless a b) (platform : Platform)
    (failed : List Job) : failureCause platform b failed = failureCause platform a failed := by
  unfold JobSetOperator.failureCause
  rw [h.spec]

theorem Harmless.total {a b : JobSet} (h : Harmless a b) :
    totalRestartsCountTowardsMax b = totalRestartsCountTowardsMax a := by
  unfold totalRestartsCountTowardsMax sumJobRestartsCountTowardsMax
  rw [h.counted, h.statuses]

theorem Harmless.getJobRestarts {a b : JobSet} (h : Harmless a b) (name : String) :
    getJobRestarts b name = getJobRestarts a name := by
  unfold JobSetOperator.getJobRestarts getReplicatedJobReplicas
  rw [h.statuses, h.spec]

theorem Harmless.getJobRestartsCountTowardsMax {a b : JobSet} (h : Harmless a b) (name : String) :
    getJobRestartsCountTowardsMax b name = getJobRestartsCountTowardsMax a name := by
  unfold JobSetOperator.getJobRestartsCountTowardsMax getReplicatedJobReplicas
  rw [h.statuses, h.spec]

theorem Harmless.restartsAll {env : Env} {owned : ChildJobs} {job : Job} {a b c : JobSet}
    (h₁ : Harmless a b) (h₂ : RestartsAll env owned job b c) : RestartsAll env owned job a c := by
  refine ⟨h₁.toKeepsTerminal.trans h₂.toKeepsTerminal, (h₁.failureCause _ _).symm.trans h₂.cause,
    h₁.restarts ▸ h₂.restarts, ?_, h₂.statuses.trans h₁.statuses⟩
  have hcounted := h₂.counted
  rw [h₁.counted, h₁.spec, h₁.total] at hcounted
  exact hcounted

theorem RestartsAll.harmless {env : Env} {owned : ChildJobs} {job : Job} {a b c : JobSet}
    (h₁ : RestartsAll env owned job a b) (h₂ : Harmless b c) : RestartsAll env owned job a c := by
  refine ⟨h₁.toKeepsTerminal.trans h₂.toKeepsTerminal, h₁.cause, h₂.restarts.trans h₁.restarts,
    ?_, h₂.statuses.trans h₁.statuses⟩
  rw [h₂.counted]
  exact h₁.counted

theorem Harmless.restartsJob {env : Env} {owned : ChildJobs} {job : Job} {a b c : JobSet}
    (h₁ : Harmless a b) (h₂ : RestartsJob env owned job b c) : RestartsJob env owned job a c := by
  have hraised := h₂.raised
  simp only [h₁.getJobRestarts, h₁.getJobRestartsCountTowardsMax, h₁.spec, h₁.total,
    h₁.statuses] at hraised
  exact ⟨h₁.toKeepsTerminal.trans h₂.toKeepsTerminal, h₂.gate,
    (h₁.failureCause _ _).symm.trans h₂.cause, h₂.restarts.trans h₁.restarts,
    h₂.counted.trans h₁.counted, hraised⟩

theorem RestartsJob.harmless {env : Env} {owned : ChildJobs} {job : Job} {a b c : JobSet}
    (h₁ : RestartsJob env owned job a b) (h₂ : Harmless b c) : RestartsJob env owned job a c := by
  have hraised := h₁.raised
  rw [← h₂.statuses] at hraised
  exact ⟨h₁.toKeepsTerminal.trans h₂.toKeepsTerminal, h₁.gate, h₁.cause,
    h₂.restarts.trans h₁.restarts, h₂.counted.trans h₁.counted, hraised⟩

/-! ## The failure policy -/

theorem restartsAll_failurePolicyRecreateAll {env : Env} {owned : ChildJobs} {job : Job}
    {fp : FailurePolicy} {now : Time} {count : Bool} {event : EventParams} {o : ConditionOpts}
    {p : Pass} (hfp : p.js.spec.failurePolicy = some fp)
    (hcause : failureCause env.platform p.js owned.failed = some job)
    (ho : o.condition.type = .jobSetRestarting)
    (hbudget : count = true → env.gates.restartJob = true →
      (totalRestartsCountTowardsMax p.js : ℤ) < fp.maxRestarts) :
    RestartsAll env owned job p.js
      (failurePolicyRecreateAll env.gates now count event o p).js := by
  have hcondition : Harmless _ (failurePolicyRecreateAll env.gates now count event o p).js :=
    harmless_setCondition now o
      (p.withStatus (restartedStatus env.gates count p.js.status)).requestUpdate
      (by rw [ho]; rintro (h | h) <;> cases h)
  have hcounters : RestartsAll env owned job p.js
      (p.withStatus (restartedStatus env.gates count p.js.status)).requestUpdate.js := by
    refine ⟨⟨rfl, fun _ _ => Iff.rfl, rfl⟩, hcause, rfl, ?_, rfl⟩
    cases count with
    | false => exact Or.inl rfl
    | true => exact Or.inr ⟨rfl, fp, hfp, hbudget rfl⟩
  exact hcounters.harmless hcondition

theorem incrementAt_ok {list raised : List ℕ} {index : ℤ} (h : incrementAt list index = .ok raised) :
    ∃ i : ℕ, index = i ∧ i < list.length ∧ raised = list.modify i (· + 1) := by
  unfold incrementAt at h
  split_ifs at h with h₁ h₂
  cases h
  exact ⟨index.toNat, by omega, by omega, rfl⟩

theorem updateStatusOf_comp (name : String) (f g : ReplicatedJobStatus → ReplicatedJobStatus)
    (hf : ∀ rjs, (f rjs).name = rjs.name) (l : List ReplicatedJobStatus) :
    updateStatusOf name g (updateStatusOf name f l) = updateStatusOf name (g ∘ f) l := by
  induction l with
  | nil => rfl
  | cons rjs rest ih =>
    by_cases h : rjs.name = name
    · simp [updateStatusOf, h, hf]
    · simp [updateStatusOf, h, ih]

theorem find_updateStatusOf (name : String) (f : ReplicatedJobStatus → ReplicatedJobStatus)
    (hf : ∀ rjs, (f rjs).name = rjs.name) (l : List ReplicatedJobStatus) (name' : String) :
    findReplicatedJobStatus (updateStatusOf name f l) name' =
      (findReplicatedJobStatus l name').map fun rjs => if name' = name then f rjs else rjs := by
  induction l with
  | nil => rfl
  | cons rjs rest ih =>
    unfold findReplicatedJobStatus at ih ⊢
    by_cases h : rjs.name = name
    · by_cases h' : rjs.name = name'
      · subst h
        subst h'
        simp [updateStatusOf, hf]
      · have hne : name' ≠ name := fun he => h' (h.trans he.symm)
        have hne' : ¬ name = name' := fun he => hne he.symm
        simp [updateStatusOf, h, hf, hne, hne']
    · by_cases h' : rjs.name = name'
      · have hne : name' ≠ name := fun he => h (h'.trans he)
        simp [updateStatusOf, h', hne]
      · simp [updateStatusOf, h, h', ih]

theorem restartsJob_failurePolicyRecreateJob {env : Env} {owned : ChildJobs} {job : Job}
    {fp : FailurePolicy} {count : Bool} {event : EventParams} {p p' : Pass}
    (hfp : p.js.spec.failurePolicy = some fp)
    (hcause : failureCause env.platform p.js owned.failed = some job)
    (hgate : env.gates.restartJob = true)
    (hbudget : count = true → (totalRestartsCountTowardsMax p.js : ℤ) < fp.maxRestarts)
    (h : failurePolicyRecreateJob job count event p = .ok p') :
    RestartsJob env owned job p.js p'.js := by
  unfold failurePolicyRecreateJob at h
  obtain ⟨name, hname, h⟩ := except_bind_ok h
  obtain ⟨indexStr, hindexStr, h⟩ := except_bind_ok h
  obtain ⟨index, hindex, h⟩ := except_bind_ok h
  obtain ⟨total, htotal, h⟩ := except_bind_ok h
  obtain ⟨i, rfl, hi, rfl⟩ := incrementAt_ok htotal
  have hlabel : (job.labels.lookup jobIndexKey).bind parseInt = some (i : ℤ) := by
    rw [requireLabel_ok hindexStr]
    exact requireInt_ok hindex
  cases count with
  | false =>
    cases h
    exact ⟨⟨rfl, fun _ _ => Iff.rfl, rfl⟩, hgate, hcause, rfl, rfl, name, i, requireLabel_ok hname,
      hlabel, _, [], hi, rfl, Or.inl rfl⟩
  | true =>
    obtain ⟨counts, hcounts, h⟩ := except_bind_ok h
    -- the first setter has left the counted lists alone
    have hsame : getJobRestartsCountTowardsMax (setJobRestarts name
        ((getJobRestarts p.js name).modify i (· + 1)) p).js name =
        getJobRestartsCountTowardsMax p.js name := by
      unfold getJobRestartsCountTowardsMax setJobRestarts Pass.withStatus
      dsimp only
      rw [find_updateStatusOf]
      · cases findReplicatedJobStatus p.js.status.replicatedJobsStatus name with
        | none => rfl
        | some rjs => simp [getReplicatedJobReplicas]
      · exact fun _ => rfl
    rw [hsame] at hcounts
    obtain ⟨i', hii, hi', rfl⟩ := incrementAt_ok hcounts
    obtain rfl : i = i' := by omega
    cases h
    refine ⟨⟨rfl, fun _ _ => Iff.rfl, rfl⟩, hgate, hcause, rfl, rfl, name, i, requireLabel_ok hname,
      hlabel, _, _, hi, rfl, Or.inr ⟨fp, hfp, hbudget rfl, hi', rfl, ?_⟩⟩
    exact updateStatusOf_comp name
      (fun rjs => { rjs with jobRestarts := (getJobRestarts p.js name).modify i (· + 1) }) _
      (fun _ => rfl) _

/-- A successful run of the failure policy ends the JobSet, restarts it, or
restarts the Job that failed. -/
theorem executeFailurePolicy_effect {env : Env} {owned : ChildJobs} {now : Time} {p p' : Pass}
    (h : executeFailurePolicy env.platform env.gates now owned.failed p = .ok p') :
    Ends .jobSetFailed p.js p'.js ∨ (∃ job, RestartsAll env owned job p.js p'.js) ∨
      ∃ job, RestartsJob env owned job p.js p'.js := by
  rcases executeFailurePolicy_cases h with ⟨reason, msg, -, rfl⟩ |
    ⟨fp, job, count, event, o, hfp, hcause, ho, hbudget, rfl⟩ |
    ⟨fp, job, count, event, hfp, hcause, hgate, hbudget, hp'⟩
  · exact Or.inl (ends_setJobSetFailedCondition _ _ _ _)
  · refine Or.inr (Or.inl ⟨job, ?_⟩)
    exact restartsAll_failurePolicyRecreateAll hfp hcause ho fun hc => (hbudget hc).2
  · refine Or.inr (Or.inr ⟨job, ?_⟩)
    exact restartsJob_failurePolicyRecreateJob hfp hcause hgate hbudget hp'

/-! ## The writes -/

/-- The effects a status write can have on the pass it starts from. -/
inductive Outcomes (env : Env) (js : JobSet) (owned : ChildJobs) (acked : Option JobSet) :
    JobSet → Prop
  | finished (h : jobSetFinished js = true) (first : acked = none) :
    Outcomes env js owned acked (entryPass env js owned).js
  | harmless {b : JobSet} (h : jobSetFinished js = false)
    (effect : Harmless (entryPass env js owned).js b) : Outcomes env js owned acked b
  | ends {t : JobSetConditionType} {b : JobSet} (h : jobSetFinished js = false)
    (effect : Ends t (entryPass env js owned).js b) : Outcomes env js owned acked b
  | restartsAll {job : Job} {b : JobSet} (h : jobSetFinished js = false) (first : acked = none)
    (effect : RestartsAll env owned job (entryPass env js owned).js b) :
    Outcomes env js owned acked b
  | restartsJob {job : Job} {b : JobSet} (h : jobSetFinished js = false) (first : acked = none)
    (effect : RestartsJob env owned job (entryPass env js owned).js b) :
    Outcomes env js owned acked b

theorem Writes.outcome {env : Env} {js js' : JobSet} {jobs : List Job} {s : Seen}
    (h : Writes env js jobs s js') :
    ∃ owned, Live env js jobs owned ∧ Outcomes env js owned s.acked js' := by
  cases h with
  | finished live first h => exact ⟨_, live, .finished h first⟩
  | waiting hu first => exact ⟨_, hu.toLive, .harmless hu.unfinished hu.passed.harmless⟩
  | completed hu first now hs hmet =>
    exact ⟨_, hu.toLive, .ends hu.unfinished
      (hu.passed.harmless.ends (ends_setJobSetCompletedCondition now _))⟩
  | expired hu first now now' harmed hpassed =>
    exact ⟨_, hu.toLive, .ends hu.unfinished
      (hu.passed.harmless.ends (ends_failOnActiveDeadline now' _))⟩
  | failed hu first now now' hne hp =>
    have hreset := harmless_resetStartTimeOnGlobalRestart env.gates now'
    rcases executeFailurePolicy_effect hp with he | ⟨job, he⟩ | ⟨job, he⟩
    · exact ⟨_, hu.toLive, .ends hu.unfinished
        ((hu.passed.harmless.ends he).harmless (hreset _ _))⟩
    · exact ⟨_, hu.toLive, .restartsAll hu.unfinished first
        ((hu.passed.harmless.restartsAll he).harmless (hreset _ _))⟩
    · exact ⟨_, hu.toLive, .restartsJob hu.unfinished first
        ((hu.passed.harmless.restartsJob he).harmless (hreset _ _))⟩
  | attempts hu first hf hscaled hn =>
    refine ⟨_, hu.toLive, .harmless hu.unfinished ?_⟩
    exact hu.passed.harmless.trans (harmless_setExecutionAttempts _ _)
  | running hr hstartup hsuspend hinPlace =>
    have hq := ((hr.passed.harmless.trans hr.attempts.harmless).trans hstartup.harmless).trans
      hsuspend.harmless
    rcases hinPlace.cases with h | h
    · exact ⟨_, hr.toLive, .harmless hr.unfinished (hq.trans h)⟩
    · exact ⟨_, hr.toLive, .ends hr.unfinished (hq.ends h)⟩

/-- A write is the first one of its reconcile, or it follows the one that settles
the execution attempts. -/
theorem Writes.base {env : Env} {js js' : JobSet} {jobs : List Job} {s : Seen}
    (h : Writes env js jobs s js') : s.acked = none ∨
      ∃ owned x, jobSetFinished js = false ∧ s.acked = some x ∧
        Harmless (entryPass env js owned).js x := by
  cases h with
  | finished live first hf => exact Or.inl first
  | waiting hu first => exact Or.inl first
  | completed hu first now hs hmet => exact Or.inl first
  | expired hu first now now' harmed hpassed => exact Or.inl first
  | failed hu first now now' hne hp => exact Or.inl first
  | attempts hu first hf hscaled hn => exact Or.inl first
  | @running owned active p q q₁ q₂ q₃ hr hstartup hsuspend hinPlace =>
    have hstep := hr.attempts
    generalize s.acked = acked at hstep
    cases hstep with
    | keep hn => exact Or.inl rfl
    | start hn => exact Or.inl rfl
    | resume hn =>
      exact Or.inr ⟨owned, _, hr.unfinished, rfl,
        hr.passed.harmless.trans (harmless_setExecutionAttempts _ p)⟩

/-! ## Execution attempts and start times -/

/-- The step keeps the restarts, the execution attempts and the start time. -/
structure Timeless (a b : JobSet) : Prop where
  restarts : b.status.restarts = a.status.restarts
  attempts : b.status.executionAttempts = a.status.executionAttempts
  startTime : b.status.startTime = a.status.startTime

theorem Timeless.refl (a : JobSet) : Timeless a a := ⟨rfl, rfl, rfl⟩

theorem Timeless.trans {a b c : JobSet} (h₁ : Timeless a b) (h₂ : Timeless b c) : Timeless a c :=
  ⟨h₂.restarts.trans h₁.restarts, h₂.attempts.trans h₁.attempts, h₂.startTime.trans h₁.startTime⟩

theorem timeless_setCondition (now : Time) (o : ConditionOpts) (p : Pass) :
    Timeless p.js (setCondition now o p).js := by
  rw [setCondition_js]
  exact ⟨rfl, rfl, rfl⟩

/-- A terminal condition, the restarting condition and the terminal state. -/
theorem timeless_ending (now : Time) (o : ConditionOpts) (reason message : String) (p : Pass) :
    Timeless p.js (setRestartingConditionFalse now reason message (setCondition now o p)).js :=
  (timeless_setCondition now o p).trans (timeless_setCondition now _ _)

theorem timeless_setJobSetCompletedCondition (now : Time) (p : Pass) :
    Timeless p.js (setJobSetCompletedCondition now p).js := by
  have h := timeless_ending now (conditionOpts eventTypeNormal .jobSetCompleted .conditionTrue
    "AllJobsCompleted" "jobset completed successfully") "JobSetCompleted"
    "jobset completed successfully" p
  exact ⟨h.restarts, h.attempts, h.startTime⟩

theorem timeless_setJobSetFailedCondition (now : Time) (reason msg : String) (p : Pass) :
    Timeless p.js (setJobSetFailedCondition now reason msg p).js := by
  have h := timeless_ending now (conditionOpts eventTypeWarning .jobSetFailed .conditionTrue
    reason msg) "JobSetFailed" "jobset failed" p
  exact ⟨h.restarts, h.attempts, h.startTime⟩

theorem timeless_failOnActiveDeadline (now : Time) (p : Pass) :
    Timeless p.js (failOnActiveDeadline now p).js :=
  timeless_setJobSetFailedCondition now _ _ p

theorem StartupStep.timeless {p p' : Pass} (h : StartupStep p p') : Timeless p.js p'.js := by
  rcases h with rfl | ⟨now, rfl | rfl⟩
  · exact Timeless.refl _
  · exact timeless_setCondition _ _ _
  · exact timeless_setCondition _ _ _

theorem SuspendStep.timeless {js : JobSet} {p p' : Pass} (h : SuspendStep js p p') :
    Timeless p.js p'.js := by
  rcases h with ⟨now, ⟨-, rfl⟩ | ⟨-, rfl | rfl⟩⟩
  · exact (timeless_setCondition now _ p).trans (timeless_setCondition now _ _)
  · exact timeless_setCondition _ _ _
  · exact timeless_setCondition _ _ _

theorem InPlaceStep.timeless {p p' : Pass} (h : InPlaceStep p p') : Timeless p.js p'.js := by
  rcases h with rfl | ⟨now, pods, h⟩
  · exact Timeless.refl _
  · rcases reconcileInPlaceRestart_effect h with rfl | rfl | ⟨previous, current, rfl⟩
    · exact timeless_setJobSetFailedCondition _ _ _ _
    · exact Timeless.refl _
    · exact ⟨rfl, rfl, rfl⟩

theorem timeless_failurePolicyRecreateJob {job : Job} {count : Bool} {event : EventParams}
    {p p' : Pass} (h : failurePolicyRecreateJob job count event p = .ok p') :
    Timeless p.js p'.js := by
  unfold failurePolicyRecreateJob at h
  obtain ⟨name, hname, h⟩ := except_bind_ok h
  obtain ⟨indexStr, hindexStr, h⟩ := except_bind_ok h
  obtain ⟨index, hindex, h⟩ := except_bind_ok h
  obtain ⟨total, htotal, h⟩ := except_bind_ok h
  cases count with
  | false =>
    cases h
    exact ⟨rfl, rfl, rfl⟩
  | true =>
    obtain ⟨counts, hcounts, h⟩ := except_bind_ok h
    cases h
    exact ⟨rfl, rfl, rfl⟩

/-- The failure policy keeps restarts, attempts and start time, or restarts the JobSet. -/
theorem executeFailurePolicy_times {platform : Platform} {gates : FeatureGates} {now : Time}
    {failed : List Job} {p p' : Pass}
    (h : executeFailurePolicy platform gates now failed p = .ok p') :
    Timeless p.js p'.js ∨ ∃ count,
      p'.js.status.restarts = (restartedStatus gates count p.js.status).restarts ∧
      p'.js.status.executionAttempts =
        (restartedStatus gates count p.js.status).executionAttempts ∧
      p'.js.status.startTime = p.js.status.startTime := by
  rcases executeFailurePolicy_cases h with ⟨reason, msg, -, rfl⟩ |
    ⟨fp, job, count, event, o, hfp, hcause, ho, hbudget, rfl⟩ |
    ⟨fp, job, count, event, hfp, hcause, hgate, hbudget, hp'⟩
  · exact Or.inl (timeless_setJobSetFailedCondition _ _ _ _)
  · have hset := timeless_setCondition now o
      (p.withStatus (restartedStatus gates count p.js.status)).requestUpdate
    exact Or.inr ⟨count, hset.restarts, hset.attempts, hset.startTime⟩
  · exact Or.inl (timeless_failurePolicyRecreateJob hp')

/-- A write changes nothing but the status. -/
theorem Writes.frame {env : Env} {js js' : JobSet} {jobs : List Job} {s : Seen}
    (h : Writes env js jobs s js') : js' = { js with status := js'.status } := by
  obtain ⟨owned, -, ho⟩ := h.outcome
  have hentry : (entryPass env js owned).js =
      { js with status := (entryPass env js owned).js.status } := by rw [entryPass_js]
  cases ho with
  | finished h first => exact hentry
  | harmless h effect => exact frame_trans hentry effect.frame
  | ends h effect => exact frame_trans hentry effect.frame
  | restartsAll h first effect => exact frame_trans hentry effect.frame
  | restartsJob h first effect => exact frame_trans hentry effect.frame

end JobSetOperator
