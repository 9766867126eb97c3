import JobSetOperator.Controller.Conclusion
import JobSetOperator.Controller.FailureSelection

/-!
# The grounds on which a JobSet ends

A status write that ends a JobSet has grounds: the success policy is met by the successful
Jobs, the failure policy has nothing left to try, the deadline has passed, or the in-place
restarts are used up. `reconcileRequest_judged` says so of every write of a reconcile,
whatever the API answers.
-/
namespace JobSetOperator

open Library Library.Program

/-! ## Giving up -/

/-- The failure policy has nothing left to try after the failure of the Job. -/
inductive GivesUp (platform : Platform) (gates : FeatureGates) (js : JobSet) (job : Job) : Prop
  | noPolicy (h : js.spec.failurePolicy = none)
  | rule {fp : FailurePolicy} {rule : FailurePolicyRule} (policy : js.spec.failurePolicy = some fp)
    (mem : rule ∈ fp.rules) (applies : ruleApplies platform rule job = true)
    (fails : rule.action = .failJobSet)
  | exhausted {fp : FailurePolicy} (policy : js.spec.failurePolicy = some fp)
    (budget : fp.maxRestarts ≤ js.status.restartsCountTowardsMax ∨
      (gates.restartJob = true ∧ fp.maxRestarts ≤ totalRestartsCountTowardsMax js))

/-- The pods have used up the in-place restarts. -/
def ExceedsInPlace (js : JobSet) (fp : FailurePolicy) (pods : List Pod) : Prop :=
  getMaxContainerRestartCount pods > fp.maxRestarts ∨
    ∃ attempts, getPodInPlaceRestartAttempts pods = .ok attempts ∧
      exceededMaxRestarts js fp.maxRestarts attempts = true

section Policies

variable {platform : Platform} {gates : FeatureGates} {now : Time} {p p' : Pass}

/-- The rule that decides is one of the policy, and applies to the Job it decides about. -/
theorem selectFailure_rule {rules : List FailurePolicyRule} {failed : List Job}
    {rule : FailurePolicyRule} {job : Job}
    (h : selectFailure platform rules failed = (some rule, some job)) :
    rule ∈ rules ∧ ruleApplies platform rule job = true := by
  unfold selectFailure at h
  split at h
  · rename_i hfound
    cases h
    obtain ⟨i, hrule, hjob, -⟩ := findFirstFailedPolicyRuleAndJob_eq_some hfound
    have hmem := List.argmin_mem hjob
    exact ⟨List.mem_of_getElem? hrule, (List.mem_filter.mp hmem).2⟩
  · cases h

theorem selectFailure_mem {rules : List FailurePolicyRule} {failed : List Job}
    {rule : Option FailurePolicyRule} {job : Job}
    (h : selectFailure platform rules failed = (rule, some job)) : job ∈ failed := by
  unfold selectFailure at h
  split at h
  · rename_i hfound
    cases h
    exact findFirstFailedPolicyRuleAndJob_mem hfound
  · exact findFirstFailedJob_mem (Prod.mk.inj h).2

/-- A restart of the whole JobSet ends nothing. -/
theorem keepsTerminal_restartAll {count : Bool} {reason base : String}
    {rule : Option FailurePolicyRule} {job : Job} :
    KeepsTerminal p.js (restartAll gates now count reason base rule job p).js := by
  have hcondition := harmless_setCondition now
    (conditionOpts eventTypeWarning .jobSetRestarting .conditionTrue (restartingReason rule)
      (messageWithFirstFailedJob base job.name))
    (p.withStatus (restartedStatus gates count p.js.status)).requestUpdate
    (by rintro (h | h) <;> cases h)
  have hcounters : KeepsTerminal p.js
      (p.withStatus (restartedStatus gates count p.js.status)).requestUpdate.js :=
    ⟨rfl, fun _ _ => Iff.rfl, rfl⟩
  exact hcounters.trans hcondition.toKeepsTerminal

theorem keepsTerminal_failurePolicyRecreateJob {job : Job} {count : Bool} {event : EventParams}
    (h : failurePolicyRecreateJob job count event p = .ok p') : KeepsTerminal p.js p'.js := by
  unfold failurePolicyRecreateJob at h
  obtain ⟨name, hname, h⟩ := except_bind_ok h
  obtain ⟨indexStr, hindexStr, h⟩ := except_bind_ok h
  obtain ⟨index, hindex, h⟩ := except_bind_ok h
  obtain ⟨total, htotal, h⟩ := except_bind_ok h
  cases count with
  | false =>
    cases h
    exact ⟨rfl, fun _ _ => Iff.rfl, rfl⟩
  | true =>
    obtain ⟨counts, hcounts, h⟩ := except_bind_ok h
    cases h
    exact ⟨rfl, fun _ _ => Iff.rfl, rfl⟩

/-- The failure policy restarts something, or it gives up because of a failed Job. -/
theorem executeFailurePolicy_judged {failed : List Job}
    (h : executeFailurePolicy platform gates now failed p = .ok p') :
    KeepsTerminal p.js p'.js ∨
      ∃ job ∈ failed, GivesUp platform gates p.js job ∧ Ends .jobSetFailed p.js p'.js := by
  unfold executeFailurePolicy at h
  cases hfp : p.js.spec.failurePolicy with
  | none =>
    rw [hfp] at h
    cases hj : findFirstFailedJob failed with
    | none => simp [hj] at h
    | some job =>
      simp only [hj, Except.ok.injEq] at h
      subst h
      exact Or.inr ⟨job, findFirstFailedJob_mem hj, .noPolicy hfp,
        ends_setJobSetFailedCondition _ _ _ _⟩
  | some fp =>
    rw [hfp] at h
    rcases hs : selectFailure platform fp.rules failed with ⟨rule, _ | job⟩
    · simp [hs] at h
    · simp only [hs] at h
      have hmem := selectFailure_mem hs
      cases ha : (rule.map (·.action)).getD .restartJobSet with
      | failJobSet =>
        simp only [ha, applyFailurePolicyRuleAction, failJobSetActionApplier, Except.ok.injEq] at h
        subst h
        cases rule with
        | none => cases ha
        | some rule =>
          obtain ⟨hrule, happlies⟩ := selectFailure_rule hs
          exact Or.inr ⟨job, hmem, .rule hfp hrule happlies ha,
            ends_setJobSetFailedCondition _ _ _ _⟩
      | restartJobSet =>
        simp only [ha, applyFailurePolicyRuleAction, restartJobSetActionApplier] at h
        split_ifs at h with hbudget
        · simp only [Except.ok.injEq] at h
          subst h
          exact Or.inr ⟨job, hmem, .exhausted hfp hbudget.symm,
            ends_setJobSetFailedCondition _ _ _ _⟩
        · simp only [Except.ok.injEq] at h
          subst h
          exact Or.inl keepsTerminal_restartAll
      | restartJobSetAndIgnoreMaxRestarts =>
        simp only [ha, applyFailurePolicyRuleAction,
          restartJobSetAndIgnoreMaxRestartsActionApplier, Except.ok.injEq] at h
        subst h
        exact Or.inl keepsTerminal_restartAll
      | restartJob =>
        simp only [ha, applyFailurePolicyRuleAction, restartJobActionApplier] at h
        split_ifs at h with hgate hbudget
        · simp only [Except.ok.injEq] at h
          subst h
          have hon : gates.restartJob = true := by simpa using hgate
          exact Or.inr ⟨job, hmem, .exhausted hfp (Or.inr ⟨hon, hbudget⟩),
            ends_setJobSetFailedCondition _ _ _ _⟩
        · exact Or.inl (keepsTerminal_failurePolicyRecreateJob h)
      | restartJobAndIgnoreMaxRestarts =>
        simp only [ha, applyFailurePolicyRuleAction,
          restartJobAndIgnoreMaxRestartsActionApplier] at h
        split_ifs at h
        exact Or.inl (keepsTerminal_failurePolicyRecreateJob h)

/-- Only the counters, the spec and the status lists matter. -/
theorem GivesUp.congr {a b : JobSet} {job : Job} (h : GivesUp platform gates a job)
    (hspec : b.spec = a.spec)
    (hcounted : b.status.restartsCountTowardsMax = a.status.restartsCountTowardsMax)
    (hstatuses : b.status.replicatedJobsStatus = a.status.replicatedJobsStatus) :
    GivesUp platform gates b job := by
  have htotal : totalRestartsCountTowardsMax b = totalRestartsCountTowardsMax a := by
    unfold totalRestartsCountTowardsMax sumJobRestartsCountTowardsMax
    rw [hcounted, hstatuses]
  cases h with
  | noPolicy h => exact .noPolicy (hspec ▸ h)
  | rule policy mem applies fails => exact .rule (hspec ▸ policy) mem applies fails
  | exhausted policy budget =>
    rw [← hcounted, ← htotal] at budget
    exact .exhausted (hspec ▸ policy) budget

end Policies

/-! ## Verdicts -/

/-- Why a reconcile that has sorted its Jobs ends the JobSet. -/
inductive Verdict (env : Env) (js : JobSet) (owned : ChildJobs) (ended : JobSet) :
    JobSetConditionType → Prop
  | completed (some_successful : owned.successful ≠ [])
    (met : successPolicyMet js owned.successful = .ok true) :
    Verdict env js owned ended .jobSetCompleted
  | failed {job : Job} (mem : job ∈ owned.failed)
    (hopeless : GivesUp env.platform env.gates ended job) :
    Verdict env js owned ended .jobSetFailed
  | expired {now : Time} {remaining : ℤ}
    (armed : activeDeadlineRemaining env.gates now ended = some remaining) (passed : remaining ≤ 0) :
    Verdict env js owned ended .jobSetFailed
  | exceeded {fp : FailurePolicy} {pods : List Pod} (gate : env.gates.inPlaceRestart = true)
    (strategy : isInPlaceRestartStrategy js = true) (policy : js.spec.failurePolicy = some fp)
    (used : ExceedsInPlace ended fp pods) : Verdict env js owned ended .jobSetFailed

/-- A write keeps the terminal conditions, or it ends the JobSet with a verdict. -/
def Judged (env : Env) (js : JobSet) (jobs : List Job) (written : JobSet) : Prop :=
  KeepsTerminal js written ∨ ∃ owned t, getChildJobs env.gates js jobs = .ok owned ∧
    Ends t (entryPass env js owned).js written ∧ Verdict env js owned written t

section Judging

variable {env : Env} {js : JobSet} {jobs : List Job} {owned : ChildJobs} {p q : Pass} {α β : Type}

theorem Undecided.judged (h : Undecided env js jobs owned p) (hq : KeepsTerminal p.js q.js) :
    Judged env js jobs q.js :=
  Or.inl (((entryPass_keepsTerminal env js owned).trans h.passed.harmless.toKeepsTerminal).trans hq)

theorem Undecided.judged_completed (h : Undecided env js jobs owned p)
    (hsome : owned.successful ≠ []) (hmet : successPolicyMet p.js owned.successful = .ok true)
    (now : Time) : Judged env js jobs (setJobSetCompletedCondition now p).js := by
  rw [successPolicyMet_of_spec h.passed.spec] at hmet
  exact Or.inr ⟨owned, _, h.sorted,
    h.passed.harmless.ends (ends_setJobSetCompletedCondition now p), .completed hsome hmet⟩

theorem Undecided.judged_expired (h : Undecided env js jobs owned p) {now : Time} {remaining : ℤ}
    (harmed : activeDeadlineRemaining env.gates now p.js = some remaining)
    (hpassed : remaining ≤ 0) (now' : Time) :
    Judged env js jobs (failOnActiveDeadline now' p).js := by
  have hends := ends_failOnActiveDeadline now' p
  have hsame : activeDeadlineRemaining env.gates now (failOnActiveDeadline now' p).js =
      activeDeadlineRemaining env.gates now p.js := by
    have hstart := (timeless_failOnActiveDeadline now' p).startTime
    unfold activeDeadlineRemaining jobSetSuspended
    rw [hends.frame, hstart]
  exact Or.inr ⟨owned, _, h.sorted, h.passed.harmless.ends hends,
    .expired (hsame.trans harmed) hpassed⟩

theorem Undecided.judged_failed (h : Undecided env js jobs owned p) {now : Time}
    (hq : executeFailurePolicy env.platform env.gates now owned.failed p = .ok q) (now' : Time) :
    Judged env js jobs
      (resetStartTimeOnGlobalRestart env.gates now' p.js.status.restarts q).js := by
  have hreset := harmless_resetStartTimeOnGlobalRestart env.gates now' p.js.status.restarts q
  rcases executeFailurePolicy_judged hq with hkeeps | ⟨job, hmem, hgives, hends⟩
  · exact h.judged (hkeeps.trans hreset.toKeepsTerminal)
  · have hends' := hends.harmless hreset
    have hspec : (resetStartTimeOnGlobalRestart env.gates now' p.js.status.restarts q).js.spec =
        p.js.spec := by rw [hends'.frame]
    exact Or.inr ⟨owned, _, h.sorted, h.passed.harmless.ends hends',
      .failed hmem (hgives.congr hspec hends'.counted hends'.statuses)⟩

/-- The in-place restart changes nothing terminal, or the pods have used it up. -/
theorem reconcileInPlaceRestart_judged {now : Time} {pods : List Pod}
    (h : reconcileInPlaceRestart now pods p = .ok q) :
    Harmless p.js q.js ∨ (q = reachedMaxRestartsInPlace now p ∧
      ∃ fp, p.js.spec.failurePolicy = some fp ∧ ExceedsInPlace p.js fp pods) := by
  unfold reconcileInPlaceRestart at h
  cases hfp : p.js.spec.failurePolicy with
  | none => simp [hfp] at h
  | some fp =>
    simp only [hfp] at h
    split_ifs at h with hcount
    · cases h
      exact Or.inr ⟨rfl, fp, rfl, Or.inl hcount⟩
    · obtain ⟨attempts, hattempts, h⟩ := except_bind_ok h
      by_cases hexceeded : exceededMaxRestarts p.js fp.maxRestarts attempts = true
      · rw [if_pos hexceeded] at h
        cases h
        exact Or.inr ⟨rfl, fp, rfl, Or.inr ⟨attempts, hattempts, hexceeded⟩⟩
      · rw [if_neg hexceeded] at h
        obtain ⟨total, -, h⟩ := except_bind_ok h
        left
        split_ifs at h
        · cases h
          unfold updateCurrentInPlaceRestartAttempt
          dsimp only
          split_ifs
          · exact Harmless.refl _
          · exact harmless_of_status rfl rfl rfl rfl rfl
        · cases h
          exact Harmless.refl _
        · cases h
          unfold updatePreviousInPlaceRestartAttempt
          dsimp only
          split_ifs
          · exact Harmless.refl _
          · exact Harmless.refl _
          · exact harmless_of_status rfl rfl rfl rfl rfl

theorem Undecided.judged_inPlace (h : Undecided env js jobs owned p) {r : Pass}
    (hr : Harmless p.js r.js) (hgate : isInPlaceRestartStrategy r.js && env.gates.inPlaceRestart)
    {now : Time} {pods : List Pod} (hq : reconcileInPlaceRestart now pods r = .ok q) :
    Judged env js jobs q.js := by
  have hentry := h.passed.harmless.trans hr
  have hspec : r.js.spec = js.spec := hr.spec.trans h.passed.spec
  rcases reconcileInPlaceRestart_judged hq with hharmless | ⟨rfl, fp, hfp, hused⟩
  · exact h.judged (hr.trans hharmless).toKeepsTerminal
  · have hends : Ends .jobSetFailed r.js (reachedMaxRestartsInPlace now r).js :=
      ends_setJobSetFailedCondition _ _ _ _
    rw [Bool.and_eq_true] at hgate
    have hstrategy : isInPlaceRestartStrategy js = true := by
      have hr' := hgate.1
      unfold isInPlaceRestartStrategy at hr' ⊢
      rw [hspec] at hr'
      exact hr'
    have hused' : ExceedsInPlace (reachedMaxRestartsInPlace now r).js fp pods := by
      unfold ExceedsInPlace exceededMaxRestarts at hused ⊢
      rw [hends.restarts, hends.counted]
      exact hused
    exact Or.inr ⟨owned, _, h.sorted, hentry.ends hends,
      .exceeded hgate.2 hstrategy (hspec ▸ hfp) hused'⟩

/-! ## The stages of a reconcile -/

/-- The status writes of the program are judged, and what it returns meets `Q`. -/
def Justly (env : Env) (js : JobSet) (jobs : List Job) (Q : α → Prop) (p : Prog α) : Prop :=
  Follows (fun (_ : Unit) r => ∀ written, r = .updateStatus written → Judged env js jobs written)
    (fun _ _ _ => ()) (fun _ a => Q a) () p

theorem Silently.justly {Q : α → Prop} {p : Prog α} (h : Silently Q p) : Justly env js jobs Q p := by
  apply Follows.mono h
  · rintro _ _ hr written rfl
    exact hr.elim
  · exact fun _ _ hQ => hQ

theorem Quiet.justly {p : Prog α} (h : Quiet p) : Justly env js jobs (fun _ => True) p := by
  apply Follows.mono h
  · rintro _ _ hr written rfl
    exact hr.elim
  · exact fun _ _ hQ => hQ

theorem Justly.bind {R : α → Prop} {Q : β → Prop} {p : Prog α} {f : α → Prog β}
    (hp : Justly env js jobs R p) (hf : ∀ a, R a → Justly env js jobs Q (f a)) :
    Justly env js jobs Q (p >>= f) :=
  Follows.bind hp fun _ a ha => hf a ha

theorem silently_successPolicy (p : Pass) (successful : List Job) :
    Silently (fun r => ∀ p', r = some p' → successful ≠ [] ∧
      successPolicyMet p.js successful = .ok true ∧ ∃ now, p' = setJobSetCompletedCondition now p)
      (executeSuccessPolicy successful p) := by
  unfold executeSuccessPolicy
  split_ifs with hnil
  · exact fun p' hp' => by cases hp'
  · apply (Silently.liftExcept fun _ h => h).bind
    intro completed hmet
    cases completed with
    | true =>
      apply silently_readClock.bind
      intro now _ p' hp'
      cases hp'
      exact ⟨hnil, hmet, now, rfl⟩
    | false => exact fun p' hp' => by cases hp'

theorem silently_reconcileInPlace_judged (h : Undecided env js jobs owned p) {r : Pass}
    (hr : Harmless p.js r.js) :
    Silently (fun q => Judged env js jobs q.js) (reconcileInPlace env r) := by
  unfold reconcileInPlace
  split_ifs with hgate
  · refine Silently.ask trivial fun answer => ?_
    apply (Silently.liftExcept (Q := fun _ => True) fun _ _ => trivial).bind
    intro pods _
    apply silently_readClock.bind
    intro now _
    exact Silently.liftExcept fun q hq => h.judged_inPlace hr hgate hq
  · exact h.judged hr.toKeepsTerminal

theorem justly_reconcileJobs (h : Undecided env js jobs owned p)
    (statuses : List ReplicatedJobStatus) (requeueAfter : ℤ) :
    Justly env js jobs (fun r => Judged env js jobs r.1.js)
      (reconcileJobs env owned statuses requeueAfter p) := by
  unfold reconcileJobs
  apply (silently_syncJobScaling env p.js owned.active).justly.bind
  intro active _
  have hattempts : Justly env js jobs (fun q => Harmless p.js q.js)
      (syncExecutionAttempts env active owned.successful owned.failed p) := by
    unfold syncExecutionAttempts
    cases nextExecutionAttempts env p.js active owned.successful owned.failed with
    | none => exact Harmless.refl _
    | some next =>
      obtain ⟨attempts, written⟩ := next
      have hset := harmless_setExecutionAttempts attempts p
      cases written with
      | false => exact hset
      | true =>
        refine ⟨fun written hwritten => ?_, fun outcome => ?_⟩
        · cases hwritten
          exact h.judged hset.toKeepsTerminal
        · cases outcome with
          | error e => exact trivial
          | ok u => exact hset
  apply hattempts.bind
  intro q hq
  apply (silently_reconcileReplicatedJobs env q owned statuses).justly.bind
  intro q₁ hstartup
  apply (silently_suspendOrResume env q₁ active statuses).justly.bind
  intro q₂ hsuspend
  have hq₂ : Harmless p.js q₂.js := (hq.trans hstartup.harmless).trans hsuspend.harmless
  apply (silently_reconcileInPlace_judged h hq₂).justly.bind
  exact fun q₃ hq₃ => hq₃

theorem justly_reconcileRunning (h : Undecided env js jobs owned p)
    (statuses : List ReplicatedJobStatus) (requeueAfter : ℤ) :
    Justly env js jobs (fun r => Judged env js jobs r.1.js)
      (reconcileRunning env owned statuses requeueAfter p) := by
  unfold reconcileRunning
  apply (silently_reconcileResources env p.js).justly.bind
  intro goOn _
  split_ifs
  · exact h.judged (Harmless.refl _).toKeepsTerminal
  · apply (silently_deleteJobs owned.active).justly.bind
    exact fun _ _ => h.judged (Harmless.refl _).toKeepsTerminal
  · exact justly_reconcileJobs h statuses requeueAfter

theorem justly_reconcilePolicies (h : Undecided env js jobs owned p)
    (statuses : List ReplicatedJobStatus) (requeueAfter : ℤ) :
    Justly env js jobs (fun r => Judged env js jobs r.1.js)
      (reconcilePolicies env owned statuses requeueAfter p) := by
  unfold reconcilePolicies
  split_ifs
  · apply Silently.justly
    apply (silently_reconcileFailed env p owned.failed).mono
    rintro ⟨q, requeue⟩ ⟨now, now', p', hp', rfl⟩
    exact h.judged_failed hp' now'
  · apply (silently_successPolicy p owned.successful).justly.bind
    intro completed hcompleted
    cases completed with
    | some p' =>
      obtain ⟨hsome, hmet, now, rfl⟩ := hcompleted p' rfl
      exact h.judged_completed hsome hmet now
    | none => exact justly_reconcileRunning h statuses requeueAfter

theorem silently_reconcileExpired_judged (h : Undecided env js jobs owned p) {now : Time}
    {remaining : ℤ} (harmed : activeDeadlineRemaining env.gates now p.js = some remaining)
    (hpassed : remaining ≤ 0) :
    Silently (fun r => Judged env js jobs r.1.js) (reconcileExpired owned p) := by
  unfold reconcileExpired
  apply (silently_successPolicy p owned.successful).bind
  intro completed hcompleted
  cases completed with
  | some p' =>
    obtain ⟨hsome, hmet, now', rfl⟩ := hcompleted p' rfl
    exact h.judged_completed hsome hmet now'
  | none =>
    apply (silently_deleteJobs owned.active).bind
    intro _ _
    apply silently_readClock.bind
    exact fun now' _ => h.judged_expired harmed hpassed now'

theorem justly_reconcileUnfinished (hlive : Live env js jobs owned)
    (hun : jobSetFinished js = false) :
    Justly env js jobs (fun r => Judged env js jobs r.1.js)
      (reconcileUnfinished env owned (calculateReplicatedJobStatuses env.gates js owned)
        (entryPass env js owned)) := by
  unfold reconcileUnfinished
  apply (silently_deleteJobs owned.previous).justly.bind
  intro _ _
  apply silently_readClock.justly.bind
  intro now _
  apply silently_readClock.justly.bind
  intro now' _
  apply silently_readClock.justly.bind
  intro now'' _
  have hu : Undecided env js jobs owned (syncActiveDeadlineStartTime env.gates now' (clearRestarting
      (calculateReplicatedJobStatuses env.gates js owned) now (entryPass env js owned))) :=
    ⟨hlive, hun, now, now', rfl⟩
  split
  · rename_i remaining harmed
    split_ifs with hpassed
    · exact (silently_reconcileExpired_judged hu harmed hpassed).justly
    · exact justly_reconcilePolicies hu _ _
  · exact justly_reconcilePolicies hu _ 0

theorem justly_reconcile (hdel : jobSetMarkedForDeletion js = false) :
    Justly env js jobs (fun r => Judged env js jobs r.1.js) (reconcile env js jobs) := by
  have hsame : Judged env js jobs js := Or.inl ⟨rfl, fun _ _ => Iff.rfl, rfl⟩
  unfold reconcile
  split_ifs with hmanaged hexternal
  · apply (silently_requeueFinished js).justly.bind
    exact fun _ _ => hsame
  · exact hsame
  · apply Justly.bind (Silently.liftExcept fun _ h => h).justly
    intro owned hsorted
    have hlive : Live env js jobs owned := ⟨hdel, by simpa using hmanaged, hsorted⟩
    have hfinished : jobSetFinished (entryPass env js owned).js = jobSetFinished js := by
      rw [entryPass_js]
      rfl
    change Justly env js jobs _ (if jobSetFinished (entryPass env js owned).js then _ else _)
    rw [hfinished]
    split_ifs with hfin
    · apply Silently.justly
      apply (silently_reconcileFinished env (entryPass env js owned) owned).mono
      rintro ⟨q, requeue⟩ rfl
      exact Or.inl (entryPass_keepsTerminal env js owned)
    · exact justly_reconcileUnfinished hlive (by simpa using hfin)

theorem justly_updateJobSetStatus (hp : Judged env js jobs p.js) :
    Justly env js jobs (fun _ => True) (updateJobSetStatus p) := by
  unfold updateJobSetStatus
  apply (quiet_countMetrics p.metrics).justly.bind
  intro _ _
  split_ifs
  · refine ⟨fun written hwritten => ?_, fun outcome => ?_⟩
    · cases hwritten
      exact hp
    · cases outcome with
      | error e => exact trivial
      | ok u => exact (quiet_emitEvents p.opts.events).justly
  · exact trivial

/-- Whatever the API answers, a status write of the reconcile keeps the terminal conditions, or
it ends the JobSet with a verdict. -/
theorem reconcileRequest_judged {written : JobSet}
    (h : Issues (.updateStatus written) (reconcileRequest env js jobs)) :
    Judged env js jobs written := by
  have hjust : Justly env js jobs (fun _ => True) (reconcileRequest env js jobs) := by
    unfold reconcileRequest
    split_ifs with hdel
    · exact trivial
    · apply (justly_reconcile (by simpa using hdel)).bind
      rintro ⟨p, requeueAfter⟩ hp
      apply (justly_updateJobSetStatus hp).bind
      exact fun _ _ => trivial
  obtain ⟨_, hr⟩ := hjust.of_issues h
  exact hr written rfl

end Judging

end JobSetOperator
