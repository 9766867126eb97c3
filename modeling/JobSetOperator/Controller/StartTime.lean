import JobSetOperator.Controller.Discipline
import JobSetOperator.Library.Coupling

/-!
# What depends on the start time

Apart from the deadline itself, no part of a reconcile looks at the start time of
the status or at the gate that maintains it. The lemmas say so for each function:
pure functions commute with a change of the start time, and programs that hold
the JobSet in memory make the same calls, up to the start time in status writes.
-/
namespace JobSetOperator

open Library Library.Program

/-- The JobSet with another start time. -/
def JobSet.withStart (startTime : Option Time) (js : JobSet) : JobSet :=
  { js with status := { js.status with startTime := startTime } }

/-- The two JobSets differ in their start time at most. -/
def JobSet.SameButStart (js js' : JobSet) : Prop := js.withStart none = js'.withStart none

/-- The pass with another start time, and with the status update it may cause. -/
def Pass.retimed (startTime : Option Time) (update : Bool) (p : Pass) : Pass :=
  { p with
    js := p.js.withStart startTime
    opts := { p.opts with shouldUpdate := p.opts.shouldUpdate || update } }

/-- The controller with the deadline gate on or off. -/
def Env.withDeadline (on : Bool) (env : Env) : Env :=
  { env with gates := { env.gates with jobSetActiveDeadlineSeconds := on } }

section Commute

variable (st : Option Time) (u : Bool) (on : Bool) (env : Env) (js : JobSet) (p : Pass)

@[simp] theorem Pass.retimed_js : (p.retimed st u).js = p.js.withStart st := rfl

@[simp] theorem JobSet.withStart_spec : (js.withStart st).spec = js.spec := rfl

@[simp] theorem jobSetSuspended_withStart :
    jobSetSuspended (js.withStart st) = jobSetSuspended js := rfl

theorem setCondition_retimed (now : Time) (o : ConditionOpts) :
    setCondition now o (p.retimed st u) = (setCondition now o p).retimed st u := by
  unfold setCondition
  dsimp only [Pass.retimed, JobSet.withStart]
  split_ifs <;> rfl

theorem setRestartingConditionFalse_retimed (now : Time) (reason message : String) :
    setRestartingConditionFalse now reason message (p.retimed st u) =
      (setRestartingConditionFalse now reason message p).retimed st u :=
  setCondition_retimed st u p _ _

theorem setJobSetCompletedCondition_retimed (now : Time) :
    setJobSetCompletedCondition now (p.retimed st u) =
      (setJobSetCompletedCondition now p).retimed st u := by
  unfold setJobSetCompletedCondition
  simp only [setCondition_retimed, setRestartingConditionFalse_retimed]
  rfl

theorem setJobSetFailedCondition_retimed (now : Time) (reason msg : String) :
    setJobSetFailedCondition now reason msg (p.retimed st u) =
      (setJobSetFailedCondition now reason msg p).retimed st u := by
  unfold setJobSetFailedCondition
  simp only [setCondition_retimed, setRestartingConditionFalse_retimed]
  rfl

theorem setJobSetSuspendedCondition_retimed (now : Time) :
    setJobSetSuspendedCondition now (p.retimed st u) =
      (setJobSetSuspendedCondition now p).retimed st u := by
  unfold setJobSetSuspendedCondition
  simp only [setCondition_retimed, setRestartingConditionFalse_retimed]

theorem clearRestarting_retimed (statuses : List ReplicatedJobStatus) (now : Time) :
    clearRestarting statuses now (p.retimed st u) = (clearRestarting statuses now p).retimed st u := by
  unfold clearRestarting
  have h : allJobsReady (p.retimed st u).js statuses = allJobsReady p.js statuses := rfl
  rw [h, Pass.retimed_js, jobSetSuspended_withStart]
  split_ifs
  · exact setRestartingConditionFalse_retimed st u p _ _ _
  · rfl

/-! ## The failure policy -/

theorem failurePolicyRecreateAll_retimed (now : Time) (count : Bool)
    (event : EventParams) (o : ConditionOpts) :
    failurePolicyRecreateAll (env.withDeadline on).gates now count event o (p.retimed st u) =
      (failurePolicyRecreateAll env.gates now count event o p).retimed st u := by
  unfold failurePolicyRecreateAll
  have h : ((p.retimed st u).withStatus (restartedStatus (env.withDeadline on).gates count
      (p.retimed st u).js.status)).requestUpdate =
      ((p.withStatus (restartedStatus env.gates count p.js.status)).requestUpdate).retimed st u := rfl
  dsimp only
  rw [h, setCondition_retimed]
  rfl

theorem except_map_bind {α β γ : Type} (f : β → γ) (x : Except String α)
    (g : α → Except String β) : (x >>= g).map f = x >>= fun a => (g a).map f := by
  cases x <;> rfl

theorem failurePolicyRecreateJob_retimed (job : Job) (count : Bool) (event : EventParams) :
    failurePolicyRecreateJob job count event (p.retimed st u) =
      (failurePolicyRecreateJob job count event p).map (Pass.retimed st u) := by
  unfold failurePolicyRecreateJob
  simp only [except_map_bind]
  refine bind_congr fun name => bind_congr fun text => bind_congr fun index => ?_
  have hr : getJobRestarts (p.retimed st u).js name = getJobRestarts p.js name := rfl
  rw [hr]
  refine bind_congr fun restarts => ?_
  cases count with
  | false => rfl
  | true =>
    simp only [if_true, except_map_bind]
    have hc : getJobRestartsCountTowardsMax (setJobRestarts name restarts (p.retimed st u)).js name =
        getJobRestartsCountTowardsMax (setJobRestarts name restarts p).js name := rfl
    rw [hc]
    exact bind_congr fun counted => rfl

theorem restartAll_retimed (now : Time) (count : Bool) (reason base : String)
    (rule : Option FailurePolicyRule) (job : Job) :
    restartAll (env.withDeadline on).gates now count reason base rule job (p.retimed st u) =
      (restartAll env.gates now count reason base rule job p).retimed st u :=
  failurePolicyRecreateAll_retimed st u on env p _ _ _ _

theorem reachedMaxRestarts_retimed (now : Time) (job : Job) :
    reachedMaxRestarts now job (p.retimed st u) = (reachedMaxRestarts now job p).retimed st u :=
  setJobSetFailedCondition_retimed st u p _ _ _

theorem applyFailurePolicyRuleAction_retimed (now : Time) (fp : FailurePolicy)
    (rule : Option FailurePolicyRule) (job : Job) (action : FailurePolicyAction) :
    applyFailurePolicyRuleAction (env.withDeadline on).gates now fp rule job (p.retimed st u) action =
      (applyFailurePolicyRuleAction env.gates now fp rule job p action).map (Pass.retimed st u) := by
  have htotal : totalRestartsCountTowardsMax (p.retimed st u).js =
      totalRestartsCountTowardsMax p.js := rfl
  have hcount : (p.retimed st u).js.status.restartsCountTowardsMax =
      p.js.status.restartsCountTowardsMax := rfl
  have hgate : (env.withDeadline on).gates.restartJob = env.gates.restartJob := rfl
  cases action with
  | failJobSet =>
    exact congrArg Except.ok (setJobSetFailedCondition_retimed st u p _ _ _)
  | restartJobSet =>
    simp only [applyFailurePolicyRuleAction, restartJobSetActionApplier, htotal, hcount, hgate]
    split_ifs
    · exact congrArg Except.ok (reachedMaxRestarts_retimed st u p _ _)
    · exact congrArg Except.ok (restartAll_retimed st u on env p _ _ _ _ _ _)
  | restartJobSetAndIgnoreMaxRestarts =>
    exact congrArg Except.ok (restartAll_retimed st u on env p _ _ _ _ _ _)
  | restartJob =>
    simp only [applyFailurePolicyRuleAction, restartJobActionApplier, htotal, hgate]
    split_ifs
    · rfl
    · exact congrArg Except.ok (reachedMaxRestarts_retimed st u p _ _)
    · exact failurePolicyRecreateJob_retimed st u p _ _ _
  | restartJobAndIgnoreMaxRestarts =>
    simp only [applyFailurePolicyRuleAction, restartJobAndIgnoreMaxRestartsActionApplier, hgate]
    split_ifs
    · rfl
    · exact failurePolicyRecreateJob_retimed st u p _ _ _

theorem executeFailurePolicy_retimed (now : Time) (failed : List Job) :
    executeFailurePolicy (env.withDeadline on).platform (env.withDeadline on).gates now failed
        (p.retimed st u) =
      (executeFailurePolicy env.platform env.gates now failed p).map (Pass.retimed st u) := by
  have hplatform : (env.withDeadline on).platform = env.platform := rfl
  unfold executeFailurePolicy
  simp only [Pass.retimed_js, JobSet.withStart_spec, hplatform]
  cases p.js.spec.failurePolicy with
  | none =>
    dsimp only
    cases findFirstFailedJob failed with
    | none => rfl
    | some job => exact congrArg Except.ok (setJobSetFailedCondition_retimed st u p _ _ _)
  | some fp =>
    dsimp only
    rcases selectFailure env.platform fp.rules failed with ⟨rule, _ | job⟩
    · rfl
    · exact applyFailurePolicyRuleAction_retimed st u on env p _ _ _ _ _

/-! ## Calls that read the JobSet -/

theorem reconcileResources_withStart :
    reconcileResources (env.withDeadline on) (js.withStart st) = reconcileResources env js := by
  have hpvc : ∀ policy templates, createPVCsIfNecessary (js.withStart st) policy templates =
      createPVCsIfNecessary js policy templates := by
    intro policy templates
    induction templates with
    | nil => rfl
    | cons template rest ih =>
      simp only [createPVCsIfNecessary, ih]
      rfl
  have hclaims : ∀ policies, reconcileClaimsLoop (js.withStart st) policies =
      reconcileClaimsLoop js policies := by
    intro policies
    induction policies with
    | nil => rfl
    | cons policy rest ih => simp only [reconcileClaimsLoop, ih, hpvc]
  have hsvc : createHeadlessSvcIfNecessary (js.withStart st) = createHeadlessSvcIfNecessary js := rfl
  have hsched : reconcileScheduling (env.withDeadline on) (js.withStart st) =
      reconcileScheduling env js := rfl
  simp only [reconcileResources, reconcileVolumeClaimPolicies, hsvc, hsched, hclaims,
    JobSet.withStart_spec]

theorem staleSchedulingJobs_withStart (active : List Job) :
    staleSchedulingJobs (env.withDeadline on) (js.withStart st) active =
      staleSchedulingJobs env js active := rfl

theorem syncJobScaling_withStart (active : List Job) :
    syncJobScaling (env.withDeadline on) (js.withStart st) active = syncJobScaling env js active := by
  have hdesired : ∀ job, desiredScaling (js.withStart st) job = desiredScaling js job := fun _ => rfl
  have hloop : ∀ jobs, syncJobScalingLoop (js.withStart st) jobs = syncJobScalingLoop js jobs := by
    intro jobs
    induction jobs with
    | nil => rfl
    | cons job rest ih => simp only [syncJobScalingLoop, ih, hdesired]
  simp only [syncJobScaling, hloop]
  rfl

theorem constructJob_withStart (rjob : ReplicatedJob) (jobIdx : ℕ) :
    constructJob (env.withDeadline on).platform (env.withDeadline on).gates (js.withStart st) rjob
      jobIdx = constructJob env.platform env.gates js rjob jobIdx := rfl

theorem constructJobsFromTemplate_withStart (rjob : ReplicatedJob) (ownedJobs : ChildJobs) :
    constructJobsFromTemplate (env.withDeadline on).platform (env.withDeadline on).gates
      (js.withStart st) rjob ownedJobs =
    constructJobsFromTemplate env.platform env.gates js rjob ownedJobs := by
  have hloop : ∀ indexes, constructJobsAt (env.withDeadline on).platform
      (env.withDeadline on).gates (js.withStart st) rjob ownedJobs indexes =
      constructJobsAt env.platform env.gates js rjob ownedJobs indexes := by
    intro indexes
    induction indexes with
    | nil => rfl
    | cons jobIdx rest ih =>
      simp only [constructJobsAt, ih, constructJob_withStart]
      rfl
  simp only [constructJobsFromTemplate, hloop]
  rfl

theorem resumeJobsOf_withStart (jobs : List Job) :
    resumeJobsOf (env.withDeadline on) (js.withStart st) jobs = resumeJobsOf env js jobs := by
  have hresume : ∀ job, resumeJob (env.withDeadline on) (js.withStart st) job =
      resumeJob env js job := fun _ => rfl
  induction jobs with
  | nil => rfl
  | cons job rest ih => simp only [resumeJobsOf, ih, hresume]

/-! ## In-place restart -/

theorem updateCurrentInPlaceRestartAttempt_retimed (attempts : List ℤ) :
    updateCurrentInPlaceRestartAttempt attempts (p.retimed st u) =
      (updateCurrentInPlaceRestartAttempt attempts p).retimed st u := by
  unfold updateCurrentInPlaceRestartAttempt
  dsimp only
  rw [apply_ite (Pass.retimed st u)]
  rfl

theorem updatePreviousInPlaceRestartAttempt_retimed (attempts : List ℤ) :
    updatePreviousInPlaceRestartAttempt attempts (p.retimed st u) =
      (updatePreviousInPlaceRestartAttempt attempts p).retimed st u := by
  unfold updatePreviousInPlaceRestartAttempt
  by_cases hempty : attempts = []
  · simp only [hempty, if_true]
  · simp only [hempty, if_false]
    rw [apply_ite (Pass.retimed st u)]
    rfl

theorem reconcileInPlaceRestart_retimed (now : Time) (pods : List Pod) :
    reconcileInPlaceRestart now pods (p.retimed st u) =
      (reconcileInPlaceRestart now pods p).map (Pass.retimed st u) := by
  have hfailed : reachedMaxRestartsInPlace now (p.retimed st u) =
      (reachedMaxRestartsInPlace now p).retimed st u :=
    setJobSetFailedCondition_retimed st u p _ _ _
  have hexceeded : ∀ max attempts, exceededMaxRestarts (p.js.withStart st) max attempts =
      exceededMaxRestarts p.js max attempts := fun _ _ => rfl
  have htotal : getTotalNumberOfPods (p.js.withStart st) = getTotalNumberOfPods p.js := rfl
  unfold reconcileInPlaceRestart
  simp only [Pass.retimed_js, JobSet.withStart_spec, hfailed, hexceeded, htotal,
    updateCurrentInPlaceRestartAttempt_retimed, updatePreviousInPlaceRestartAttempt_retimed]
  cases p.js.spec.failurePolicy with
  | none => rfl
  | some fp =>
    dsimp only
    split_ifs
    · rfl
    · rw [except_map_bind]
      refine bind_congr fun attempts => ?_
      by_cases he : exceededMaxRestarts p.js fp.maxRestarts attempts = true
      · simp only [he, if_true]
        rfl
      · rw [if_neg he, if_neg he, except_map_bind]
        refine bind_congr fun total => ?_
        split_ifs <;> rfl

/-! ## Reading the snapshot -/

theorem getChildJobs_withDeadline (jobs : List Job) :
    getChildJobs (env.withDeadline on).gates js jobs = getChildJobs env.gates js jobs := by
  have hclassify : ∀ job, classifyJob (env.withDeadline on).gates js job =
      classifyJob env.gates js job := fun _ => rfl
  induction jobs with
  | nil => rfl
  | cons job rest ih => simp only [getChildJobs, ih, hclassify]

theorem calculateReplicatedJobStatuses_withDeadline (jobs : ChildJobs) :
    calculateReplicatedJobStatuses (env.withDeadline on).gates js jobs =
      calculateReplicatedJobStatuses env.gates js jobs := rfl

theorem reconcileFinished_withDeadline (ownedJobs : ChildJobs) :
    reconcileFinished (env.withDeadline on) ownedJobs p = reconcileFinished env ownedJobs p := rfl

end Commute

end JobSetOperator
