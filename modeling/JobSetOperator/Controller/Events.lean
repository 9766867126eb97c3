import JobSetOperator.Controller.Reports
import JobSetOperator.Controller.Writes
import JobSetOperator.Library.Services

/-!
# Events of condition changes

`setCondition` changes the JobSet in memory and enqueues an event. The final status
write persists the changes, and the events are emitted when it has succeeded. But the
write of the execution attempts, in the middle of a reconcile, persists the changes
made until then and leaves their events in the queue: when the reconcile fails later,
they are lost.
-/
namespace JobSetOperator

open Library Library.Program

/-! ## Changes and their events -/

/-- What puts an event into the queue: a change of the conditions, or a restart. -/
inductive QueueStep
  | change (now : Time) (opts : ConditionOpts)
  | restart (event : EventParams)

def QueueStep.event : QueueStep → EventParams
  | .change _ opts => ⟨opts.eventType, opts.condition.reason, opts.condition.message⟩
  | .restart event => event

/-- The reasons of the events that announce a restart. -/
def restartReasons : List String :=
  ["RestartJobSetFailurePolicyAction", "RestartJobSetAndIgnoreMaxRestartsFailurePolicyAction",
    "RestartJobFailurePolicyAction", "RestartJobAndIgnoreMaxRestartsFailurePolicyAction"]

/-- The steps lead from the first conditions to the last ones. A change changes something. -/
def Leads : List Condition → List QueueStep → List Condition → Prop
  | conditions, [], conditions' => conditions' = conditions
  | conditions, .change now opts :: rest, conditions' =>
    (updateCondition now conditions opts).2 = true ∧
      Leads (updateCondition now conditions opts).1 rest conditions'
  | conditions, .restart event :: rest, conditions' =>
    event.eventReason ∈ restartReasons ∧ Leads conditions rest conditions'

theorem Leads.append {a b c : List Condition} {steps steps' : List QueueStep}
    (h : Leads a steps b) (h' : Leads b steps' c) : Leads a (steps ++ steps') c := by
  induction steps generalizing a with
  | nil =>
    cases h
    exact h'
  | cons step rest ih =>
    cases step with
    | change now opts => exact ⟨h.1, ih h.2⟩
    | restart event => exact ⟨h.1, ih h.2⟩

/-- The queue of the second pass is that of the first one with the events of steps that lead
from the conditions of one to those of the other. Each step asks for a status write. -/
def Tracks (p p' : Pass) : Prop :=
  ∃ steps, Leads p.js.status.conditions steps p'.js.status.conditions ∧
    p'.opts.events = p.opts.events ++ steps.map QueueStep.event ∧
    (∀ step ∈ steps, step.event.eventReason ∉ failureReasons) ∧
    (p.opts.shouldUpdate = true ∨ steps ≠ [] → p'.opts.shouldUpdate = true)

namespace Tracks

theorem of_eq {p p' : Pass} (hconditions : p'.js.status.conditions = p.js.status.conditions)
    (hevents : p'.opts.events = p.opts.events)
    (hupdate : p.opts.shouldUpdate = true → p'.opts.shouldUpdate = true) : Tracks p p' :=
  ⟨[], hconditions, by simp [hevents], by simp, by simpa using hupdate⟩

theorem refl (p : Pass) : Tracks p p := of_eq rfl rfl id

theorem trans {p q r : Pass} (h : Tracks p q) (h' : Tracks q r) : Tracks p r := by
  obtain ⟨steps, hleads, hevents, hreasons, hupdate⟩ := h
  obtain ⟨steps', hleads', hevents', hreasons', hupdate'⟩ := h'
  refine ⟨steps ++ steps', hleads.append hleads', ?_, ?_, ?_⟩
  · rw [hevents', hevents, List.map_append, List.append_assoc]
  · intro step hstep
    rcases List.mem_append.mp hstep with hstep | hstep
    · exact hreasons step hstep
    · exact hreasons' step hstep
  · intro h
    apply hupdate'
    by_cases hnil : steps' = []
    · left
      apply hupdate
      simpa [hnil] using h
    · exact Or.inr hnil

theorem shouldUpdate {p p' : Pass} (h : Tracks p p') (hp : p.opts.shouldUpdate = true) :
    p'.opts.shouldUpdate = true := by
  obtain ⟨steps, -, -, -, hupdate⟩ := h
  exact hupdate (Or.inl hp)

theorem setCondition (now : Time) {opts : ConditionOpts} (p : Pass)
    (hreason : opts.condition.reason ∉ failureReasons) :
    Tracks p (setCondition now opts p) := by
  unfold JobSetOperator.setCondition
  dsimp only
  split_ifs with h
  · exact ⟨[.change now opts], ⟨h, rfl⟩, rfl, by simpa [QueueStep.event] using hreason,
      fun _ => rfl⟩
  · exact refl p

theorem request (now : Time) (p : Pass) (eventType : String) (type : JobSetConditionType)
    (status : ConditionStatus) {reason : String} (message : String)
    (hreason : reason ∉ failureReasons) :
    Tracks p (JobSetOperator.setCondition now
      (conditionOpts eventType type status reason message) p) :=
  setCondition now p hreason

end Tracks

theorem tracks_setRestartingConditionFalse (now : Time) {reason : String} (message : String)
    (p : Pass) (hreason : reason ∉ failureReasons) :
    Tracks p (setRestartingConditionFalse now reason message p) :=
  Tracks.setCondition now p hreason

theorem tracks_setJobSetCompletedCondition (now : Time) (p : Pass) :
    Tracks p (setJobSetCompletedCondition now p) := by
  have hcompleted : "AllJobsCompleted" ∉ failureReasons := by simp [failureReasons]
  have hrestarting : "JobSetCompleted" ∉ failureReasons := by simp [failureReasons]
  have h := Tracks.request now p eventTypeNormal .jobSetCompleted .conditionTrue
    "jobset completed successfully" hcompleted
  exact (h.trans (tracks_setRestartingConditionFalse now _ _ hrestarting)).trans
    (Tracks.of_eq rfl rfl id)

theorem tracks_setJobSetFailedCondition (now : Time) {reason : String} (msg : String) (p : Pass)
    (hreason : reason ∉ failureReasons) : Tracks p (setJobSetFailedCondition now reason msg p) := by
  have hrestarting : "JobSetFailed" ∉ failureReasons := by simp [failureReasons]
  have h := Tracks.request now p eventTypeWarning .jobSetFailed .conditionTrue msg hreason
  exact (h.trans (tracks_setRestartingConditionFalse now _ _ hrestarting)).trans
    (Tracks.of_eq rfl rfl id)

theorem tracks_setJobSetSuspendedCondition (now : Time) (p : Pass) :
    Tracks p (setJobSetSuspendedCondition now p) := by
  have hsuspended : "SuspendedJobs" ∉ failureReasons := by simp [failureReasons]
  have hrestarting : "JobSetSuspended" ∉ failureReasons := by simp [failureReasons]
  have h := Tracks.request now p eventTypeNormal .jobSetSuspended .conditionTrue
    "jobset is suspended" hsuspended
  exact h.trans (tracks_setRestartingConditionFalse now _ _ hrestarting)

theorem tracks_setJobSetResumedCondition (now : Time) (p : Pass) :
    Tracks p (setJobSetResumedCondition now p) := by
  apply Tracks.setCondition
  simp [failureReasons, conditionOpts]

theorem tracks_setInOrderStartupPolicyInProgressCondition (now : Time) (p : Pass) :
    Tracks p (setInOrderStartupPolicyInProgressCondition now p) := by
  apply Tracks.setCondition
  simp [failureReasons, conditionOpts]

theorem tracks_setInOrderStartupPolicyCompletedCondition (now : Time) (p : Pass) :
    Tracks p (setInOrderStartupPolicyCompletedCondition now p) := by
  apply Tracks.setCondition
  simp [failureReasons, conditionOpts]

theorem tracks_setStartTime (startTime : Option Time) (p : Pass) :
    Tracks p (setStartTime startTime p) :=
  Tracks.of_eq rfl rfl fun _ => rfl

theorem tracks_syncActiveDeadlineStartTime (gates : FeatureGates) (now : Time) (p : Pass) :
    Tracks p (syncActiveDeadlineStartTime gates now p) := by
  unfold syncActiveDeadlineStartTime
  split_ifs
  · exact tracks_setStartTime none p
  · exact Tracks.refl p
  · exact tracks_setStartTime _ p
  · exact Tracks.refl p

theorem tracks_resetStartTimeOnGlobalRestart (gates : FeatureGates) (now : Time) (before : ℕ)
    (p : Pass) : Tracks p (resetStartTimeOnGlobalRestart gates now before p) := by
  unfold resetStartTimeOnGlobalRestart
  split_ifs
  · exact Tracks.refl p
  · exact tracks_setStartTime _ p
  · exact Tracks.refl p

theorem tracks_entryPass (env : Env) (js : JobSet) (owned : ChildJobs) :
    Tracks (.start js) (entryPass env js owned) := by
  unfold entryPass updateReplicatedJobsStatuses
  dsimp only
  split_ifs <;> exact Tracks.of_eq rfl rfl (by simp [Pass.start])

/-! ## The failure policy -/

/-- The reason of the restarting condition begins with another letter. -/
theorem restartingReason_not_failure (rule : Option FailurePolicyRule) :
    restartingReason rule ∉ failureReasons := by
  cases rule with
  | none => simp [restartingReason, failureReasons]
  | some rule =>
    have hhead : ∀ reason ∈ failureReasons, reason.toList.head? ≠ some 'F' := by
      decide
    intro hmem
    apply hhead _ hmem
    simp [restartingReason]

/-- A restart announces itself. -/
theorem Tracks.enqueue {p : Pass} (hupdate : p.opts.shouldUpdate = true) {event : EventParams}
    (h : event.eventReason ∈ restartReasons) : Tracks p (enqueueEvent p event) := by
  have hreason : ∀ reason ∈ restartReasons, reason ∉ failureReasons := by decide
  refine ⟨[.restart event], ⟨h, rfl⟩, rfl, ?_, fun _ => hupdate⟩
  simpa [QueueStep.event] using hreason _ h

theorem tracks_restartAll (gates : FeatureGates) (now : Time) (count : Bool) {reason : String}
    (base : String) (rule : Option FailurePolicyRule) (job : Job) (p : Pass)
    (h : reason ∈ restartReasons) : Tracks p (restartAll gates now count reason base rule job p) := by
  let q := (p.withStatus (restartedStatus gates count p.js.status)).requestUpdate
  have hcounted : Tracks p q := Tracks.of_eq rfl rfl fun _ => rfl
  have hset := Tracks.request now q eventTypeWarning .jobSetRestarting .conditionTrue
    (messageWithFirstFailedJob base job.name) (restartingReason_not_failure rule)
  exact (hcounted.trans hset).trans (Tracks.enqueue (hset.shouldUpdate rfl) h)

theorem tracks_failurePolicyRecreateJob {job : Job} {count : Bool} {event : EventParams}
    {p p' : Pass} (h : event.eventReason ∈ restartReasons)
    (hp : failurePolicyRecreateJob job count event p = .ok p') : Tracks p p' := by
  unfold failurePolicyRecreateJob at hp
  obtain ⟨name, -, hp⟩ := except_bind_ok hp
  obtain ⟨text, -, hp⟩ := except_bind_ok hp
  obtain ⟨index, -, hp⟩ := except_bind_ok hp
  obtain ⟨restarts, -, hp⟩ := except_bind_ok hp
  dsimp only at hp
  have hcounted : ∀ q : Pass, q.js.status.conditions = p.js.status.conditions →
      q.opts.events = p.opts.events → Tracks p (enqueueEvent q.requestUpdate event) := by
    intro q hconditions hevents
    have hq : Tracks p q.requestUpdate := Tracks.of_eq hconditions hevents fun _ => rfl
    exact hq.trans (Tracks.enqueue rfl h)
  split_ifs at hp
  · obtain ⟨counted, -, hp⟩ := except_bind_ok hp
    cases hp
    exact hcounted _ rfl rfl
  · cases hp
    exact hcounted _ rfl rfl

theorem tracks_applyFailurePolicyRuleAction {gates : FeatureGates} {now : Time}
    {fp : FailurePolicy} {rule : Option FailurePolicyRule} {job : Job} {p p' : Pass}
    {action : FailurePolicyAction}
    (hp : applyFailurePolicyRuleAction gates now fp rule job p action = .ok p') : Tracks p p' := by
  have hreached : Tracks p (reachedMaxRestarts now job p) := by
    apply tracks_setJobSetFailedCondition
    simp [failureReasons]
  cases action with
  | failJobSet =>
    cases hp
    apply tracks_setJobSetFailedCondition
    simp [failureReasons]
  | restartJobSet =>
    simp only [applyFailurePolicyRuleAction, restartJobSetActionApplier] at hp
    split_ifs at hp
    · cases hp
      exact hreached
    · cases hp
      apply tracks_restartAll
      simp [restartReasons]
  | restartJobSetAndIgnoreMaxRestarts =>
    cases hp
    apply tracks_restartAll
    simp [restartReasons]
  | restartJob =>
    simp only [applyFailurePolicyRuleAction, restartJobActionApplier] at hp
    split_ifs at hp
    · cases hp
      exact hreached
    · exact tracks_failurePolicyRecreateJob (by simp [restartReasons]) hp
  | restartJobAndIgnoreMaxRestarts =>
    simp only [applyFailurePolicyRuleAction, restartJobAndIgnoreMaxRestartsActionApplier] at hp
    split_ifs at hp
    exact tracks_failurePolicyRecreateJob (by simp [restartReasons]) hp

theorem tracks_executeFailurePolicy {platform : Platform} {gates : FeatureGates} {now : Time}
    {failed : List Job} {p p' : Pass}
    (hp : executeFailurePolicy platform gates now failed p = .ok p') : Tracks p p' := by
  unfold executeFailurePolicy at hp
  split at hp
  · split at hp
    · cases hp
    · cases hp
      apply tracks_setJobSetFailedCondition
      simp [failureReasons]
  · split at hp
    · cases hp
    · exact tracks_applyFailurePolicyRuleAction hp

theorem tracks_reconcileInPlaceRestart {now : Time} {pods : List Pod} {p p' : Pass}
    (hp : reconcileInPlaceRestart now pods p = .ok p') : Tracks p p' := by
  rcases reconcileInPlaceRestart_effect hp with rfl | rfl | ⟨previous, current, rfl⟩
  · apply tracks_setJobSetFailedCondition
    simp [failureReasons]
  · exact Tracks.refl _
  · exact Tracks.of_eq rfl rfl fun _ => rfl

/-! ## The parts of a reconcile -/

section Parts

variable (env : Env) (p : Pass)

theorem silently_executeSuccessPolicy (successful : List Job) :
    Silently (fun r => (∀ p', r = some p' → ∃ now, p' = setJobSetCompletedCondition now p) ∧
      (r = none → successful = [] ∨ successPolicyMet p.js successful = .ok false))
      (executeSuccessPolicy successful p) := by
  unfold executeSuccessPolicy
  split_ifs with hnil
  · exact ⟨by simp, fun _ => Or.inl hnil⟩
  · apply (Silently.liftExcept fun _ h => h).bind
    intro completed hmet
    cases completed with
    | true =>
      apply silently_readClock.bind
      intro now _
      refine ⟨fun p' hp' => ?_, by simp⟩
      cases hp'
      exact ⟨now, rfl⟩
    | false => exact ⟨by simp, fun _ => Or.inr hmet⟩

theorem silently_reconcileReplicatedJobs (owned : ChildJobs)
    (statuses : List ReplicatedJobStatus) :
    Silently (StartupStep p) (reconcileReplicatedJobs env owned statuses p) := by
  have hloop : ∀ rjobs replicas,
      Silently (StartupStep p) (reconcileReplicatedJobsLoop env owned statuses p rjobs replicas) := by
    intro rjobs
    induction rjobs with
    | nil =>
      intro replicas
      unfold reconcileReplicatedJobsLoop
      split_ifs
      · apply silently_readClock.bind
        exact fun now _ => Or.inr ⟨now, Or.inl rfl⟩
      · exact Or.inl rfl
    | cons rjob rest ih =>
      intro replicas
      unfold reconcileReplicatedJobsLoop
      apply (Silently.liftExcept (Q := fun _ => True) fun _ _ => trivial).bind
      intro created _
      dsimp only
      split_ifs
      · exact ih _
      · apply (Silently.liftExcept (Q := fun _ => True) fun _ _ => trivial).bind
        intro started _
        split_ifs
        · exact ih _
        · apply (silently_createJobs created).bind
          intro _ _
          apply silently_readClock.bind
          exact fun now _ => Or.inr ⟨now, Or.inr rfl⟩
      · exact (silently_createJobs created).bind fun _ _ => ih _
  exact hloop _ _

theorem silently_suspendOrResume (active : List Job) (statuses : List ReplicatedJobStatus) :
    Silently (SuspendStep p.js p) (suspendOrResume env active statuses p) := by
  unfold suspendOrResume
  split_ifs with hsuspended
  · apply (silently_suspendJobsLoop active).bind
    intro _ _
    apply silently_readClock.bind
    exact fun now _ => ⟨now, Or.inl ⟨hsuspended, rfl⟩⟩
  · have hrunning : jobSetSuspended p.js = false := by simpa using hsuspended
    have hloop : ∀ rjobs replicas,
        Silently (SuspendStep p.js p) (resumeJobsLoop env active statuses p rjobs replicas) := by
      intro rjobs
      induction rjobs with
      | nil =>
        intro replicas
        apply silently_readClock.bind
        exact fun now _ => ⟨now, Or.inr ⟨hrunning, Or.inl rfl⟩⟩
      | cons rjob rest ih =>
        intro replicas
        unfold resumeJobsLoop
        dsimp only
        split_ifs
        · exact ih _
        · apply (Silently.liftExcept (Q := fun _ => True) fun _ _ => trivial).bind
          intro started _
          split_ifs
          · exact ih _
          · apply (silently_resumeJobsOf env _ _).bind
            intro _ _
            apply silently_readClock.bind
            exact fun now _ => ⟨now, Or.inr ⟨hrunning, Or.inr rfl⟩⟩
        · exact (silently_resumeJobsOf env _ _).bind fun _ _ => ih _
    exact hloop _ _

theorem silently_reconcileInPlace : Silently (InPlaceStep p) (reconcileInPlace env p) := by
  unfold reconcileInPlace
  split_ifs
  · refine Silently.ask trivial fun answer => ?_
    apply (Silently.liftExcept (Q := fun _ => True) fun _ _ => trivial).bind
    intro pods _
    apply silently_readClock.bind
    intro now _
    exact Silently.liftExcept fun p' hp' => Or.inr ⟨now, pods, hp'⟩
  · exact Or.inl rfl

theorem silently_reconcileExpired (owned : ChildJobs) :
    Silently (fun r => ∃ now, r.1 = setJobSetCompletedCondition now p ∨
      r.1 = failOnActiveDeadline now p) (reconcileExpired owned p) := by
  unfold reconcileExpired
  apply (silently_executeSuccessPolicy p owned.successful).bind
  intro completed h
  cases completed with
  | some p' =>
    obtain ⟨now, hp'⟩ := h.1 p' rfl
    exact ⟨now, Or.inl hp'⟩
  | none =>
    apply (silently_deleteJobs owned.active).bind
    intro _ _
    apply silently_readClock.bind
    exact fun now _ => ⟨now, Or.inr rfl⟩

theorem silently_reconcileFailed (failed : List Job) :
    Silently (fun r => ∃ now now' p',
      executeFailurePolicy env.platform env.gates now failed p = .ok p' ∧
      r.1 = resetStartTimeOnGlobalRestart env.gates now' p.js.status.restarts p')
      (reconcileFailed env failed p) := by
  unfold reconcileFailed
  apply silently_readClock.bind
  intro now _
  apply (Silently.liftExcept fun _ h => h).bind
  intro p' hp'
  apply silently_readClock.bind
  exact fun now' _ => ⟨now, now', p', hp', rfl⟩

theorem silently_reconcileFinished (owned : ChildJobs) :
    Silently (fun r => r.1 = p) (reconcileFinished env owned p) := by
  have hrequeue : Silently (fun r : Pass × ℤ => r.1 = p)
      (requeueFinished p.js >>= fun requeueAfter => pure (p, requeueAfter)) :=
    (silently_requeueFinished p.js).bind fun _ _ => rfl
  unfold reconcileFinished
  apply (silently_deleteJobs owned.active).bind
  intro _ _
  split_ifs
  · refine Silently.ask trivial fun outcome => ?_
    exact (Silently.liftExcept (Q := fun _ => True) fun _ _ => trivial).bind fun _ _ => hrequeue
  · exact hrequeue

/-- The rest of a reconcile once the execution attempts are settled. -/
theorem silently_afterAttempts (owned : ChildJobs) (active : List Job)
    (statuses : List ReplicatedJobStatus) (requeueAfter : ℤ) :
    Silently (fun r => ∃ q₁ q₂, StartupStep p q₁ ∧ SuspendStep q₁.js q₁ q₂ ∧ InPlaceStep q₂ r.1)
      (do
        let p ← reconcileReplicatedJobs env owned statuses p
        let p ← suspendOrResume env active statuses p
        let p ← reconcileInPlace env p
        pure (p, requeueAfter)) := by
  apply (silently_reconcileReplicatedJobs env p owned statuses).bind
  intro q₁ h₁
  apply (silently_suspendOrResume env q₁ active statuses).bind
  intro q₂ h₂
  apply (silently_reconcileInPlace env q₂).bind
  exact fun q₃ h₃ => ⟨q₁, q₂, h₁, h₂, h₃⟩

end Parts

/-! ## The steps of a reconcile -/

theorem tracks_clearRestarting (statuses : List ReplicatedJobStatus) (now : Time) (p : Pass) :
    Tracks p (clearRestarting statuses now p) := by
  unfold clearRestarting
  split_ifs
  · apply tracks_setRestartingConditionFalse
    simp [failureReasons]
  · exact Tracks.refl p

theorem ActivePass.tracks {env : Env} {js : JobSet} {owned : ChildJobs} {p : Pass}
    (h : ActivePass env js owned p) : Tracks (.start js) p := by
  obtain ⟨now, now', rfl⟩ := h
  exact ((tracks_entryPass env js owned).trans (tracks_clearRestarting _ now _)).trans
    (tracks_syncActiveDeadlineStartTime env.gates now' _)

theorem AttemptsStep.tracks {env : Env} {owned : ChildJobs} {active : List Job} {p q : Pass}
    {acked : Option JobSet} (h : AttemptsStep env owned active p acked q) : Tracks p q := by
  cases h with
  | keep h => exact Tracks.refl p
  | start h => exact Tracks.of_eq rfl rfl fun _ => rfl
  | resume h => exact Tracks.of_eq rfl rfl id

theorem StartupStep.tracks {p p' : Pass} (h : StartupStep p p') : Tracks p p' := by
  rcases h with rfl | ⟨now, rfl | rfl⟩
  · exact Tracks.refl _
  · exact tracks_setInOrderStartupPolicyCompletedCondition now p
  · exact tracks_setInOrderStartupPolicyInProgressCondition now p

theorem SuspendStep.tracks {js : JobSet} {p p' : Pass} (h : SuspendStep js p p') :
    Tracks p p' := by
  obtain ⟨now, ⟨-, rfl⟩ | ⟨-, rfl | rfl⟩⟩ := h
  · exact tracks_setJobSetSuspendedCondition now p
  · exact tracks_setJobSetResumedCondition now p
  · exact tracks_setInOrderStartupPolicyInProgressCondition now p

theorem InPlaceStep.tracks {p p' : Pass} (h : InPlaceStep p p') : Tracks p p' := by
  rcases h with rfl | ⟨now, pods, h⟩
  · exact Tracks.refl _
  · exact tracks_reconcileInPlaceRestart h

theorem tracks_failOnActiveDeadline (now : Time) (p : Pass) :
    Tracks p (failOnActiveDeadline now p) := by
  have hreason : "DeadlineExceeded" ∉ failureReasons := by simp [failureReasons]
  have hfailed := tracks_setJobSetFailedCondition now
    ("JobSet was active for longer than the specified deadline of " ++
      itoa (p.js.spec.activeDeadlineSeconds.getD 0) ++ " seconds") p hreason
  exact hfailed.trans (Tracks.of_eq rfl rfl id)

end JobSetOperator
