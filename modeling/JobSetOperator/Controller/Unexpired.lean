import JobSetOperator.Controller.Reports
import JobSetOperator.Controller.StartTime
import Mathlib.Data.List.Sort

/-!
# An unexpired deadline changes nothing else

The reconcile with the deadline gate on and the one with the gate off are compared
call by call, under the same answers. They hold the same JobSet in memory up to its
start time, so they make the same calls, except for a status write that only one of
them needs because of the start time. The comparison ends where the first one finds
the deadline expired.
-/
namespace JobSetOperator

open Library Library.Program

/-! ## Calls that leave the status alone -/

/-- The call does not write the status of the JobSet. -/
def Request.StatusFree : Request → Prop
  | .updateStatus _ => False
  | _ => True

theorem Request.Neutral.statusFree {r : Request} (h : r.Neutral) : r.StatusFree := by
  cases r with
  | updateStatus js => exact h
  | _ => exact trivial

/-- A program that never writes the status. -/
def Statusless {α : Type} (p : Prog α) : Prop :=
  Follows (fun (_ : Unit) r => Request.StatusFree r) (fun _ _ _ => ()) (fun _ _ => True) () p

theorem Quiet.statusless {α : Type} {p : Prog α} (h : Quiet p) : Statusless p :=
  h.mono (fun _ _ hr => hr.statusFree) fun _ _ _ => trivial

theorem Statusless.bind {α β : Type} {p : Prog α} {f : α → Prog β} (hp : Statusless p)
    (hf : ∀ a, Statusless (f a)) : Statusless (p >>= f) :=
  Follows.bind hp fun _ a _ => hf a

theorem statusless_send {r : Request} (hr : r.StatusFree) : Statusless (send r) :=
  ⟨hr, fun _ => trivial⟩

theorem Silently.statusless {α : Type} {Q : α → Prop} {p : Prog α} (h : Silently Q p) :
    Statusless p := by
  apply Follows.mono h
  · intro _ r hr
    cases r with
    | updateStatus js => exact hr
    | _ => exact trivial
  · exact fun _ _ _ => trivial

theorem statusless_deleteJobs (jobs : List Job) : Statusless (deleteJobs jobs) :=
  (silently_deleteJobs jobs).statusless

theorem statusless_createJobs (jobs : List Job) : Statusless (createJobs jobs) :=
  (silently_createJobs jobs).statusless

theorem statusless_syncJobScaling (env : Env) (js : JobSet) (active : List Job) :
    Statusless (syncJobScaling env js active) :=
  (silently_syncJobScaling env js active).statusless

theorem statusless_suspendJobsLoop (jobs : List Job) : Statusless (suspendJobsLoop jobs) :=
  (silently_suspendJobsLoop jobs).statusless

theorem statusless_resumeJobsOf (env : Env) (js : JobSet) (jobs : List Job) :
    Statusless (resumeJobsOf env js jobs) :=
  (silently_resumeJobsOf env js jobs).statusless

/-! ## Passes that differ in the start time only -/

/-- The JobSet as a reader of its status sees it without the start time. The entries
of the ReplicatedJobs are a map, so their order does not count. -/
def JobSet.canonical (js : JobSet) : JobSet :=
  { js with
    status := { js.status with
      startTime := none
      replicatedJobsStatus := sortStatuses js.status.replicatedJobsStatus } }

theorem JobSet.canonical_withStart (st : Option Time) (js : JobSet) :
    (js.withStart st).canonical = js.canonical := rfl

theorem sortStatuses_idem (statuses : List ReplicatedJobStatus) :
    sortStatuses (sortStatuses statuses) = sortStatuses statuses :=
  (sortStatuses_pairwise statuses).insertionSort_eq

/-- Without a status update the pass holds what is saved, and no event waits. -/
def Clean (saved : JobSet) (p : Pass) : Prop :=
  p.opts.shouldUpdate = false → p.js.canonical = saved.canonical ∧ p.opts.events = []

theorem Clean.of_update {saved : JobSet} {p : Pass} (h : p.opts.shouldUpdate = true) :
    Clean saved p := by
  intro hfalse
  rw [h] at hfalse
  cases hfalse

/-- The pass of a JobSet that has not finished. -/
structure Open (saved : JobSet) (p : Pass) : Prop where
  unfinished : jobSetFinished p.js = false
  clean : Clean saved p

theorem Clean.setCondition {saved : JobSet} {p : Pass} (h : Clean saved p) (now : Time)
    (o : ConditionOpts) : Clean saved (setCondition now o p) := by
  unfold JobSetOperator.setCondition
  dsimp only
  split_ifs
  · exact Clean.of_update rfl
  · exact h

theorem Open.setCondition {saved : JobSet} {p : Pass} (h : Open saved p) (now : Time)
    {o : ConditionOpts} (hc : o.condition.type ≠ .jobSetCompleted)
    (hf : o.condition.type ≠ .jobSetFailed) : Open saved (setCondition now o p) := by
  refine ⟨?_, h.clean.setCondition now o⟩
  have hp := h.unfinished
  rw [← Bool.not_eq_true, jobSetFinished_iff] at hp ⊢
  rw [setCondition_js]
  dsimp only
  rwa [updateCondition_other now _ o (Or.inl rfl) hc, updateCondition_other now _ o (Or.inr rfl) hf]

theorem Open.suspended {saved : JobSet} {p : Pass} (h : Open saved p) (now : Time) :
    Open saved (setJobSetSuspendedCondition now p) := by
  apply Open.setCondition
  · exact h.setCondition now nofun nofun
  · nofun
  · nofun

theorem Open.not_condTrue {saved : JobSet} {p : Pass} (h : Open saved p) :
    ¬ CondTrue p.js.status.conditions .jobSetCompleted ∧
      ¬ CondTrue p.js.status.conditions .jobSetFailed := by
  have hp := h.unfinished
  rwa [← Bool.not_eq_true, jobSetFinished_iff, not_or] at hp

theorem Open.completed {saved : JobSet} {p : Pass} (h : Open saved p) (now : Time) :
    Clean saved (setJobSetCompletedCondition now p) :=
  Clean.of_update (setCondition_shouldUpdate (setCondition_update rfl h.not_condTrue.1))

theorem Open.failed {saved : JobSet} {p : Pass} (h : Open saved p) (now : Time)
    (reason msg : String) : Clean saved (setJobSetFailedCondition now reason msg p) :=
  Clean.of_update (setCondition_shouldUpdate (setCondition_update rfl h.not_condTrue.2))

/-! ## The two reconciles side by side -/

/-- Corresponding calls: a status write may differ in the start time. -/
inductive Linked : Request → Request → Prop
  | same {r : Request} (h : r.StatusFree) : Linked r r
  | status {js js' : JobSet} (h : js.SameButStart js') :
    Linked (.updateStatus js) (.updateStatus js')

/-- The saved JobSet after an answer. -/
def acknowledged (saved : JobSet) : (r : Request) → r.Response → JobSet
  | .updateStatus js, .ok _ => js
  | _, _ => saved

/-- The programs make corresponding calls under the same answers. -/
def Alike {α β : Type} (R : JobSet → α → β → Prop) (saved : JobSet) (p : Prog α) (q : Prog β) :
    Prop :=
  Coupled (fun _ => Linked) acknowledged R saved p q

/-- Two passes that hold the same up to the start time and the update it causes. -/
def Near (P : JobSet → Pass → Prop) (saved : JobSet) (p q : Pass) : Prop :=
  ∃ base st st' u u', p = base.retimed st u ∧ q = base.retimed st' u' ∧ P saved base

theorem alike_same {α : Type} {p : Prog α} (h : Statusless p) (saved : JobSet) :
    Alike (fun s a b => a = b ∧ s = saved) saved p p := by
  refine Coupled.refl (fun _ _ hr => Linked.same hr) ?_ h saved
  intro s r x hr
  cases r with
  | updateStatus js => exact hr.elim
  | _ => rfl

/-- The same program first. -/
theorem alike_bind {α β γ : Type} {p : Prog α} {f : α → Prog β} {g : α → Prog γ}
    {R : JobSet → β → γ → Prop} {saved : JobSet} (h : Statusless p)
    (hf : ∀ a, Alike R saved (f a) (g a)) : Alike R saved (p >>= f) (p >>= g) := by
  apply Coupled.bind (alike_same h saved)
  rintro s a b ⟨rfl, rfl⟩
  exact hf a

theorem alike_readClock {β γ : Type} {f : Time → Prog β} {g : Time → Prog γ}
    {R : JobSet → β → γ → Prop} {saved : JobSet} (hf : ∀ now, Alike R saved (f now) (g now)) :
    Alike R saved (readClock >>= f) (readClock >>= g) :=
  alike_bind (statusless_send trivial) hf

theorem alike_liftExcept {α β γ : Type} {x : Except String α} {f : α → Prog β} {g : α → Prog γ}
    {R : JobSet → β → γ → Prop} {saved : JobSet} (hf : ∀ a, x = .ok a → Alike R saved (f a) (g a)) :
    Alike R saved (liftExcept x >>= f) (liftExcept x >>= g) := by
  cases x with
  | error e => exact Coupled.fail e
  | ok a => exact hf a rfl

/-- Two computations that go on with the same value up to the start time. -/
theorem alike_liftExcept_map {β γ : Type} {x : Except String Pass} {f : Pass → Prog β}
    {g : Pass → Prog γ} {R : JobSet → β → γ → Prop} {saved : JobSet} {st st' : Option Time}
    {u u' : Bool}
    (hf : ∀ p, x = .ok p → Alike R saved (f (p.retimed st u)) (g (p.retimed st' u'))) :
    Alike R saved (liftExcept (x.map (Pass.retimed st u)) >>= f)
      (liftExcept (x.map (Pass.retimed st' u')) >>= g) := by
  cases x with
  | error e => exact Coupled.fail e
  | ok p => exact hf p rfl

theorem Pass.retimed_retimed (st st' : Option Time) (u u' : Bool) (p : Pass) :
    (p.retimed st u).retimed st' u' = p.retimed st' (u || u') := by
  simp [Pass.retimed, JobSet.withStart, Bool.or_assoc]

theorem resetStartTimeOnGlobalRestart_retimed (gates : FeatureGates) (now : Time) (before : ℕ)
    (p : Pass) : ∃ st u, resetStartTimeOnGlobalRestart gates now before p = p.retimed st u := by
  unfold resetStartTimeOnGlobalRestart
  split_ifs
  · exact ⟨p.js.status.startTime, false, by simp [Pass.retimed, JobSet.withStart]⟩
  · exact ⟨some now, true, by simp [Pass.retimed, JobSet.withStart, setStartTime]⟩
  · exact ⟨p.js.status.startTime, false, by simp [Pass.retimed, JobSet.withStart]⟩

theorem syncActiveDeadlineStartTime_retimed (gates : FeatureGates) (now : Time) (p : Pass) :
    ∃ st u, syncActiveDeadlineStartTime gates now p = p.retimed st u := by
  unfold syncActiveDeadlineStartTime
  split_ifs
  · exact ⟨none, true, by simp [Pass.retimed, JobSet.withStart, setStartTime]⟩
  · exact ⟨p.js.status.startTime, false, by simp [Pass.retimed, JobSet.withStart]⟩
  · exact ⟨some now, true, by simp [Pass.retimed, JobSet.withStart, setStartTime]⟩
  · exact ⟨p.js.status.startTime, false, by simp [Pass.retimed, JobSet.withStart]⟩

section Sides

variable (env : Env) (on on' : Bool) (st st' : Option Time) (u u' : Bool) {saved : JobSet}
  {base : Pass}

theorem near_setCondition (h : Open saved base) (now : Time) {o : ConditionOpts}
    (hc : o.condition.type ≠ .jobSetCompleted) (hf : o.condition.type ≠ .jobSetFailed) :
    Near Open saved (setCondition now o (base.retimed st u))
      (setCondition now o (base.retimed st' u')) :=
  ⟨setCondition now o base, st, st', u, u', setCondition_retimed st u base now o,
    setCondition_retimed st' u' base now o, h.setCondition now hc hf⟩

theorem alike_syncExecutionAttempts (h : Open saved base) (active successful failed : List Job) :
    Alike (Near Open) saved
      (syncExecutionAttempts (env.withDeadline on) active successful failed (base.retimed st u))
      (syncExecutionAttempts (env.withDeadline on') active successful failed
        (base.retimed st' u')) := by
  have hnext : ∀ on st u, nextExecutionAttempts (env.withDeadline on) (base.retimed st u).js active
      successful failed = nextExecutionAttempts env base.js active successful failed :=
    fun _ _ _ => rfl
  unfold syncExecutionAttempts
  simp only [hnext]
  rcases nextExecutionAttempts env base.js active successful failed with _ | ⟨attempts, _ | _⟩
  · exact .done ⟨base, st, st', u, u', rfl, rfl, h⟩
  · exact .done ⟨(setExecutionAttempts attempts base).requestUpdate, st, st', u, u', rfl, rfl,
      h.unfinished, Clean.of_update rfl⟩
  · refine .call (.status rfl) rfl fun outcome => ?_
    cases outcome with
    | error e => exact .fail e
    | ok _ =>
      refine .done ⟨setExecutionAttempts attempts base, st, st', u, u', rfl, rfl, h.unfinished, ?_⟩
      intro hclean
      exact ⟨rfl, (h.clean hclean).2⟩

theorem alike_reconcileReplicatedJobs (h : Open saved base) (ownedJobs : ChildJobs)
    (statuses : List ReplicatedJobStatus) :
    Alike (Near Open) saved
      (reconcileReplicatedJobs (env.withDeadline on) ownedJobs statuses (base.retimed st u))
      (reconcileReplicatedJobs (env.withDeadline on') ownedJobs statuses (base.retimed st' u')) := by
  have hwaits : ∀ st, waitsInOrder (base.js.withStart st) = waitsInOrder base.js := fun _ => rfl
  have hloop : ∀ rjobs replicas, Alike (Near Open) saved
      (reconcileReplicatedJobsLoop (env.withDeadline on) ownedJobs statuses (base.retimed st u)
        rjobs replicas)
      (reconcileReplicatedJobsLoop (env.withDeadline on') ownedJobs statuses (base.retimed st' u')
        rjobs replicas) := by
    intro rjobs
    induction rjobs with
    | nil =>
      intro replicas
      unfold reconcileReplicatedJobsLoop
      simp only [Pass.retimed_js, hwaits]
      split_ifs
      · exact alike_readClock fun now =>
          .done (near_setCondition st st' u u' h now nofun nofun)
      · exact .done ⟨base, st, st', u, u', rfl, rfl, h⟩
    | cons rjob rest ih =>
      intro replicas
      unfold reconcileReplicatedJobsLoop
      simp only [hwaits, Pass.retimed_js, constructJobsFromTemplate_withStart]
      refine alike_liftExcept fun jobs _ => ?_
      split_ifs
      · exact ih _
      · refine alike_liftExcept fun started _ => ?_
        split_ifs
        · exact ih _
        · refine alike_bind (statusless_createJobs jobs) fun _ => ?_
          exact alike_readClock fun now =>
            .done (near_setCondition st st' u u' h now nofun nofun)
      · exact alike_bind (statusless_createJobs jobs) fun _ => ih _
  exact hloop base.js.spec.replicatedJobs fun _ => 0

theorem alike_suspendOrResume (h : Open saved base) (active : List Job)
    (statuses : List ReplicatedJobStatus) :
    Alike (Near Open) saved
      (suspendOrResume (env.withDeadline on) active statuses (base.retimed st u))
      (suspendOrResume (env.withDeadline on') active statuses (base.retimed st' u')) := by
  have hloop : ∀ rjobs replicas, Alike (Near Open) saved
      (resumeJobsLoop (env.withDeadline on) active statuses (base.retimed st u) rjobs replicas)
      (resumeJobsLoop (env.withDeadline on') active statuses (base.retimed st' u') rjobs
        replicas) := by
    intro rjobs
    induction rjobs with
    | nil =>
      intro replicas
      exact alike_readClock fun now => .done (near_setCondition st st' u u' h now nofun nofun)
    | cons rjob rest ih =>
      intro replicas
      unfold resumeJobsLoop
      simp only [Pass.retimed_js, JobSet.withStart_spec, resumeJobsOf_withStart]
      split_ifs
      · exact ih _
      · refine alike_liftExcept fun started _ => ?_
        split_ifs
        · exact ih _
        · refine alike_bind (statusless_resumeJobsOf env _ _) fun _ => ?_
          exact alike_readClock fun now => .done (near_setCondition st st' u u' h now nofun nofun)
      · exact alike_bind (statusless_resumeJobsOf env _ _) fun _ => ih _
  unfold suspendOrResume
  by_cases hs : jobSetSuspended base.js = true
  · simp only [Pass.retimed_js, jobSetSuspended_withStart, hs, if_true]
    refine alike_bind (statusless_suspendJobsLoop active) fun _ => ?_
    refine alike_readClock fun now => ?_
    rw [setJobSetSuspendedCondition_retimed, setJobSetSuspendedCondition_retimed]
    exact .done ⟨setJobSetSuspendedCondition now base, st, st', u, u', rfl, rfl, h.suspended now⟩
  · simp only [Pass.retimed_js, jobSetSuspended_withStart, hs]
    exact hloop base.js.spec.replicatedJobs fun _ => 0

theorem reconcileInPlaceRestart_clean {now : Time} {pods : List Pod} {p : Pass}
    (h : Open saved base) (hp : reconcileInPlaceRestart now pods base = .ok p) :
    Clean saved p := by
  rcases reconcileInPlaceRestart_effect hp with rfl | rfl | ⟨previous, current, rfl⟩
  · exact h.failed now _ _
  · exact h.clean
  · exact Clean.of_update rfl

theorem alike_reconcileInPlace (h : Open saved base) :
    Alike (Near Clean) saved (reconcileInPlace (env.withDeadline on) (base.retimed st u))
      (reconcileInPlace (env.withDeadline on') (base.retimed st' u')) := by
  have hstrategy : ∀ st u, isInPlaceRestartStrategy (base.retimed st u).js =
      isInPlaceRestartStrategy base.js := fun _ _ => rfl
  have hgate : ∀ on, (env.withDeadline on).gates.inPlaceRestart = env.gates.inPlaceRestart :=
    fun _ => rfl
  unfold reconcileInPlace
  simp only [hstrategy, hgate, reconcileInPlaceRestart_retimed]
  split_ifs
  · refine alike_bind (statusless_send trivial) fun answer => ?_
    refine alike_liftExcept fun pods _ => ?_
    refine alike_readClock fun now => ?_
    cases hx : reconcileInPlaceRestart now pods base with
    | error e => exact .fail e
    | ok p => exact .done ⟨p, st, st', u, u', rfl, rfl, reconcileInPlaceRestart_clean h hx⟩
  · exact .done ⟨base, st, st', u, u', rfl, rfl, h.clean⟩

theorem alike_reconcileJobs (h : Open saved base) (ownedJobs : ChildJobs)
    (statuses : List ReplicatedJobStatus) (requeue requeue' : ℤ) :
    Alike (fun s a b => Near Clean s a.1 b.1) saved
      (reconcileJobs (env.withDeadline on) ownedJobs statuses requeue (base.retimed st u))
      (reconcileJobs (env.withDeadline on') ownedJobs statuses requeue' (base.retimed st' u')) := by
  unfold reconcileJobs
  simp only [Pass.retimed_js, syncJobScaling_withStart]
  refine alike_bind (statusless_syncJobScaling env _ _) fun active => ?_
  apply Coupled.bind (alike_syncExecutionAttempts env on on' st st' u u' h active _ _)
  rintro s p p' ⟨base₁, st₁, st₁', u₁, u₁', rfl, rfl, h₁⟩
  apply Coupled.bind (alike_reconcileReplicatedJobs env on on' st₁ st₁' u₁ u₁' h₁ ownedJobs statuses)
  rintro s p p' ⟨base₂, st₂, st₂', u₂, u₂', rfl, rfl, h₂⟩
  apply Coupled.bind (alike_suspendOrResume env on on' st₂ st₂' u₂ u₂' h₂ active statuses)
  rintro s p p' ⟨base₃, st₃, st₃', u₃, u₃', rfl, rfl, h₃⟩
  apply Coupled.bind (alike_reconcileInPlace env on on' st₃ st₃' u₃ u₃' h₃)
  intro s p p' hnear
  exact .done hnear

theorem alike_reconcileRunning (h : Open saved base) (ownedJobs : ChildJobs)
    (statuses : List ReplicatedJobStatus) (requeue requeue' : ℤ) :
    Alike (fun s a b => Near Clean s a.1 b.1) saved
      (reconcileRunning (env.withDeadline on) ownedJobs statuses requeue (base.retimed st u))
      (reconcileRunning (env.withDeadline on') ownedJobs statuses requeue' (base.retimed st' u')) := by
  have hnear : Near Clean saved (base.retimed st u) (base.retimed st' u') :=
    ⟨base, st, st', u, u', rfl, rfl, h.clean⟩
  unfold reconcileRunning
  simp only [Pass.retimed_js, reconcileResources_withStart, staleSchedulingJobs_withStart]
  refine alike_bind (quiet_reconcileResources env _).statusless fun goOn => ?_
  cases goOn with
  | false => exact .done hnear
  | true =>
    by_cases hstale : staleSchedulingJobs env base.js ownedJobs.active = true
    · simp only [hstale, if_true, Bool.not_true, Bool.false_eq_true, if_false]
      refine alike_bind (statusless_deleteJobs _) fun _ => ?_
      exact .done hnear
    · simp only [hstale, Bool.not_true, Bool.false_eq_true, if_false]
      exact alike_reconcileJobs env on on' st st' u u' h ownedJobs statuses requeue requeue'

theorem failurePolicyRecreateJob_update {job : Job} {count : Bool} {event : EventParams} {p p' : Pass}
    (h : failurePolicyRecreateJob job count event p = .ok p') : p'.opts.shouldUpdate = true := by
  unfold failurePolicyRecreateJob at h
  obtain ⟨name, -, h⟩ := except_bind_ok h
  obtain ⟨text, -, h⟩ := except_bind_ok h
  obtain ⟨index, -, h⟩ := except_bind_ok h
  obtain ⟨restarts, -, h⟩ := except_bind_ok h
  dsimp only at h
  split_ifs at h
  · obtain ⟨counted, -, h⟩ := except_bind_ok h
    cases h
    rfl
  · cases h
    rfl

/-- Whatever the failure policy does, it asks for a status update. -/
theorem executeFailurePolicy_clean {platform : Platform} {gates : FeatureGates} {now : Time}
    {failed : List Job} {p : Pass} (h : Open saved base)
    (hp : executeFailurePolicy platform gates now failed base = .ok p) : Clean saved p := by
  obtain ⟨reason, msg, -, rfl⟩ | ⟨fp, job, count, event, o, -, -, -, -, rfl⟩ |
    ⟨fp, job, count, event, -, -, -, -, hjob⟩ := executeFailurePolicy_cases hp
  · exact h.failed now reason msg
  · exact Clean.of_update (setCondition_shouldUpdate rfl)
  · exact Clean.of_update (failurePolicyRecreateJob_update hjob)

theorem alike_reconcileFailed (h : Open saved base) (failed : List Job) :
    Alike (fun s a b => Near Clean s a.1 b.1) saved
      (reconcileFailed (env.withDeadline on) failed (base.retimed st u))
      (reconcileFailed (env.withDeadline on') failed (base.retimed st' u')) := by
  unfold reconcileFailed
  simp only [executeFailurePolicy_retimed]
  refine alike_readClock fun now => alike_liftExcept_map fun p hp => ?_
  refine alike_readClock fun now' => .done ?_
  obtain ⟨st₁, u₁, h₁⟩ := resetStartTimeOnGlobalRestart_retimed (env.withDeadline on).gates now'
    (base.retimed st u).js.status.restarts (p.retimed st u)
  obtain ⟨st₂, u₂, h₂⟩ := resetStartTimeOnGlobalRestart_retimed (env.withDeadline on').gates now'
    (base.retimed st' u').js.status.restarts (p.retimed st' u')
  rw [Pass.retimed_retimed] at h₁ h₂
  exact ⟨p, st₁, st₂, _, _, h₁, h₂, executeFailurePolicy_clean h hp⟩

theorem alike_executeSuccessPolicy (h : Open saved base) (successful : List Job) :
    Alike (fun s a b => (a = none ∧ b = none ∧ s = saved) ∨
        ∃ p q, a = some p ∧ b = some q ∧ Near Clean s p q) saved
      (executeSuccessPolicy successful (base.retimed st u))
      (executeSuccessPolicy successful (base.retimed st' u')) := by
  have hmet : ∀ st u, successPolicyMet (base.retimed st u).js successful =
      successPolicyMet base.js successful := fun _ _ => rfl
  unfold executeSuccessPolicy
  simp only [hmet, setJobSetCompletedCondition_retimed]
  split_ifs
  · exact .done (Or.inl ⟨rfl, rfl, rfl⟩)
  · refine alike_liftExcept fun completed _ => ?_
    split_ifs
    · refine alike_readClock fun now => .done (Or.inr ⟨_, _, rfl, rfl, ?_⟩)
      exact ⟨_, st, st', u, u', rfl, rfl, h.completed now⟩
    · exact .done (Or.inl ⟨rfl, rfl, rfl⟩)

theorem alike_reconcilePolicies (h : Open saved base) (ownedJobs : ChildJobs)
    (statuses : List ReplicatedJobStatus) (requeue requeue' : ℤ) :
    Alike (fun s a b => Near Clean s a.1 b.1) saved
      (reconcilePolicies (env.withDeadline on) ownedJobs statuses requeue (base.retimed st u))
      (reconcilePolicies (env.withDeadline on') ownedJobs statuses requeue'
        (base.retimed st' u')) := by
  unfold reconcilePolicies
  split_ifs
  · exact alike_reconcileFailed env on on' st st' u u' h ownedJobs.failed
  · apply Coupled.bind (alike_executeSuccessPolicy st st' u u' h ownedJobs.successful)
    rintro s a b (⟨rfl, rfl, rfl⟩ | ⟨p, q, rfl, rfl, hnear⟩)
    · exact alike_reconcileRunning env on on' st st' u u' h ownedJobs statuses requeue requeue'
    · exact .done hnear

end Sides

/-! ## Whole reconciles -/

/-- The part of `reconcileUnfinished` that follows the last clock reading. -/
def checkDeadline (env : Env) (ownedJobs : ChildJobs) (statuses : List ReplicatedJobStatus)
    (now : Time) (p : Pass) : Prog (Pass × ℤ) :=
  match activeDeadlineRemaining env.gates now p.js with
  | some remaining =>
    if remaining ≤ 0 then reconcileExpired ownedJobs p
    else reconcilePolicies env ownedJobs statuses remaining p
  | none => reconcilePolicies env ownedJobs statuses 0 p

/-- Two reconciles, of the controller `env` with the deadline gate and of the one
without it, that do the same from a saved JobSet, as long as they get the same
answers. They may return different requeue times. -/
inductive SameRun (env : Env) : JobSet → Prog ℤ → Prog ℤ → Prop
  | done {saved : JobSet} (requeue requeue' : ℤ) : SameRun env saved (.done requeue) (.done requeue')
  | fail {saved : JobSet} (e : String) : SameRun env saved (.fail e) (.fail e)
  /-- Both make the same call and go on with the same answer. -/
  | call {saved : JobSet} {r : Request} {k k' : r.Response → Prog ℤ} (hr : r.StatusFree)
    (h : ∀ x, SameRun env saved (k x) (k' x)) : SameRun env saved (.call r k) (.call r k')
  /-- Both write a status, the same but for the start time. -/
  | status {saved js js' : JobSet} {k k' : Outcome → Prog ℤ} (hjs : js.SameButStart js')
    (hok : SameRun env js (k (.ok ())) (k' (.ok ())))
    (herr : ∀ e, SameRun env saved (k (.error e)) (k' (.error e))) :
    SameRun env saved (.call (.updateStatus js) k) (.call (.updateStatus js') k')
  /-- Only the first writes the status at its end: what is saved, but for the start time. -/
  | first {saved js : JobSet} {k : Outcome → Prog ℤ} {requeue requeue' : ℤ}
    (hjs : js.canonical = saved.canonical) (hok : k (.ok ()) = .done requeue)
    (herr : ∀ e, k (.error e) = .fail e) :
    SameRun env saved (.call (.updateStatus js) k) (.done requeue')
  /-- Only the second writes the status at its end. -/
  | second {saved js : JobSet} {k : Outcome → Prog ℤ} {requeue requeue' : ℤ}
    (hjs : js.canonical = saved.canonical) (hok : k (.ok ()) = .done requeue')
    (herr : ∀ e, k (.error e) = .fail e) :
    SameRun env saved (.done requeue) (.call (.updateStatus js) k)
  /-- The first finds its deadline expired. -/
  | expired {saved : JobSet} {ownedJobs : ChildJobs} {statuses : List ReplicatedJobStatus}
    {now : Time} {p : Pass} {remaining : ℤ} {rest : Pass × ℤ → Prog ℤ} {q : Prog ℤ}
    (h : activeDeadlineRemaining env.gates now p.js = some remaining) (hle : remaining ≤ 0) :
    SameRun env saved (checkDeadline env ownedJobs statuses now p >>= rest) q

section Whole

variable {env : Env} {saved : JobSet}

theorem SameRun.of_alike {α β : Type} {R : JobSet → α → β → Prop} {p : Prog α} {q : Prog β}
    {f : α → Prog ℤ} {g : β → Prog ℤ} (h : Alike R saved p q)
    (hf : ∀ s a b, R s a b → SameRun env s (f a) (g b)) :
    SameRun env saved (p >>= f) (q >>= g) := by
  unfold Alike at h
  induction h with
  | done h => exact hf _ _ _ h
  | fail e => exact .fail e
  | @call s r r' k k' hlink hresp _ ih =>
    cases hlink with
    | same hr =>
      refine .call hr fun x => ?_
      have hnext : acknowledged s r x = s := by
        cases r with
        | updateStatus js => exact hr.elim
        | _ => rfl
      have hx := ih x
      rw [hnext] at hx
      exact hx
    | status hjs =>
      apply SameRun.status hjs
      · exact ih (.ok ())
      · intro e
        exact ih (.error e)

theorem SameRun.bind {α : Type} {p : Prog α} {f g : α → Prog ℤ} (h : Statusless p)
    (hf : ∀ a, SameRun env saved (f a) (g a)) : SameRun env saved (p >>= f) (p >>= g) := by
  apply SameRun.of_alike (alike_same h saved)
  rintro s a b ⟨rfl, rfl⟩
  exact hf a

theorem SameRun.liftExcept {α : Type} {x : Except String α} {f g : α → Prog ℤ}
    (hf : ∀ a, x = .ok a → SameRun env saved (f a) (g a)) :
    SameRun env saved (liftExcept x >>= f) (liftExcept x >>= g) := by
  cases x with
  | error e => exact .fail e
  | ok a => exact hf a rfl

/-- The last part of `reconcileRequest`. -/
def finish (r : Pass × ℤ) : Prog ℤ := updateJobSetStatus r.1 >>= fun _ => pure r.2

theorem SameRun.emitEvents (events : List EventParams) (requeue requeue' : ℤ) :
    SameRun env saved (emitEvents events >>= fun _ => pure requeue)
      (JobSetOperator.emitEvents events >>= fun _ => pure requeue') :=
  SameRun.bind (quiet_emitEvents events).statusless fun _ => .done requeue requeue'

theorem SameRun.finish {p q : Pass} (h : Near Clean saved p q) (requeue requeue' : ℤ) :
    SameRun env saved (finish (p, requeue)) (JobSetOperator.finish (q, requeue')) := by
  obtain ⟨base, st, st', u, u', rfl, rfl, hclean⟩ := h
  unfold JobSetOperator.finish updateJobSetStatus
  simp only [Program.assoc]
  refine SameRun.bind (quiet_countMetrics base.metrics).statusless fun _ => ?_
  have hsame : (base.js.withStart st).SameButStart (base.js.withStart st') := rfl
  cases hu : base.opts.shouldUpdate with
  | true =>
    simp only [Pass.retimed, hu, Bool.true_or, if_true]
    apply SameRun.status hsame
    · exact SameRun.emitEvents base.opts.events requeue requeue'
    · exact fun e => .fail e
  | false =>
    obtain ⟨hcanonical, hevents⟩ := hclean hu
    -- without an update of its own the pass has no events to emit
    cases u <;> cases u' <;> simp only [Pass.retimed, hu, hevents]
    · exact .done requeue requeue'
    · exact .second hcanonical rfl fun _ => rfl
    · exact .first hcanonical rfl fun _ => rfl
    · exact .status hsame (.done requeue requeue') fun e => .fail e

theorem near_refl {p : Pass} (h : Clean saved p) : Near Clean saved p p := by
  have hp : p = p.retimed p.js.status.startTime false := by simp [Pass.retimed, JobSet.withStart]
  exact ⟨p, _, _, _, _, hp, hp, h⟩

theorem clean_entryPass (env : Env) (js : JobSet) (owned : ChildJobs) :
    Clean js (entryPass env js owned) := by
  intro hupdate
  unfold entryPass updateReplicatedJobsStatuses at hupdate ⊢
  dsimp only at hupdate ⊢
  split_ifs at hupdate ⊢ with hsorted
  refine ⟨?_, rfl⟩
  unfold JobSet.canonical
  dsimp only
  rw [sortStatuses_idem, ← hsorted]
  rfl

/-- The passes of the two controllers when they check the deadline. -/
theorem near_syncActiveDeadlineStartTime (env : Env) (on on' : Bool) (now : Time) (p : Pass) :
    ∃ st st' u u',
      syncActiveDeadlineStartTime (env.withDeadline on).gates now p = p.retimed st u ∧
        syncActiveDeadlineStartTime (env.withDeadline on').gates now p = p.retimed st' u' := by
  obtain ⟨st, u, h⟩ := syncActiveDeadlineStartTime_retimed (env.withDeadline on).gates now p
  obtain ⟨st', u', h'⟩ := syncActiveDeadlineStartTime_retimed (env.withDeadline on').gates now p
  exact ⟨st, st', u, u', h, h'⟩

theorem sameRun_checkDeadline {base : Pass} (h : Open saved base) (st st' : Option Time)
    (u u' : Bool) (ownedJobs : ChildJobs) (statuses : List ReplicatedJobStatus) (now : Time) :
    SameRun (env.withDeadline true) saved
      (checkDeadline (env.withDeadline true) ownedJobs statuses now (base.retimed st u) >>= finish)
      (checkDeadline (env.withDeadline false) ownedJobs statuses now (base.retimed st' u') >>=
        finish) := by
  have hoff : checkDeadline (env.withDeadline false) ownedJobs statuses now (base.retimed st' u') =
      reconcilePolicies (env.withDeadline false) ownedJobs statuses 0 (base.retimed st' u') := rfl
  have hgoOn : ∀ requeue, SameRun (env.withDeadline true) saved
      (reconcilePolicies (env.withDeadline true) ownedJobs statuses requeue (base.retimed st u) >>=
        finish)
      (reconcilePolicies (env.withDeadline false) ownedJobs statuses 0 (base.retimed st' u') >>=
        finish) := by
    intro requeue
    apply SameRun.of_alike (alike_reconcilePolicies env true false st st' u u' h ownedJobs statuses
      requeue 0)
    intro s a b hnear
    exact SameRun.finish hnear a.2 b.2
  rw [hoff]
  cases hremaining : activeDeadlineRemaining (env.withDeadline true).gates now
      (base.retimed st u).js with
  | none =>
    have hon : checkDeadline (env.withDeadline true) ownedJobs statuses now (base.retimed st u) =
        reconcilePolicies (env.withDeadline true) ownedJobs statuses 0 (base.retimed st u) := by
      simp only [checkDeadline, hremaining]
    rw [hon]
    exact hgoOn 0
  | some remaining =>
    by_cases hle : remaining ≤ 0
    · exact .expired hremaining hle
    · have hon : checkDeadline (env.withDeadline true) ownedJobs statuses now (base.retimed st u) =
          reconcilePolicies (env.withDeadline true) ownedJobs statuses remaining
            (base.retimed st u) := by
        simp only [checkDeadline, hremaining, hle, if_false]
      rw [hon]
      exact hgoOn remaining

theorem sameRun_reconcileUnfinished {p : Pass} (h : Open saved p) (ownedJobs : ChildJobs)
    (statuses : List ReplicatedJobStatus) :
    SameRun (env.withDeadline true) saved
      (reconcileUnfinished (env.withDeadline true) ownedJobs statuses p >>= finish)
      (reconcileUnfinished (env.withDeadline false) ownedJobs statuses p >>= finish) := by
  unfold reconcileUnfinished
  simp only [Program.assoc]
  refine SameRun.bind (statusless_deleteJobs _) fun _ => ?_
  refine SameRun.bind (statusless_send trivial) fun now => ?_
  refine SameRun.bind (statusless_send trivial) fun now' => ?_
  refine SameRun.bind (statusless_send trivial) fun now'' => ?_
  have hcleared : Open saved (clearRestarting statuses now p) := by
    unfold clearRestarting
    split_ifs
    · exact h.setCondition now nofun nofun
    · exact h
  obtain ⟨st, st', u, u', hon, hoff⟩ :=
    near_syncActiveDeadlineStartTime env true false now' (clearRestarting statuses now p)
  rw [hon, hoff]
  exact sameRun_checkDeadline hcleared st st' u u' ownedJobs statuses now''

theorem sameRun_reconcileFinished {p : Pass} (h : Clean saved p) (ownedJobs : ChildJobs) :
    SameRun (env.withDeadline true) saved (reconcileFinished env ownedJobs p >>= finish)
      (reconcileFinished env ownedJobs p >>= finish) := by
  have hrequeue : SameRun (env.withDeadline true) saved
      ((requeueFinished p.js >>= fun requeue => pure (p, requeue)) >>= finish)
      ((requeueFinished p.js >>= fun requeue => pure (p, requeue)) >>= finish) := by
    simp only [Program.assoc]
    refine SameRun.bind (quiet_requeueFinished p.js).statusless fun requeue => ?_
    exact SameRun.finish (near_refl h) requeue requeue
  unfold reconcileFinished
  rw [Program.assoc]
  refine SameRun.bind (statusless_deleteJobs _) fun _ => ?_
  split_ifs
  · refine SameRun.call trivial fun outcome => ?_
    cases outcome with
    | error e => exact .fail e
    | ok _ => exact hrequeue
  · exact hrequeue

end Whole

end JobSetOperator
