import JobSetOperator.Controller.Events

/-!
# How a reconcile ends

A reconcile makes silent calls only, apart from the write of the execution attempts,
and comes to the final status write in one of a few ways. `EarlyWrite` says when it
makes that write and `Concludes` what it holds in memory at the end.
-/
namespace JobSetOperator

open Library Library.Program

/-! ## The end of a reconcile -/

/-- What a reconcile holds in memory when it comes to the final status write. -/
inductive Concludes (env : Env) (js : JobSet) (jobs : List Job) : Pass → Prop
  | external : Concludes env js jobs (.start js)
  | finished {owned : ChildJobs} (live : Live env js jobs owned) (h : jobSetFinished js = true) :
    Concludes env js jobs (entryPass env js owned)
  | waiting {owned : ChildJobs} {p : Pass} (undecided : Undecided env js jobs owned p) :
    Concludes env js jobs p
  | completed {owned : ChildJobs} {p : Pass} (undecided : Undecided env js jobs owned p)
    (now : Time) : Concludes env js jobs (setJobSetCompletedCondition now p)
  | expired {owned : ChildJobs} {p : Pass} (undecided : Undecided env js jobs owned p)
    (now : Time) : Concludes env js jobs (failOnActiveDeadline now p)
  | failed {owned : ChildJobs} {p p' : Pass} (undecided : Undecided env js jobs owned p)
    (now now' : Time)
    (h : executeFailurePolicy env.platform env.gates now owned.failed p = .ok p') :
    Concludes env js jobs (resetStartTimeOnGlobalRestart env.gates now' p.js.status.restarts p')
  | running {owned : ChildJobs} {active : List Job} {p q q₁ q₂ q₃ : Pass}
    {acked : Option JobSet} (undecided : Undecided env js jobs owned p)
    (attempts : AttemptsStep env owned active p acked q) (startup : StartupStep q q₁)
    (suspend : SuspendStep q₁.js q₁ q₂) (inPlace : InPlaceStep q₂ q₃) :
    Concludes env js jobs q₃

/-- Everything a reconcile changes is in its queue when it ends. -/
theorem Concludes.tracks {env : Env} {js : JobSet} {jobs : List Job} {p : Pass}
    (h : Concludes env js jobs p) : Tracks (.start js) p := by
  cases h with
  | external => exact Tracks.refl _
  | finished live h => exact tracks_entryPass env js _
  | waiting undecided => exact undecided.passed.tracks
  | completed undecided now =>
    exact undecided.passed.tracks.trans (tracks_setJobSetCompletedCondition now _)
  | expired undecided now => exact undecided.passed.tracks.trans (tracks_failOnActiveDeadline now _)
  | failed undecided now now' h =>
    exact (undecided.passed.tracks.trans (tracks_executeFailurePolicy h)).trans
      (tracks_resetStartTimeOnGlobalRestart _ _ _ _)
  | running undecided attempts startup suspend inPlace =>
    exact (((undecided.passed.tracks.trans attempts.tracks).trans startup.tracks).trans
      suspend.tracks).trans inPlace.tracks

/-! ## The write of the execution attempts -/

theorem ActivePass.staleSchedulingJobs {env : Env} {js : JobSet} {owned : ChildJobs} {p : Pass}
    (h : ActivePass env js owned p) (active : List Job) :
    JobSetOperator.staleSchedulingJobs env p.js active =
      JobSetOperator.staleSchedulingJobs env js active := by
  obtain ⟨conditions, startTime, hjs⟩ := h.js
  rw [hjs]
  rfl

theorem successPolicyMet_of_spec {a b : JobSet} (h : a.spec = b.spec) (successful : List Job) :
    successPolicyMet a successful = successPolicyMet b successful := by
  unfold successPolicyMet numJobsExpectedToSucceed
  rw [h]

theorem patchedCopy_of_spec {env : Env} {a b : JobSet} (h : a.spec = b.spec) :
    PatchedCopy env a = PatchedCopy env b := by
  unfold PatchedCopy desiredScaling
  rw [h]

/-- The status write in the middle of a reconcile: nothing has failed, the success policy is not
met, and the Jobs are about to be resumed. -/
structure EarlyWrite (env : Env) (js : JobSet) (jobs : List Job) (owned : ChildJobs)
    (active : List Job) (p : Pass) (attempts : ℕ) : Prop extends Undecided env js jobs owned p where
  noFailed : owned.failed = []
  unmet : owned.successful = [] ∨ successPolicyMet js owned.successful = .ok false
  fresh : staleSchedulingJobs env js owned.active = false
  scaled : List.Forall₂ (PatchedCopy env js) owned.active active
  resumes : nextExecutionAttempts env p.js active owned.successful owned.failed =
    some (attempts, true)

/-- A call before the final status write. -/
def ReconcileCalls (env : Env) (js : JobSet) (jobs : List Job) (r : Request) : Prop :=
  r.Unlogged ∨ ∃ owned active p attempts, EarlyWrite env js jobs owned active p attempts ∧
    r = .updateStatus (setExecutionAttempts attempts p).js

/-- The program makes such calls only, and what it returns meets `Q`. -/
def Conducts (env : Env) (js : JobSet) (jobs : List Job) {α : Type} (Q : α → Prop)
    (p : Prog α) : Prop :=
  Follows (fun (_ : Unit) r => ReconcileCalls env js jobs r) (fun _ _ _ => ()) (fun _ a => Q a) () p

theorem Silently.conducts {env : Env} {js : JobSet} {jobs : List Job} {α : Type} {Q : α → Prop}
    {p : Prog α} (h : Silently Q p) : Conducts env js jobs Q p := by
  apply Follows.mono h
  · exact fun _ r hr => Or.inl hr
  · exact fun _ _ hQ => hQ

theorem Conducts.bind {env : Env} {js : JobSet} {jobs : List Job} {α β : Type} {R : α → Prop}
    {Q : β → Prop} {p : Prog α} {f : α → Prog β} (hp : Conducts env js jobs R p)
    (hf : ∀ a, R a → Conducts env js jobs Q (f a)) : Conducts env js jobs Q (p >>= f) :=
  Follows.bind hp fun _ a ha => hf a ha

/-! ## The stages of a reconcile -/

section Stages

variable {env : Env} {js : JobSet} {jobs : List Job} {owned : ChildJobs} {p : Pass}

theorem conducts_syncExecutionAttempts {active : List Job}
    (hwrite : ∀ attempts, nextExecutionAttempts env p.js active owned.successful owned.failed =
      some (attempts, true) → EarlyWrite env js jobs owned active p attempts) :
    Conducts env js jobs (fun q => ∃ acked, AttemptsStep env owned active p acked q)
      (syncExecutionAttempts env active owned.successful owned.failed p) := by
  unfold syncExecutionAttempts
  cases hnext : nextExecutionAttempts env p.js active owned.successful owned.failed with
  | none => exact ⟨_, .keep hnext⟩
  | some next =>
    obtain ⟨attempts, written⟩ := next
    cases written with
    | false => exact ⟨_, .start hnext⟩
    | true =>
      refine ⟨Or.inr ⟨owned, active, p, attempts, hwrite attempts hnext, rfl⟩, fun outcome => ?_⟩
      cases outcome with
      | error e => exact trivial
      | ok u => exact ⟨_, .resume hnext⟩

theorem conducts_reconcileJobs (hu : Undecided env js jobs owned p) (hf : owned.failed = [])
    (hunmet : owned.successful = [] ∨ successPolicyMet js owned.successful = .ok false)
    (hfresh : staleSchedulingJobs env js owned.active = false) (requeueAfter : ℤ) :
    Conducts env js jobs (fun r => Concludes env js jobs r.1)
      (reconcileJobs env owned (calculateReplicatedJobStatuses env.gates js owned)
        requeueAfter p) := by
  unfold reconcileJobs
  apply (silently_syncJobScaling env p.js owned.active).conducts.bind
  intro active hscaled
  rw [patchedCopy_of_spec hu.passed.spec] at hscaled
  apply Conducts.bind (conducts_syncExecutionAttempts fun attempts hnext =>
    ⟨hu, hf, hunmet, hfresh, hscaled, hnext⟩)
  rintro q ⟨acked, hattempts⟩
  apply Silently.conducts
  apply (silently_afterAttempts env q owned active _ requeueAfter).mono
  rintro r ⟨q₁, q₂, hstartup, hsuspend, hinPlace⟩
  exact .running hu hattempts hstartup hsuspend hinPlace

theorem conducts_reconcileRunning (hu : Undecided env js jobs owned p) (hf : owned.failed = [])
    (hunmet : owned.successful = [] ∨ successPolicyMet js owned.successful = .ok false)
    (requeueAfter : ℤ) :
    Conducts env js jobs (fun r => Concludes env js jobs r.1)
      (reconcileRunning env owned (calculateReplicatedJobStatuses env.gates js owned)
        requeueAfter p) := by
  unfold reconcileRunning
  apply (silently_reconcileResources env p.js).conducts.bind
  intro goOn _
  rw [hu.passed.staleSchedulingJobs]
  split_ifs with hgo hstale
  · exact .waiting hu
  · apply (silently_deleteJobs owned.active).conducts.bind
    exact fun _ _ => .waiting hu
  · exact conducts_reconcileJobs hu hf hunmet (by simpa using hstale) requeueAfter

theorem conducts_reconcilePolicies (hu : Undecided env js jobs owned p) (requeueAfter : ℤ) :
    Conducts env js jobs (fun r => Concludes env js jobs r.1)
      (reconcilePolicies env owned (calculateReplicatedJobStatuses env.gates js owned)
        requeueAfter p) := by
  unfold reconcilePolicies
  by_cases hf : owned.failed = []
  · rw [if_neg (by simp [hf])]
    apply (silently_executeSuccessPolicy p owned.successful).conducts.bind
    intro completed h
    cases completed with
    | some p' =>
      obtain ⟨now, rfl⟩ := h.1 p' rfl
      exact .completed hu now
    | none =>
      have hunmet := h.2 rfl
      rw [successPolicyMet_of_spec hu.passed.spec] at hunmet
      exact conducts_reconcileRunning hu hf hunmet requeueAfter
  · rw [if_pos hf]
    apply Silently.conducts
    apply (silently_reconcileFailed env p owned.failed).mono
    rintro ⟨q, requeue⟩ ⟨now, now', p', hp', rfl⟩
    exact .failed hu now now' hp'

theorem conducts_reconcileUnfinished (hlive : Live env js jobs owned)
    (hun : jobSetFinished js = false) :
    Conducts env js jobs (fun r => Concludes env js jobs r.1)
      (reconcileUnfinished env owned (calculateReplicatedJobStatuses env.gates js owned)
        (entryPass env js owned)) := by
  unfold reconcileUnfinished
  apply (silently_deleteJobs owned.previous).conducts.bind
  intro _ _
  apply silently_readClock.conducts.bind
  intro now _
  apply silently_readClock.conducts.bind
  intro now' _
  apply silently_readClock.conducts.bind
  intro now'' _
  let p := syncActiveDeadlineStartTime env.gates now' (clearRestarting
    (calculateReplicatedJobStatuses env.gates js owned) now (entryPass env js owned))
  have hu : Undecided env js jobs owned p := ⟨hlive, hun, now, now', rfl⟩
  split
  · split_ifs
    · apply Silently.conducts
      apply (silently_reconcileExpired p owned).mono
      rintro ⟨q, requeue⟩ ⟨now, rfl | rfl⟩
      · exact .completed hu now
      · exact .expired hu now
    · exact conducts_reconcilePolicies hu _
  · exact conducts_reconcilePolicies hu 0

/-- Whatever the API answers, the reconcile makes these calls and comes to one of these ends. -/
theorem conducts_reconcile (hdel : jobSetMarkedForDeletion js = false) :
    Conducts env js jobs (fun r => Concludes env js jobs r.1) (reconcile env js jobs) := by
  unfold reconcile
  by_cases hm : (managedByExternalController js).isSome = true
  · rw [if_pos hm]
    split_ifs
    · apply (silently_requeueFinished js).conducts.bind
      exact fun _ _ => .external
    · exact Concludes.external
  · rw [if_neg hm]
    apply Conducts.bind (Silently.liftExcept fun _ h => h).conducts
    intro owned hsorted
    have hlive : Live env js jobs owned := ⟨hdel, by simpa using hm, hsorted⟩
    have hfinished : jobSetFinished (entryPass env js owned).js = jobSetFinished js := by
      rw [entryPass_js]
      rfl
    change Conducts env js jobs _ (if jobSetFinished (entryPass env js owned).js then _ else _)
    rw [hfinished]
    by_cases hfin : jobSetFinished js = true
    · rw [if_pos hfin]
      apply Silently.conducts
      apply (silently_reconcileFinished env (entryPass env js owned) owned).mono
      rintro ⟨q, requeue⟩ rfl
      exact .finished hlive hfin
    · rw [if_neg hfin]
      exact conducts_reconcileUnfinished hlive (by simpa using hfin)

end Stages

end JobSetOperator
