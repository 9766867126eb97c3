import JobSetOperator.Controller.Discipline

/-!
# Calls that neither write the status nor flush an event

Apart from its status writes, a reconcile emits events at once only to report a
failed call, and it counts no metric. `Silently` says of a part of a reconcile that it
does nothing else with the status, the events and the metrics, together with what it
returns.
-/
namespace JobSetOperator

open Library Library.Program

/-- The reasons of the events that report a failed call. -/
def failureReasons : List String :=
  ["JobCreationFailed", "HeadlessServiceCreationFailed", "PVCCreationFailed",
    "SchedulingObjectsReconcileFailed"]

/-- The call neither writes the status of the JobSet nor counts a metric, and an event reports
a failure. -/
def Request.Unlogged : Request → Prop
  | .updateStatus _ => False
  | .countMetric _ => False
  | .emitEvent event => event.eventReason ∈ failureReasons
  | _ => True

/-- Whatever the answers are, the program makes such calls only, and what it returns
meets `Q`. -/
def Silently {α : Type} (Q : α → Prop) (p : Prog α) : Prop :=
  Follows (fun (_ : Unit) r => Request.Unlogged r) (fun _ _ _ => ()) (fun _ a => Q a) () p

namespace Silently

variable {α β : Type} {Q : α → Prop}

theorem bind {R : α → Prop} {Q : β → Prop} {p : Prog α} {f : α → Prog β} (hp : Silently R p)
    (hf : ∀ a, R a → Silently Q (f a)) : Silently Q (p >>= f) :=
  Follows.bind hp fun _ a ha => hf a ha

theorem done {a : α} (h : Q a) : Silently Q (.done a) := h

theorem fail (e : String) : Silently Q (.fail e) := trivial

theorem send {r : Request} (hr : r.Unlogged) : Silently (fun _ => True) (send r) :=
  ⟨hr, fun _ => trivial⟩

theorem liftExcept {e : Except String α} (h : ∀ a, e = .ok a → Q a) :
    Silently Q (liftExcept e) := by
  cases e with
  | ok a => exact h a rfl
  | error e => exact trivial

theorem mono {Q' : α → Prop} {p : Prog α} (h : Silently Q p) (hQ : ∀ a, Q a → Q' a) :
    Silently Q' p :=
  Follows.mono h (fun _ _ hr => hr) fun _ => hQ

/-- One call. -/
theorem ask {r : Request} {f : r.Response → Prog β} {Q : β → Prop} (hr : r.Unlogged)
    (hf : ∀ x, Silently Q (f x)) : Silently Q (JobSetOperator.send r >>= f) :=
  ⟨hr, hf⟩

end Silently

theorem silently_readClock : Silently (fun _ => True) readClock := Silently.send trivial

theorem silently_joinErrors (errs : List String) :
    Silently (fun _ => True) (joinErrors errs) := by
  unfold joinErrors
  split_ifs <;> exact trivial

/-! ## Jobs -/

theorem silently_deleteJobs (jobs : List Job) : Silently (fun _ => True) (deleteJobs jobs) := by
  have hloop : ∀ jobs, Silently (fun _ => True) (deleteJobsLoop jobs) := by
    intro jobs
    induction jobs with
    | nil => exact trivial
    | cons job rest ih =>
      unfold deleteJobsLoop
      split_ifs
      · exact ih
      · refine Silently.ask trivial fun outcome => ?_
        exact ih.bind fun _ _ => trivial
  exact (hloop jobs).bind fun _ _ => silently_joinErrors _

theorem silently_createJobs (jobs : List Job) : Silently (fun _ => True) (createJobs jobs) := by
  have hloop : ∀ jobs, Silently (fun _ => True) (createJobsLoop jobs) := by
    intro jobs
    induction jobs with
    | nil => exact trivial
    | cons job rest ih =>
      refine Silently.ask trivial fun outcome => ?_
      exact ih.bind fun _ _ => trivial
  apply (hloop jobs).bind
  intro errs _
  split_ifs
  · exact trivial
  · refine Silently.ask (by simp [Request.Unlogged, failureReasons]) fun _ => ?_
    exact silently_joinErrors _

/-- A Job in memory after scaling: the answer to a patch takes the place of the copy. -/
def PatchedCopy (env : Env) (js : JobSet) (job job' : Job) : Prop :=
  job' = job ∨ (env.gates.elasticJobSet = true ∧ ∃ parallelism completions,
    desiredScaling js job = some (parallelism, completions) ∧
      jobScalingNeedsPatch job parallelism completions = true)

theorem silently_syncJobScaling (env : Env) (js : JobSet) (active : List Job) :
    Silently (List.Forall₂ (PatchedCopy env js) active) (syncJobScaling env js active) := by
  have hloop : env.gates.elasticJobSet = true → ∀ jobs,
      Silently (fun r => r.2 = [] → List.Forall₂ (PatchedCopy env js) jobs r.1)
        (syncJobScalingLoop js jobs) := by
    intro hgate jobs
    induction jobs with
    | nil => exact fun _ => List.Forall₂.nil
    | cons job rest ih =>
      -- a Job that is left alone keeps its copy
      have hkeep : Silently (fun r => r.2 = [] → List.Forall₂ (PatchedCopy env js) (job :: rest) r.1)
          (syncJobScalingLoop js rest >>= fun r => pure (job :: r.1, r.2)) := by
        apply ih.bind
        exact fun r hr herrs => List.Forall₂.cons (Or.inl rfl) (hr herrs)
      unfold syncJobScalingLoop
      split
      · rename_i parallelism completions hdesired
        split_ifs with hneeds
        · refine Silently.ask trivial fun answer => ?_
          apply ih.bind
          intro r hr
          cases answer with
          | ok stored =>
            intro herrs
            exact List.Forall₂.cons (Or.inr ⟨hgate, _, _, hdesired, hneeds⟩) (hr herrs)
          | error e =>
            intro herrs
            cases herrs
        · exact hkeep
      · exact hkeep
  unfold syncJobScaling
  split_ifs with hgate
  · exact List.forall₂_same.mpr fun _ _ => Or.inl rfl
  · apply (hloop (by simpa using hgate) active).bind
    rintro ⟨scaled, errs⟩ hr
    unfold joinErrors
    by_cases herrs : errs = []
    · dsimp only
      rw [if_pos herrs]
      exact hr herrs
    · dsimp only
      rw [if_neg herrs]
      exact trivial

theorem silently_suspendJobsLoop (jobs : List Job) :
    Silently (fun _ => True) (suspendJobsLoop jobs) := by
  induction jobs with
  | nil => exact trivial
  | cons job rest ih =>
    unfold suspendJobsLoop
    split_ifs
    · exact ih
    · refine Silently.ask trivial fun outcome => ?_
      exact (Silently.liftExcept (Q := fun _ => True) fun _ _ => trivial).bind fun _ _ => ih

theorem silently_resumeJobsOf (env : Env) (js : JobSet) (jobs : List Job) :
    Silently (fun _ => True) (resumeJobsOf env js jobs) := by
  have hwrite : ∀ job, Silently (fun _ => True)
      (send (.updateJob job) >>= fun outcome => liftExcept outcome) := by
    intro job
    refine Silently.ask trivial fun outcome => ?_
    exact Silently.liftExcept fun _ _ => trivial
  have hresume : ∀ job, Silently (fun _ => True) (resumeJob env js job) := by
    intro job
    unfold resumeJob
    split_ifs
    · refine Silently.ask trivial fun answer => ?_
      exact (Silently.liftExcept (Q := fun _ => True) fun _ _ => trivial).bind fun _ _ =>
        hwrite _
    · exact hwrite _
  induction jobs with
  | nil => exact trivial
  | cons job rest ih =>
    unfold resumeJobsOf
    split_ifs
    · exact ih
    · exact (hresume job).bind fun _ _ => ih

/-! ## Other objects -/

theorem silently_requeueFinished (js : JobSet) :
    Silently (fun _ => True) (requeueFinished js) := by
  have hlift : ∀ e : Except String ℤ, Silently (fun _ => True) (liftExcept e) :=
    fun e => Silently.liftExcept fun _ _ => trivial
  unfold requeueFinished executeTTLAfterFinishedPolicy
  apply Silently.bind (R := fun _ => True)
  · cases js.spec.ttlSecondsAfterFinished with
    | none => exact trivial
    | some ttlSeconds =>
      apply silently_readClock.bind
      intro now _
      apply (Silently.liftExcept (Q := fun _ => True) fun _ _ => trivial).bind
      intro expired _
      split_ifs
      · exact Silently.ask trivial fun _ => hlift _
      · exact silently_readClock.bind fun _ _ => hlift _
  · exact fun _ _ => trivial

theorem silently_createHeadlessSvcIfNecessary (js : JobSet) :
    Silently (fun _ => True) (createHeadlessSvcIfNecessary js) := by
  unfold createHeadlessSvcIfNecessary
  split_ifs
  · exact trivial
  · refine Silently.ask trivial fun lookup => ?_
    cases lookup with
    | failed err => exact trivial
    | notFound =>
      refine Silently.ask trivial fun outcome => ?_
      cases outcome with
      | ok _ => exact trivial
      | error err =>
        exact Silently.ask (by simp [Request.Unlogged, failureReasons]) fun _ => trivial
    | found controlled ports =>
      dsimp only
      split_ifs
      · exact Silently.ask trivial fun _ => Silently.liftExcept fun _ _ => trivial
      · exact trivial

theorem silently_reconcileVolumeClaimPolicies (js : JobSet) :
    Silently (fun _ => True) (reconcileVolumeClaimPolicies js) := by
  have hcreate : ∀ policy templates,
      Silently (fun _ => True) (createPVCsIfNecessary js policy templates) := by
    intro policy templates
    induction templates with
    | nil => exact trivial
    | cons template rest ih =>
      refine Silently.ask trivial fun result => ?_
      cases result with
      | failed err =>
        exact Silently.ask (by simp [Request.Unlogged, failureReasons]) fun _ => trivial
      | created => exact ih
      | alreadyExists => exact ih
  have hloop : ∀ policies, Silently (fun _ => True) (reconcileClaimsLoop js policies) := by
    intro policies
    induction policies with
    | nil => exact trivial
    | cons policy rest ih =>
      apply (hcreate policy policy.templates).bind
      intro _ _
      exact ih.bind fun _ _ => trivial
  exact (hloop _).bind fun _ _ => silently_joinErrors _

theorem silently_schedulingOutcome {α : Type} (outcome : Except String α) :
    Silently (fun _ => True) (schedulingOutcome outcome) := by
  cases outcome with
  | ok a => exact trivial
  | error err =>
    exact Silently.ask (by simp [Request.Unlogged, failureReasons]) fun _ => trivial

theorem silently_reconcileResources (env : Env) (js : JobSet) :
    Silently (fun _ => True) (reconcileResources env js) := by
  have hscheduling : Silently (fun _ => True) (reconcileScheduling env js) := by
    unfold reconcileScheduling
    split_ifs
    · exact trivial
    · refine Silently.ask trivial fun _ => ?_
      exact (silently_schedulingOutcome _).bind fun _ _ => trivial
    · refine Silently.ask trivial fun _ => ?_
      apply (silently_schedulingOutcome _).bind
      intro _ _
      exact Silently.ask trivial fun _ => silently_schedulingOutcome _
  unfold reconcileResources
  apply (silently_createHeadlessSvcIfNecessary js).bind
  intro _ _
  split_ifs
  · exact (silently_reconcileVolumeClaimPolicies js).bind fun _ _ => hscheduling
  · exact hscheduling

end JobSetOperator
