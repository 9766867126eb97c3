import JobSetOperator.Controller.Ledger

/-!
# The event that gets lost

A run that loses an event: the write of the execution attempts is acknowledged while
the change of the restarting condition is pending, and the final status write is
refused. It is possible whenever the write finds the change pending, so the events
match the persisted changes in every run if and only if it never does.
-/
namespace JobSetOperator

open Library Library.Program

/-! ## Parts that can succeed -/

theorem returns_send {α : Type} {r : Request} {f : r.Response → Prog α} {a : α} (x : r.Response)
    (h : Returns a (f x)) : Returns a (send r >>= f) :=
  ⟨x, h⟩

theorem returns_deleteJobs (jobs : List Job) : Returns () (deleteJobs jobs) := by
  have hloop : Returns [] (deleteJobsLoop jobs) := by
    induction jobs with
    | nil => rfl
    | cons job rest ih =>
      unfold deleteJobsLoop
      split_ifs
      · exact ih
      · exact returns_send (r := .deleteJob job.name) (Except.ok ()) (ih.bind rfl)
  exact hloop.bind rfl

theorem returns_createHeadlessSvcIfNecessary (js : JobSet) :
    Returns () (createHeadlessSvcIfNecessary js) := by
  unfold createHeadlessSvcIfNecessary
  split_ifs
  · rfl
  · exact ⟨ServiceLookup.notFound, (Except.ok () : Outcome), rfl⟩

theorem returns_reconcileVolumeClaimPolicies (js : JobSet) :
    Returns () (reconcileVolumeClaimPolicies js) := by
  have hcreate : ∀ policy templates,
      Returns (Except.ok ()) (createPVCsIfNecessary js policy templates) := by
    intro policy templates
    induction templates with
    | nil => rfl
    | cons template rest ih => exact returns_send ClaimCreation.created ih
  have hloop : ∀ policies, Returns [] (reconcileClaimsLoop js policies) := by
    intro policies
    induction policies with
    | nil => rfl
    | cons policy rest ih => exact (hcreate policy policy.templates).bind (ih.bind rfl)
  exact (hloop _).bind rfl

theorem returns_reconcileResources (env : Env) (js : JobSet) :
    Returns true (reconcileResources env js) := by
  have hscheduling : Returns true (reconcileScheduling env js) := by
    unfold reconcileScheduling
    split_ifs
    · rfl
    · exact returns_send (r := .deleteSchedulingObjects) (Except.ok ()) rfl
    · apply returns_send (r := .reconcileSchedulingObjects) (Except.ok ())
      exact returns_send (r := .schedulingObjectsReady) (Except.ok true) rfl
  unfold reconcileResources
  apply (returns_createHeadlessSvcIfNecessary js).bind
  split_ifs
  · exact (returns_reconcileVolumeClaimPolicies js).bind hscheduling
  · exact hscheduling

theorem PatchedCopy.eq_of_unneeded {env : Env} {js : JobSet} {job job' : Job}
    (h : PatchedCopy env js job job')
    (hnot : ∀ parallelism completions, desiredScaling js job = some (parallelism, completions) →
      jobScalingNeedsPatch job parallelism completions = false) : job' = job := by
  rcases h with h | ⟨-, parallelism, completions, hdesired, hneeds⟩
  · exact h
  · rw [hnot parallelism completions hdesired] at hneeds
    cases hneeds

/-- A patch can bring any copy. -/
theorem returns_syncJobScaling {env : Env} {js : JobSet} {l active : List Job}
    (h : List.Forall₂ (PatchedCopy env js) l active) :
    Returns active (syncJobScaling env js l) := by
  have hloop : Returns (active, []) (syncJobScalingLoop js l) := by
    induction h with
    | nil => rfl
    | @cons job job' rest rest' hfirst _ ih =>
      have hkeep (hsame : job' = job) : Returns (job' :: rest', [])
          (syncJobScalingLoop js rest >>= fun r => pure (job :: r.1, r.2)) := by
        rw [hsame]
        exact ih.bind rfl
      unfold syncJobScalingLoop
      split
      · rename_i parallelism completions hdesired
        split_ifs with hneeds
        · exact ⟨(Except.ok job' : Except String Job), ih.bind rfl⟩
        · apply hkeep
          apply hfirst.eq_of_unneeded
          intro parallelism' completions' hdesired'
          rw [hdesired] at hdesired'
          cases hdesired'
          simpa using hneeds
      · rename_i hdesired
        apply hkeep
        apply hfirst.eq_of_unneeded
        intro parallelism completions hdesired'
        rw [hdesired] at hdesired'
        cases hdesired'
  unfold syncJobScaling
  split_ifs with hgate
  · have hoff : env.gates.elasticJobSet = false := by simpa using hgate
    have hsame : l = active := by
      rw [← List.forall₂_eq_eq_eq]
      apply h.imp
      rintro job job' (hjob | ⟨hon, -⟩)
      · exact hjob.symm
      · rw [hoff] at hon
        cases hon
    rw [hsame]
    rfl
  · exact hloop.bind rfl

theorem returns_readClock (now : Time) : Returns now readClock := ⟨now, rfl⟩

/-- At some time the deadline has not expired. -/
theorem exists_unexpired (gates : FeatureGates) (js : JobSet) :
    ∃ now, ∀ remaining, activeDeadlineRemaining gates now js = some remaining → 0 < remaining := by
  cases hseconds : js.spec.activeDeadlineSeconds with
  | none => exact ⟨0, fun _ h => by simp [activeDeadlineRemaining, hseconds] at h⟩
  | some seconds =>
    cases hstart : js.status.startTime with
    | none => exact ⟨0, fun _ h => by simp [activeDeadlineRemaining, hseconds, hstart] at h⟩
    | some startTime =>
      refine ⟨startTime + seconds * nanosecondsPerSecond - 1, fun remaining h => ?_⟩
      simp only [activeDeadlineRemaining, hseconds, hstart] at h
      split_ifs at h
      cases h
      have hone : startTime + seconds * nanosecondsPerSecond -
          (startTime + seconds * nanosecondsPerSecond - 1) = (1 : ℤ) := by ring
      unfold timeSub
      rw [hone]
      decide

/-! ## The run -/

theorem exists_response (r : Request) : Nonempty r.Response := by
  cases r with
  | now => exact ⟨(0 : Time)⟩
  | listPods => exact ⟨(Except.ok [] : Except String (List Pod))⟩
  | getService name => exact ⟨ServiceLookup.notFound⟩
  | createClaim claim => exact ⟨ClaimCreation.created⟩
  | schedulingObjectsReady => exact ⟨(Except.ok true : Except String Bool)⟩
  | patchScaling job => exact ⟨(Except.ok job : Except String Job)⟩
  | updateJobStatus job => exact ⟨(Except.ok 0 : Except String ℕ)⟩
  | emitEvent event => exact ⟨()⟩
  | countMetric metric => exact ⟨()⟩
  | _ => exact ⟨(Except.ok () : Outcome)⟩

theorem Silently.allows_bind {α β : Type} {R : α → Prop} {p : Prog α} {f : α → Prog β} {a : α}
    {s : Ledger} {Q : Ledger → Except String β → Prop} (h : Silently R p) (ha : Returns a p)
    (hf : Allows records Q s (f a)) : Allows records Q s (p >>= f) := by
  apply (h.allows ha s).bind
  · rintro s' b ⟨rfl, hb⟩
    cases hb
    exact hf
  · rintro s' e ⟨-, he⟩
    cases he

/-- A silent part has some run. -/
theorem Silently.allows_same {α : Type} {R : α → Prop} {p : Prog α} (h : Silently R p)
    (s : Ledger) : Allows records (fun s' _ => s' = s) s p := by
  have htotal : ∀ (s : Ledger) (r : Request), ∃ x s', records s r x s' := by
    intro s r
    obtain ⟨x⟩ := exists_response r
    exact ⟨x, s.next r x, rfl⟩
  have hensures := (h.ensures s).mono (fun _ h => h) fun s' _ hs => hs.1
  exact hensures.allows htotal fun _ _ _ _ h => h

theorem allows_countMetrics (metrics : List Metric) (s : Ledger) :
    Allows records (fun s' res => s' = s ∧ res = .ok ()) s (countMetrics metrics) := by
  induction metrics with
  | nil => exact ⟨rfl, rfl⟩
  | cons metric rest ih => exact ⟨(), s, rfl, ih⟩

/-- The final status write can be refused. -/
theorem allows_refused (p : Pass) (s : Ledger) :
    Allows records (fun s' _ => s' = s) s (updateJobSetStatus p) := by
  unfold updateJobSetStatus
  apply (allows_countMetrics p.metrics s).bind _ (by rintro s' e ⟨-, he⟩; cases he)
  rintro s' _ ⟨rfl, -⟩
  split_ifs
  · exact ⟨(Except.error "conflict" : Outcome), s', rfl, rfl⟩
  · rfl

section Run

variable {env : Env} {js : JobSet} {jobs : List Job} {owned : ChildJobs} {active : List Job}

/-- The ledger after the write of the execution attempts. -/
def lostLedger (p : Pass) : Ledger := ⟨p.js.status.conditions, []⟩

theorem LosesEvent.allows_reconcileJobs (h : LosesEvent env js jobs owned active) {p : Pass}
    (hp : ActivePass env js owned p) (requeueAfter : ℤ) :
    Allows records (fun s' _ => s' = lostLedger p) (.start js)
      (reconcileJobs env owned (calculateReplicatedJobStatuses env.gates js owned)
        requeueAfter p) := by
  have hscaled := h.scaled
  rw [← patchedCopy_of_spec hp.spec] at hscaled
  obtain ⟨attempts, hnext⟩ := h.resumes
  rw [← hp.nextExecutionAttempts] at hnext
  unfold reconcileJobs
  apply (silently_syncJobScaling env p.js owned.active).allows_bind (returns_syncJobScaling hscaled)
  unfold syncExecutionAttempts
  rw [hnext]
  refine ⟨(Except.ok () : Outcome), lostLedger p, rfl, ?_⟩
  exact (silently_afterAttempts env _ owned active _ requeueAfter).allows_same _

theorem LosesEvent.allows_reconcilePolicies (h : LosesEvent env js jobs owned active) {p : Pass}
    (hp : ActivePass env js owned p) (requeueAfter : ℤ) :
    Allows records (fun s' _ => s' = lostLedger p) (.start js)
      (reconcilePolicies env owned (calculateReplicatedJobStatuses env.gates js owned)
        requeueAfter p) := by
  have hunmet : Returns none (executeSuccessPolicy owned.successful p) := by
    unfold executeSuccessPolicy
    rcases h.unmet with hnil | hmet
    · rw [if_pos hnil]
      rfl
    · by_cases hnil : owned.successful = []
      · rw [if_pos hnil]
        rfl
      · rw [if_neg hnil, successPolicyMet_of_spec hp.spec, hmet]
        rfl
  unfold reconcilePolicies
  rw [if_neg (by simp [h.noFailed])]
  apply (silently_executeSuccessPolicy p owned.successful).allows_bind hunmet
  dsimp only
  unfold reconcileRunning
  apply (silently_reconcileResources env p.js).allows_bind (returns_reconcileResources env p.js)
  rw [hp.staleSchedulingJobs, h.fresh]
  exact h.allows_reconcileJobs hp requeueAfter

/-- The reconcile can store the change and fail afterwards. -/
theorem LosesEvent.allows (h : LosesEvent env js jobs owned active) :
    ∃ p, ActivePass env js owned p ∧
      Allows records (fun s' _ => s' = lostLedger p) (.start js) (reconcileRequest env js jobs) := by
  let p := syncActiveDeadlineStartTime env.gates 0 (clearRestarting
    (calculateReplicatedJobStatuses env.gates js owned) 0 (entryPass env js owned))
  have hp : ActivePass env js owned p := ⟨0, 0, rfl⟩
  obtain ⟨now, hnow⟩ := exists_unexpired env.gates p.js
  have hunfinished : Allows records (fun s' _ => s' = lostLedger p) (.start js)
      (reconcileUnfinished env owned (calculateReplicatedJobStatuses env.gates js owned)
        (entryPass env js owned)) := by
    unfold reconcileUnfinished
    apply (silently_deleteJobs owned.previous).allows_bind (returns_deleteJobs _)
    apply silently_readClock.allows_bind (returns_readClock 0)
    apply silently_readClock.allows_bind (returns_readClock 0)
    apply silently_readClock.allows_bind (returns_readClock now)
    split
    · rename_i remaining hremaining
      rw [if_neg (not_le.mpr (hnow remaining hremaining))]
      exact h.allows_reconcilePolicies hp remaining
    · exact h.allows_reconcilePolicies hp 0
  have hreconcile : Allows records (fun s' _ => s' = lostLedger p) (.start js)
      (reconcile env js jobs) := by
    unfold reconcile
    rw [if_neg (by simp [h.internal]), h.sorted]
    have hfinished : jobSetFinished (entryPass env js owned).js = false := by
      rw [entryPass_js]
      exact h.unfinished
    change Allows _ _ _ (if jobSetFinished (entryPass env js owned).js then _ else _)
    rw [hfinished]
    exact hunfinished
  refine ⟨p, hp, ?_⟩
  unfold reconcileRequest
  rw [if_neg (by simp [h.present])]
  apply hreconcile.bind
  · rintro s ⟨q, requeueAfter⟩ rfl
    apply (allows_refused q (lostLedger p)).bind
    · exact fun s' _ hs => hs
    · exact fun s' _ hs => hs
  · exact fun s e hs => hs

end Run

/-- A ledger that stores a change without an event does not match. -/
theorem lostLedger_not_matches {env : Env} {js : JobSet} {jobs : List Job} {owned : ChildJobs}
    {active : List Job} (h : LosesEvent env js jobs owned active) {p : Pass}
    (hp : ActivePass env js owned p) : ¬ (lostLedger p).Matches js := by
  rintro ⟨steps, hleads, hemitted⟩
  have hnil : steps = [] := by
    have hmap : ([] : List EventParams) = steps.map QueueStep.event := hemitted
    simpa using hmap.symm
  subst hnil
  exact hp.conditions_changed h.pending hleads

/-- A JobSet that was restarted, suspended and is being resumed. -/
def interruptedSet : JobSet :=
  let js := plainSet [.single "a" 1] 2 .recreate
  { js with
    status := { js.status with
      restarts := 1
      restartsCountTowardsMax := 1
      executionAttempts := some 1
      conditions := [⟨.jobSetRestarting, .conditionFalse, "JobSetSuspended", "jobset is suspended", 1⟩,
        ⟨.jobSetSuspended, .conditionTrue, "SuspendedJobs", "jobset is suspended", 1⟩] } }

/-- Its Job, suspended when one of two completions had succeeded. -/
def interruptedJob : Job :=
  let job := Job.child "js" "a" "0" ⟨[], 0, some 0, 1, none⟩
  { job with
    labels := job.labels.insert restartsKey "1"
    annotations := job.annotations.insert executionAttemptsKey "1"
    spec := { job.spec with
      parallelism := some 1, completions := some 2, suspend := some true } }

end JobSetOperator
