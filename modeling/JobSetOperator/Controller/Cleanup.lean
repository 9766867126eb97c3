import JobSetOperator.Controller.Evidence
import JobSetOperator.Controller.Metering
import JobSetOperator.Controller.TimeToLive
import JobSetOperator.Controller.Timing

/-!
# When a reconcile deletes the JobSet

Only the clean-up of a finished JobSet deletes it, after the clock has shown that its TTL
has passed since the time of its terminal condition. A reconcile that makes the JobSet
finish dates this condition with a time the clock has told.
-/
namespace JobSetOperator

open Library Library.Program

/-! ## Parts that do not delete the JobSet -/

def Request.SparesSet : Request → Prop
  | .deleteJobSet _ => False
  | _ => True

/-- Whatever the answers are, the program does not delete the JobSet. -/
def Sparing {α : Type} (p : Prog α) : Prop :=
  Follows (fun (_ : Unit) r => Request.SparesSet r) (fun _ _ _ => ()) (fun _ _ => True) () p

namespace Sparing

variable {α β : Type}

theorem bind {p : Prog α} {f : α → Prog β} (hp : Sparing p) (hf : ∀ a, Sparing (f a)) :
    Sparing (p >>= f) := Follows.bind hp fun _ a _ => hf a

theorem ask {r : Request} {f : r.Response → Prog β} (hr : r.SparesSet)
    (hf : ∀ x, Sparing (f x)) : Sparing (send r >>= f) := ⟨hr, hf⟩

theorem liftExcept (e : Except String α) : Sparing (liftExcept e) := by
  cases e <;> exact trivial

end Sparing

theorem sparing_joinErrors (errs : List String) : Sparing (joinErrors errs) := by
  unfold joinErrors
  split_ifs <;> exact trivial

theorem sparing_deleteJobs (jobs : List Job) : Sparing (deleteJobs jobs) := by
  have hloop : ∀ jobs, Sparing (deleteJobsLoop jobs) := by
    intro jobs
    induction jobs with
    | nil => exact trivial
    | cons job rest ih =>
      unfold deleteJobsLoop
      split_ifs
      · exact ih
      · exact Sparing.ask trivial fun _ => ih.bind fun _ => trivial
  exact (hloop jobs).bind fun _ => sparing_joinErrors _

theorem sparing_createJobs (jobs : List Job) : Sparing (createJobs jobs) := by
  have hloop : ∀ jobs, Sparing (createJobsLoop jobs) := by
    intro jobs
    induction jobs with
    | nil => exact trivial
    | cons job rest ih => exact Sparing.ask trivial fun _ => ih.bind fun _ => trivial
  apply (hloop jobs).bind
  intro errs
  split_ifs
  · exact trivial
  · exact Sparing.ask trivial fun _ => sparing_joinErrors _

theorem sparing_syncJobScaling (env : Env) (js : JobSet) (active : List Job) :
    Sparing (syncJobScaling env js active) := by
  have hloop : ∀ jobs, Sparing (syncJobScalingLoop js jobs) := by
    intro jobs
    induction jobs with
    | nil => exact trivial
    | cons job rest ih =>
      unfold syncJobScalingLoop
      split
      · split_ifs
        · refine Sparing.ask trivial fun answer => ?_
          apply ih.bind
          intro r
          cases answer <;> exact trivial
        · exact ih.bind fun _ => trivial
      · exact ih.bind fun _ => trivial
  unfold syncJobScaling
  split_ifs
  · exact trivial
  · exact (hloop active).bind fun _ => (sparing_joinErrors _).bind fun _ => trivial

theorem sparing_createHeadlessSvcIfNecessary (js : JobSet) :
    Sparing (createHeadlessSvcIfNecessary js) := by
  unfold createHeadlessSvcIfNecessary
  split_ifs
  · exact trivial
  · refine Sparing.ask trivial fun lookup => ?_
    cases lookup with
    | failed err => exact trivial
    | notFound =>
      refine Sparing.ask trivial fun outcome => ?_
      cases outcome with
      | ok _ => exact trivial
      | error err => exact Sparing.ask trivial fun _ => trivial
    | found controlled ports =>
      dsimp only
      split_ifs
      · exact Sparing.ask trivial fun outcome => Sparing.liftExcept outcome
      · exact trivial

theorem sparing_reconcileVolumeClaimPolicies (js : JobSet) :
    Sparing (reconcileVolumeClaimPolicies js) := by
  have htemplates : ∀ policy templates, Sparing (createPVCsIfNecessary js policy templates) := by
    intro policy templates
    induction templates with
    | nil => exact trivial
    | cons template rest ih =>
      refine Sparing.ask trivial fun result => ?_
      cases result with
      | created => exact ih
      | alreadyExists => exact ih
      | failed err => exact Sparing.ask trivial fun _ => trivial
  have hpolicies : ∀ policies, Sparing (reconcileClaimsLoop js policies) := by
    intro policies
    induction policies with
    | nil => exact trivial
    | cons policy rest ih =>
      exact (htemplates policy policy.templates).bind fun _ => ih.bind fun _ => trivial
  exact (hpolicies _).bind fun _ => sparing_joinErrors _

theorem sparing_schedulingOutcome {α : Type} (e : Except String α) :
    Sparing (schedulingOutcome e) := by
  cases e with
  | ok a => exact trivial
  | error err => exact Sparing.ask trivial fun _ => trivial

theorem sparing_reconcileResources (env : Env) (js : JobSet) :
    Sparing (reconcileResources env js) := by
  have hscheduling : Sparing (reconcileScheduling env js) := by
    unfold reconcileScheduling
    split_ifs
    · exact trivial
    · exact Sparing.ask trivial fun outcome =>
        (sparing_schedulingOutcome outcome).bind fun _ => trivial
    · exact Sparing.ask trivial fun outcome => (sparing_schedulingOutcome outcome).bind fun _ =>
        Sparing.ask trivial fun ready => sparing_schedulingOutcome ready
  unfold reconcileResources
  apply (sparing_createHeadlessSvcIfNecessary js).bind
  intro _
  split_ifs
  · exact (sparing_reconcileVolumeClaimPolicies js).bind fun _ => hscheduling
  · exact hscheduling

theorem sparing_reconcileReplicatedJobs (env : Env) (owned : ChildJobs)
    (statuses : List ReplicatedJobStatus) (p : Pass) :
    Sparing (reconcileReplicatedJobs env owned statuses p) := by
  have hloop : ∀ rjobs replicas,
      Sparing (reconcileReplicatedJobsLoop env owned statuses p rjobs replicas) := by
    intro rjobs
    induction rjobs with
    | nil =>
      intro replicas
      unfold reconcileReplicatedJobsLoop
      split_ifs
      · exact Sparing.ask trivial fun _ => trivial
      · exact trivial
    | cons rjob rest ih =>
      intro replicas
      unfold reconcileReplicatedJobsLoop
      apply (Sparing.liftExcept _).bind
      intro jobs
      dsimp only
      split_ifs
      · exact ih _
      · apply (Sparing.liftExcept _).bind
        intro started
        split_ifs
        · exact ih _
        · exact (sparing_createJobs jobs).bind fun _ => Sparing.ask trivial fun _ => trivial
      · exact (sparing_createJobs jobs).bind fun _ => ih _
  exact hloop _ _

theorem sparing_suspendJobs (active : List Job) (p : Pass) : Sparing (suspendJobs active p) := by
  have hloop : ∀ jobs, Sparing (suspendJobsLoop jobs) := by
    intro jobs
    induction jobs with
    | nil => exact trivial
    | cons job rest ih =>
      unfold suspendJobsLoop
      split_ifs
      · exact ih
      · exact Sparing.ask trivial fun outcome => (Sparing.liftExcept outcome).bind fun _ => ih
  exact (hloop active).bind fun _ => Sparing.ask trivial fun _ => trivial

theorem sparing_resumeJobsIfNecessary (env : Env) (active : List Job)
    (statuses : List ReplicatedJobStatus) (p : Pass) :
    Sparing (resumeJobsIfNecessary env active statuses p) := by
  have hjobs : ∀ jobs, Sparing (resumeJobsOf env p.js jobs) := by
    intro jobs
    induction jobs with
    | nil => exact trivial
    | cons job rest ih =>
      unfold resumeJobsOf resumeJob
      split_ifs
      · exact ih
      · apply Sparing.bind
        · exact Sparing.ask trivial fun answer => (Sparing.liftExcept answer).bind fun _ =>
            Sparing.ask trivial fun outcome => Sparing.liftExcept outcome
        · exact fun _ => ih
      · apply Sparing.bind
        · exact Sparing.ask trivial fun outcome => Sparing.liftExcept outcome
        · exact fun _ => ih
  have hloop : ∀ rjobs replicas,
      Sparing (resumeJobsLoop env active statuses p rjobs replicas) := by
    intro rjobs
    induction rjobs with
    | nil =>
      intro replicas
      exact Sparing.ask trivial fun _ => trivial
    | cons rjob rest ih =>
      intro replicas
      unfold resumeJobsLoop
      dsimp only
      split_ifs
      · exact ih _
      · apply (Sparing.liftExcept _).bind
        intro started
        split_ifs
        · exact ih _
        · exact (hjobs _).bind fun _ => Sparing.ask trivial fun _ => trivial
      · exact (hjobs _).bind fun _ => ih _
  exact hloop _ _

theorem sparing_suspendOrResume (env : Env) (active : List Job)
    (statuses : List ReplicatedJobStatus) (p : Pass) :
    Sparing (suspendOrResume env active statuses p) := by
  unfold suspendOrResume
  split_ifs
  · exact sparing_suspendJobs active p
  · exact sparing_resumeJobsIfNecessary env active statuses p

/-! ## The time of a terminal condition -/

/-- The terminal conditions carry times the clock has told. -/
def Dated (clock : Set Time) (js : JobSet) : Prop :=
  ∀ c ∈ js.status.conditions, c.type.terminal → c.status = .conditionTrue →
    c.lastTransitionTime ∈ clock

theorem Dated.mono {clock clock' : Set Time} {js : JobSet} (h : Dated clock js)
    (hsub : clock ⊆ clock') : Dated clock' js :=
  fun c hc ht htrue => hsub (h c hc ht htrue)

/-- An unfinished JobSet has no terminal condition. -/
theorem dated_of_unfinished {clock : Set Time} {js : JobSet} (h : jobSetFinished js = false) :
    Dated clock js := by
  intro c hc ht htrue
  have hfinished : jobSetFinished js = true := by
    rw [jobSetFinished_iff]
    rcases ht with ht | ht
    · exact Or.inl ⟨c, hc, ht, htrue⟩
    · exact Or.inr ⟨c, hc, ht, htrue⟩
  rw [h] at hfinished
  cases hfinished

theorem time_of_updateConditionLoop {cs : List Condition} {c new : Condition}
    (hc : c ∈ (updateConditionLoop cs new).1) (htrue : c.status = .conditionTrue) :
    c ∈ cs ∨ c.type = new.type ∧ new.status = .conditionTrue ∧
      (c.lastTransitionTime = new.lastTransitionTime ∨
        ∃ old ∈ cs, old.type = new.type ∧ old.status = .conditionTrue) := by
  induction cs generalizing new with
  | nil => cases hc
  | cons first rest ih =>
    have hrest : ∀ new' : Condition, new'.type = new.type → new'.status = new.status →
        (new'.lastTransitionTime = new.lastTransitionTime ∨
          first.type = new.type ∧ first.status = new.status) →
        c ∈ (updateConditionLoop rest new').1 → c ∈ first :: rest ∨ c.type = new.type ∧
          new.status = .conditionTrue ∧ (c.lastTransitionTime = new.lastTransitionTime ∨
            ∃ old ∈ first :: rest, old.type = new.type ∧ old.status = .conditionTrue) := by
      intro new' htype hstatus htime hmem
      rcases ih hmem with hold | ⟨hsame, hnew, htold⟩
      · exact Or.inl (List.mem_cons_of_mem _ hold)
      · rw [hstatus] at hnew
        refine Or.inr ⟨hsame.trans htype, hnew, ?_⟩
        rcases htold with heq | ⟨old, hmem, hold, holdTrue⟩
        · rcases htime with htime | ⟨hfirst, hfirstStatus⟩
          · exact Or.inl (heq.trans htime)
          · exact Or.inr ⟨first, List.mem_cons_self, hfirst, hfirstStatus.trans hnew⟩
        · exact Or.inr ⟨old, List.mem_cons_of_mem _ hmem, hold.trans htype, holdTrue⟩
    unfold updateConditionLoop at hc
    dsimp only at hc
    split_ifs at hc with htype hstatus htexts
    · rcases List.mem_cons.mp hc with rfl | hmem
      · exact Or.inr ⟨rfl, htrue, Or.inl rfl⟩
      · exact hrest _ rfl rfl (Or.inl rfl) hmem
    · have hsame : new.status = first.status := not_not.mp hstatus
      rcases List.mem_cons.mp hc with rfl | hmem
      · exact Or.inr ⟨rfl, htrue,
          Or.inr ⟨first, List.mem_cons_self, htype.symm, hsame.symm.trans htrue⟩⟩
      · exact hrest { new with lastTransitionTime := first.lastTransitionTime } rfl rfl
          (Or.inr ⟨htype.symm, hsame.symm⟩) hmem
    · rcases List.mem_cons.mp hc with rfl | hmem
      · exact Or.inl List.mem_cons_self
      · exact hrest _ rfl rfl (Or.inl rfl) hmem
    · rcases List.mem_cons.mp hc with rfl | hmem
      · cases htrue
      · exact hrest _ rfl rfl (Or.inl rfl) hmem
    · rcases List.mem_cons.mp hc with rfl | hmem
      · exact Or.inl List.mem_cons_self
      · exact hrest _ rfl rfl (Or.inl rfl) hmem

/-- A condition that is true has been true, or is the new one; then it has the given time, unless
one of its type has been true. -/
theorem time_of_setCondition {now : Time} {o : ConditionOpts} {p : Pass} {c : Condition}
    (hc : c ∈ (setCondition now o p).js.status.conditions) (htrue : c.status = .conditionTrue) :
    c ∈ p.js.status.conditions ∨
      c.type = o.condition.type ∧ o.condition.status = .conditionTrue ∧
        (c.lastTransitionTime = now ∨ CondTrue p.js.status.conditions o.condition.type) := by
  have hloop := @time_of_updateConditionLoop p.js.status.conditions c
    { o.condition with lastTransitionTime := now }
  rw [setCondition_js] at hc
  unfold updateCondition at hc
  dsimp only at hc
  split_ifs at hc with hnew
  · rcases List.mem_append.mp hc with hold | hlast
    · exact hloop hold htrue
    · rw [List.mem_singleton.mp hlast]
      exact Or.inr ⟨rfl, hnew.2, Or.inl rfl⟩
  · exact hloop hc htrue

section Dates

variable {js : JobSet} {p : Pass} {clock : Set Time} {now : Time}

/-- The first terminal condition has the time of the call. -/
theorem Uncounting.dated (h : Uncounting js p) (hnow : now ∈ clock) {o : ConditionOpts}
    (ht : o.condition.type.terminal) {reason message : String} {q : Pass}
    (hq : q.js.status.conditions = (setRestartingConditionFalse now reason message
      (setCondition now o p)).js.status.conditions) : Dated clock q.js := by
  intro c hc hterminal htrue
  rw [hq] at hc
  unfold setRestartingConditionFalse at hc
  rcases time_of_setCondition hc htrue with hset | ⟨htype, -⟩
  · rcases time_of_setCondition hset htrue with hold | ⟨-, -, htime | hcond⟩
    · exact absurd ⟨c, hold, rfl, htrue⟩ (h.not_condTrue hterminal)
    · rw [htime]
      exact hnow
    · exact absurd hcond (h.not_condTrue ht)
  · rw [htype] at hterminal
    rcases hterminal with hrestarting | hrestarting <;> cases hrestarting

theorem Uncounting.dated_completed (h : Uncounting js p) (hnow : now ∈ clock) :
    Dated clock (setJobSetCompletedCondition now p).js :=
  h.dated (o := conditionOpts eventTypeNormal .jobSetCompleted .conditionTrue
    "AllJobsCompleted" "jobset completed successfully") hnow (Or.inl rfl) rfl

theorem Uncounting.dated_failed (h : Uncounting js p) (hnow : now ∈ clock) (reason msg : String) :
    Dated clock (setJobSetFailedCondition now reason msg p).js :=
  h.dated (o := conditionOpts eventTypeWarning .jobSetFailed .conditionTrue reason msg) hnow
    (Or.inr rfl) rfl

theorem Uncounting.dated_kept (h : Uncounting js p) {b : JobSet} (hkeeps : KeepsTerminal p.js b) :
    Dated clock b := by
  apply dated_of_unfinished
  rw [hkeeps.finished, h.keeps.finished]
  exact h.unfinished

theorem Uncounting.dated_self (h : Uncounting js p) : Dated clock p.js := by
  apply dated_of_unfinished
  rw [h.keeps.finished]
  exact h.unfinished

theorem Uncounting.dated_policy {env : Env} {owned : ChildJobs} {p' : Pass} (h : Uncounting js p)
    (hp : executeFailurePolicy env.platform env.gates now owned.failed p = .ok p')
    (hnow : now ∈ clock) : Dated clock p'.js := by
  rcases executeFailurePolicy_cases hp with ⟨reason, msg, -, rfl⟩ |
    ⟨fp, job, count, event, o, hfp, hcause, ho, hbudget, rfl⟩ |
    ⟨fp, job, count, event, hfp, hcause, hgate, hbudget, hp'⟩
  · exact h.dated_failed hnow reason msg
  · exact h.dated_kept (restartsAll_failurePolicyRecreateAll hfp hcause ho
      fun hc => (hbudget hc).2).toKeepsTerminal
  · exact h.dated_kept
      (restartsJob_failurePolicyRecreateJob hfp hcause hgate hbudget hp').toKeepsTerminal

theorem Uncounting.dated_inPlace {pods : List Pod} {p' : Pass} (h : Uncounting js p)
    (hp : reconcileInPlaceRestart now pods p = .ok p') (hnow : now ∈ clock) :
    Dated clock p'.js := by
  rcases reconcileInPlaceRestart_effect hp with rfl | rfl | ⟨previous, current, rfl⟩
  · exact h.dated_failed hnow _ _
  · exact h.dated_self
  · exact h.dated_self (p := p)

end Dates

/-! ## The calls of a reconcile -/

/-- The JobSet has finished, and the clock has shown that its TTL has passed since. -/
structure TTLPassed (js : JobSet) (clock : Set Time) : Prop where
  finished : jobSetFinished js = true
  present : jobSetMarkedForDeletion js = false
  passed : ∃ finishAt ttlSeconds, jobSetFinishTime js = .ok finishAt ∧
    js.spec.ttlSecondsAfterFinished = some ttlSeconds ∧
    ∃ t ∈ clock, finishAt + ttlSeconds * nanosecondsPerSecond ≤ t

/-- What a reconcile of `js` has learned from the clock when it makes the call. -/
def Cleans (js : JobSet) (clock : Set Time) : Request → Prop
  | .deleteJobSet _ => TTLPassed js clock
  | .updateStatus js' => managedByExternalController js = none → jobSetFinished js = false →
      Dated clock js'
  | _ => True

/-- The program keeps to `Cleans`; what it returns meets `Q`. -/
def Cleanly (js : JobSet) {α : Type} (Q : Set Time → α → Prop) (clock : Set Time) (p : Prog α) :
    Prop :=
  Follows (Cleans js) clocked Q clock p

section Stages

variable {α β : Type} {env : Env} {js : JobSet} {jobs : List Job} {owned : ChildJobs} {p : Pass}
  {clock : Set Time}

theorem Cleanly.bind {R : Set Time → α → Prop} {Q : Set Time → β → Prop} {q : Prog α}
    {f : α → Prog β} (hq : Cleanly js R clock q)
    (hf : ∀ clock' a, R clock' a → Cleanly js Q clock' (f a)) : Cleanly js Q clock (q >>= f) :=
  Follows.bind hq hf

theorem Cleanly.mono {Q R : Set Time → α → Prop} {q : Prog α} (h : Cleanly js Q clock q)
    (hQ : ∀ clock' a, Q clock' a → R clock' a) : Cleanly js R clock q :=
  Follows.mono h (fun _ _ hr => hr) hQ

/-- A part without a status write and a deletion of the JobSet has nothing to show. -/
theorem cleanly_of_statusFree {Q : α → Prop} {q : Prog α}
    (h : Follows (fun (_ : Unit) r => Request.StatusFree r) (fun _ _ _ => ()) (fun _ a => Q a) () q)
    (hspare : Sparing q) (clock : Set Time) :
    Cleanly js (fun clock' a => clock ⊆ clock' ∧ Q a) clock q := by
  induction q generalizing clock with
  | done a => exact ⟨Set.Subset.rfl, h⟩
  | fail e => exact trivial
  | call r k ih =>
    refine ⟨?_, fun x => ?_⟩
    · cases r with
      | updateStatus js => exact h.1.elim
      | deleteJobSet js => exact hspare.1.elim
      | _ => exact trivial
    · apply (ih x (h.2 x) (hspare.2 x) _).mono
      exact fun _ _ hs => ⟨(grows_clocked clock r x).trans hs.1, hs.2⟩

theorem Silently.cleanly {Q : α → Prop} {q : Prog α} (h : Silently Q q) (hspare : Sparing q)
    (clock : Set Time) : Cleanly js (fun clock' a => clock ⊆ clock' ∧ Q a) clock q := by
  apply cleanly_of_statusFree _ hspare clock
  apply Follows.mono h
  · intro _ r hr
    cases r with
    | updateStatus js => exact hr
    | _ => exact trivial
  · exact fun _ _ hQ => hQ

theorem Quiet.cleanly {q : Prog α} (h : Quiet q) (hspare : Sparing q) (clock : Set Time) :
    Cleanly js (fun clock' _ => clock ⊆ clock') clock q :=
  (cleanly_of_statusFree h.statusless hspare clock).mono fun _ _ hs => hs.1

theorem cleanly_readClock {Q : Set Time → β → Prop} {f : Time → Prog β}
    (hf : ∀ now, Cleanly js Q (insert now clock) (f now)) :
    Cleanly js Q clock (readClock >>= f) :=
  ⟨trivial, hf⟩

theorem cleanly_liftExcept {e : Except String α} {Q : Set Time → α → Prop}
    (h : ∀ a, e = .ok a → Q clock a) : Cleanly js Q clock (liftExcept e) := by
  cases e with
  | ok a => exact h a rfl
  | error err => exact trivial

/-- The TTL is measured from the time of the terminal condition. -/
theorem cleanly_requeueFinished {js' : JobSet} (hfinished : jobSetFinished js = true)
    (hpresent : jobSetMarkedForDeletion js = false)
    (hsame : js' = { js with status := { js.status with
      replicatedJobsStatus := js'.status.replicatedJobsStatus } }) :
    Cleanly js (fun _ _ => True) clock (requeueFinished js') := by
  have hfinish : jobSetFinishTime js' = jobSetFinishTime js := by
    rw [hsame]
    rfl
  have hspec : js'.spec = js.spec := by rw [hsame]
  have hlive : js'.deletionTimestamp = none := by
    rw [hsame]
    simpa [jobSetMarkedForDeletion] using hpresent
  unfold requeueFinished
  apply Cleanly.bind (R := fun _ _ => True)
  · cases httl : js'.spec.ttlSecondsAfterFinished with
    | none =>
      unfold executeTTLAfterFinishedPolicy
      rw [httl]
      exact trivial
    | some ttlSeconds =>
      cases htime : jobSetFinishTime js' with
      | error err =>
        rw [executeTTL_error httl hlive htime]
        exact ⟨trivial, fun _ => trivial⟩
      | ok finishAt =>
        rw [executeTTL_ok httl hlive htime]
        refine ⟨trivial, fun (first : Time) => ?_⟩
        by_cases hexpired : finishAt + ttlSeconds * nanosecondsPerSecond ≤ first
        · rw [afterReading_expired hexpired]
          refine ⟨⟨hfinished, hpresent, finishAt, ttlSeconds, hfinish.symm.trans htime,
            hspec ▸ httl, first, Set.mem_insert _ _, hexpired⟩, fun outcome => ?_⟩
          exact cleanly_liftExcept fun _ _ => trivial
        · rw [afterReading_waits hexpired]
          exact ⟨trivial, fun _ => trivial⟩
  · exact fun _ _ _ => trivial

theorem cleanly_reconcileFinished (hfinished : jobSetFinished js = true)
    (hpresent : jobSetMarkedForDeletion js = false) :
    Cleanly js (fun _ _ => True) clock (reconcileFinished env owned (entryPass env js owned)) := by
  have hrequeue : ∀ clock', Cleanly js (fun _ _ => True) clock'
      (requeueFinished (entryPass env js owned).js >>= fun requeueAfter =>
        pure (entryPass env js owned, requeueAfter)) := by
    intro clock'
    apply (cleanly_requeueFinished hfinished hpresent ?_).bind
    · exact fun _ _ _ => trivial
    · rw [entryPass_js]
  unfold reconcileFinished
  apply ((silently_deleteJobs owned.active).cleanly (sparing_deleteJobs _) clock).bind
  rintro clock₁ _ -
  split_ifs
  · refine ⟨trivial, fun outcome => ?_⟩
    apply (cleanly_liftExcept (Q := fun _ _ => True) fun _ _ => trivial).bind
    exact fun clock₂ _ _ => hrequeue clock₂
  · exact hrequeue clock₁

theorem cleanly_executeSuccessPolicy (successful : List Job) :
    Cleanly js (fun clock' r => clock ⊆ clock' ∧
      ∀ p', r = some p' → ∃ now ∈ clock', p' = setJobSetCompletedCondition now p) clock
      (executeSuccessPolicy successful p) := by
  unfold executeSuccessPolicy
  split_ifs
  · refine ⟨Set.Subset.rfl, ?_⟩
    rintro p' ⟨⟩
  · apply (cleanly_liftExcept (Q := fun clock' _ => clock ⊆ clock')
      fun _ _ => Set.Subset.rfl).bind
    intro clock₁ completed hsub
    split_ifs
    · apply cleanly_readClock
      intro now
      refine ⟨hsub.trans (Set.subset_insert _ _), ?_⟩
      rintro p' ⟨⟩
      exact ⟨now, Set.mem_insert _ _, rfl⟩
    · refine ⟨hsub, ?_⟩
      rintro p' ⟨⟩

theorem cleanly_reconcileExpired (hu : Uncounting js p) :
    Cleanly js (fun clock' r => Dated clock' r.1.js) clock (reconcileExpired owned p) := by
  unfold reconcileExpired
  apply (cleanly_executeSuccessPolicy owned.successful).bind
  rintro clock₁ completed ⟨-, hcompleted⟩
  cases completed with
  | some p' =>
    obtain ⟨now, hnow, rfl⟩ := hcompleted p' rfl
    exact hu.dated_completed hnow
  | none =>
    apply ((silently_deleteJobs owned.active).cleanly (sparing_deleteJobs _) clock₁).bind
    rintro clock₂ _ -
    apply cleanly_readClock
    intro now
    exact hu.dated_failed (Set.mem_insert now _) _ _

theorem cleanly_reconcileFailed (hu : Uncounting js p) :
    Cleanly js (fun clock' r => Dated clock' r.1.js) clock
      (reconcileFailed env owned.failed p) := by
  unfold reconcileFailed
  apply cleanly_readClock
  intro now
  apply (cleanly_liftExcept (Q := fun clock' p' => now ∈ clock' ∧
    executeFailurePolicy env.platform env.gates now owned.failed p = .ok p')
    fun _ hp => ⟨Set.mem_insert _ _, hp⟩).bind
  rintro clock₁ p' ⟨hnow, hp'⟩
  apply cleanly_readClock
  intro now'
  have hdated : Dated (insert now' clock₁) p'.js :=
    hu.dated_policy hp' (Set.mem_insert_of_mem _ hnow)
  unfold resetStartTimeOnGlobalRestart
  split_ifs
  · exact hdated
  · exact hdated
  · exact hdated

theorem cleanly_reconcileInPlace (hu : Uncounting js p) :
    Cleanly js (fun clock' q => Dated clock' q.js) clock (reconcileInPlace env p) := by
  unfold reconcileInPlace
  split_ifs
  · refine ⟨trivial, fun answer => ?_⟩
    apply (cleanly_liftExcept (Q := fun _ _ => True) fun _ _ => trivial).bind
    intro clock₁ pods _
    apply cleanly_readClock
    intro now
    exact cleanly_liftExcept fun q hq => hu.dated_inPlace hq (Set.mem_insert now _)
  · exact hu.dated_self

theorem cleanly_syncExecutionAttempts (hu : Undecided env js jobs owned p) (active : List Job) :
    Cleanly js (fun _ q => Uncounting js q) clock
      (syncExecutionAttempts env active owned.successful owned.failed p) := by
  unfold syncExecutionAttempts
  cases hnext : nextExecutionAttempts env p.js active owned.successful owned.failed with
  | none => exact hu.uncounting
  | some next =>
    obtain ⟨attempts, written⟩ := next
    have hsettled : Uncounting js (setExecutionAttempts attempts p) :=
      hu.uncounting.harmless rfl (harmless_setExecutionAttempts attempts p)
    cases written with
    | false => exact ⟨hsettled.unfinished, hsettled.none, hsettled.keeps⟩
    | true =>
      refine ⟨fun _ _ => hsettled.dated_self, fun outcome => ?_⟩
      cases outcome with
      | error err => exact trivial
      | ok _ => exact hsettled

theorem cleanly_reconcileJobs (hu : Undecided env js jobs owned p)
    (statuses : List ReplicatedJobStatus) (requeueAfter : ℤ) :
    Cleanly js (fun clock' r => Dated clock' r.1.js) clock
      (reconcileJobs env owned statuses requeueAfter p) := by
  unfold reconcileJobs
  apply ((silently_syncJobScaling env p.js owned.active).cleanly
    (sparing_syncJobScaling _ _ _) clock).bind
  rintro clock₁ active -
  apply (cleanly_syncExecutionAttempts hu active).bind
  intro clock₂ q hq
  apply ((silently_reconcileReplicatedJobs env q owned statuses).cleanly
    (sparing_reconcileReplicatedJobs _ _ _ _) clock₂).bind
  rintro clock₃ q₁ ⟨-, hstartup⟩
  have hq₁ := hq.harmless hstartup.metrics hstartup.harmless
  apply ((silently_suspendOrResume env q₁ active statuses).cleanly
    (sparing_suspendOrResume _ _ _ _) clock₃).bind
  rintro clock₄ q₂ ⟨-, hsuspend⟩
  have hq₂ := hq₁.harmless hsuspend.metrics hsuspend.harmless
  apply (cleanly_reconcileInPlace hq₂).bind
  exact fun _ _ hdated => hdated

theorem cleanly_reconcileRunning (hu : Undecided env js jobs owned p)
    (statuses : List ReplicatedJobStatus) (requeueAfter : ℤ) :
    Cleanly js (fun clock' r => Dated clock' r.1.js) clock
      (reconcileRunning env owned statuses requeueAfter p) := by
  unfold reconcileRunning
  apply ((silently_reconcileResources env p.js).cleanly (sparing_reconcileResources _ _) clock).bind
  rintro clock₁ goOn -
  split_ifs
  · exact hu.uncounting.dated_self
  · apply ((silently_deleteJobs owned.active).cleanly (sparing_deleteJobs _) clock₁).bind
    exact fun _ _ _ => hu.uncounting.dated_self
  · exact cleanly_reconcileJobs hu statuses requeueAfter

theorem cleanly_reconcilePolicies (hu : Undecided env js jobs owned p)
    (statuses : List ReplicatedJobStatus) (requeueAfter : ℤ) :
    Cleanly js (fun clock' r => Dated clock' r.1.js) clock
      (reconcilePolicies env owned statuses requeueAfter p) := by
  unfold reconcilePolicies
  split_ifs
  · exact cleanly_reconcileFailed hu.uncounting
  · apply (cleanly_executeSuccessPolicy owned.successful).bind
    rintro clock₁ completed ⟨-, hcompleted⟩
    cases completed with
    | some p' =>
      obtain ⟨now, hnow, rfl⟩ := hcompleted p' rfl
      exact hu.uncounting.dated_completed hnow
    | none => exact cleanly_reconcileRunning hu statuses requeueAfter

theorem cleanly_reconcileUnfinished (hlive : Live env js jobs owned)
    (hun : jobSetFinished js = false) :
    Cleanly js (fun clock' r => Dated clock' r.1.js) clock
      (reconcileUnfinished env owned (calculateReplicatedJobStatuses env.gates js owned)
        (entryPass env js owned)) := by
  unfold reconcileUnfinished
  apply ((silently_deleteJobs owned.previous).cleanly (sparing_deleteJobs _) clock).bind
  rintro clock₁ _ -
  apply cleanly_readClock
  intro now
  apply cleanly_readClock
  intro now'
  apply cleanly_readClock
  intro now''
  have hu : Undecided env js jobs owned (syncActiveDeadlineStartTime env.gates now'
      (clearRestarting (calculateReplicatedJobStatuses env.gates js owned) now
        (entryPass env js owned))) := ⟨hlive, hun, now, now', rfl⟩
  split
  · split_ifs
    · exact cleanly_reconcileExpired hu.uncounting
    · exact cleanly_reconcilePolicies hu _ _
  · exact cleanly_reconcilePolicies hu _ _

theorem cleanly_reconcile (hdel : jobSetMarkedForDeletion js = false) :
    Cleanly js (fun clock' r => managedByExternalController js = none →
      jobSetFinished js = false → Dated clock' r.1.js) clock (reconcile env js jobs) := by
  unfold reconcile
  by_cases hm : (managedByExternalController js).isSome = true
  · have hexternal : ∀ (clock' : Set Time) (b : JobSet), managedByExternalController js = none →
        jobSetFinished js = false → Dated clock' b := by
      intro clock' b hinternal
      rw [hinternal] at hm
      cases hm
    rw [if_pos hm]
    split_ifs with hfinished
    · apply (cleanly_requeueFinished hfinished hdel rfl).bind
      exact fun _ _ _ => hexternal _ _
    · exact hexternal _ _
  · rw [if_neg hm]
    apply (cleanly_liftExcept (Q := fun _ owned => getChildJobs env.gates js jobs = .ok owned)
      fun _ h => h).bind
    intro clock₁ owned hsorted
    have hlive : Live env js jobs owned := ⟨hdel, by simpa using hm, hsorted⟩
    have hfinished : jobSetFinished (entryPass env js owned).js = jobSetFinished js := by
      rw [entryPass_js]
      rfl
    change Cleanly js _ clock₁ (if jobSetFinished (entryPass env js owned).js then _ else _)
    rw [hfinished]
    by_cases hfin : jobSetFinished js = true
    · rw [if_pos hfin]
      apply (cleanly_reconcileFinished hfin hdel).mono
      intro clock₂ r _ _ hun
      rw [hfin] at hun
      cases hun
    · rw [if_neg hfin]
      apply (cleanly_reconcileUnfinished hlive (by simpa using hfin)).mono
      exact fun _ _ hdated _ _ => hdated

theorem sparing_countMetrics (metrics : List Metric) : Sparing (countMetrics metrics) := by
  induction metrics with
  | nil => exact trivial
  | cons metric rest ih => exact Sparing.ask trivial fun _ => ih

theorem sparing_emitEvents (events : List EventParams) : Sparing (emitEvents events) := by
  induction events with
  | nil => exact trivial
  | cons event rest ih => exact Sparing.ask trivial fun _ => ih

/-- Whatever the API answers, a reconcile deletes the JobSet only after its TTL, and dates what
it finishes. -/
theorem reconcileRequest_cleanly (env : Env) (js : JobSet) (jobs : List Job) :
    Cleanly js (fun _ _ => True) ∅ (reconcileRequest env js jobs) := by
  unfold reconcileRequest
  split_ifs with hdel
  · exact trivial
  · apply (cleanly_reconcile (by simpa using hdel)).bind
    rintro clock₁ ⟨p, requeueAfter⟩ hdated
    apply Cleanly.bind (R := fun _ _ => True)
    · unfold updateJobSetStatus
      apply ((quiet_countMetrics p.metrics).cleanly (sparing_countMetrics _) clock₁).bind
      intro clock₂ _ hsub
      split_ifs
      · refine ⟨fun hinternal hun => (hdated hinternal hun).mono hsub, fun outcome => ?_⟩
        cases outcome with
        | error err => exact trivial
        | ok _ =>
          apply ((quiet_emitEvents p.opts.events).cleanly (sparing_emitEvents _) _).mono
          exact fun _ _ _ => trivial
      · exact trivial
    · exact fun _ _ _ => trivial

end Stages

end JobSetOperator
