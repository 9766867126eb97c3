import JobSetOperator.Controller.Evidence
import JobSetOperator.Controller.Transitions

/-!
# When a JobSet is reported as suspended

The reconcile of a suspended JobSet suspends its active Jobs one after the other and
reports the JobSet as suspended behind the last one. So a status write that makes the
Suspended condition true follows an answer for every Job of the snapshot that was active
and not suspended yet.
-/
namespace JobSetOperator

open Library Library.Program

/-- The names of the Jobs that an answer shows to be suspended. An answer about another
Job than the one asked for says nothing. -/
def confirmed (names : Set String) : (r : Request) → r.Response → Set String
  | .updateJob job, .ok _ => { n | n ∈ names ∨ (jobSuspended job = true ∧ n = job.name) }
  | .patchScaling job, .ok stored =>
    { n | n ∈ names ∨ stored.name ≠ job.name ∨ (jobSuspended stored = true ∧ n = job.name) }
  | _, _ => names

theorem grows_confirmed : Grows confirmed := by
  intro names r x n hn
  cases r with
  | updateJob job =>
    cases x with
    | ok _ => exact Or.inl hn
    | error _ => exact hn
  | patchScaling job =>
    cases x with
    | ok _ => exact Or.inl hn
    | error _ => exact hn
  | _ => exact hn

/-- Every Job of the list is suspended, in the snapshot or by an answer. -/
def Halted (names : Set String) (jobs : List Job) : Prop :=
  ∀ job ∈ jobs, jobSuspended job = true ∨ job.name ∈ names

theorem Halted.mono {names names' : Set String} {jobs : List Job} (h : Halted names jobs)
    (hsub : names ⊆ names') : Halted names' jobs :=
  fun job hjob => (h job hjob).imp id fun hn => hsub hn

/-- Every active Job of the snapshot is. -/
def SnapshotHalted (env : Env) (js : JobSet) (jobs : List Job) (names : Set String) : Prop :=
  ∃ owned, getChildJobs env.gates js jobs = .ok owned ∧ Halted names owned.active

/-- The second JobSet is not newly reported as suspended. -/
def NotReported (a b : JobSet) : Prop :=
  CondTrue b.status.conditions .jobSetSuspended → CondTrue a.status.conditions .jobSetSuspended

/-- The status reports the JobSet as suspended only when its Jobs are. -/
def HaltsFirst (env : Env) (js : JobSet) (jobs : List Job) (names : Set String) (js' : JobSet) :
    Prop :=
  NotReported js js' ∨ SnapshotHalted env js jobs names

theorem HaltsFirst.mono {env : Env} {js js' : JobSet} {jobs : List Job} {names names' : Set String}
    (hsub : names ⊆ names') (h : HaltsFirst env js jobs names js') :
    HaltsFirst env js jobs names' js' := by
  refine h.imp id ?_
  rintro ⟨owned, hsorted, hall⟩
  exact ⟨owned, hsorted, hall.mono hsub⟩

/-! ## Conditions other than the Suspended condition -/

theorem notReported_of_eq {a b : JobSet} (h : b.status.conditions = a.status.conditions) :
    NotReported a b := by
  unfold NotReported
  rw [h]
  exact id

theorem NotReported.trans {a b c : JobSet} (h : NotReported a b) (h' : NotReported b c) :
    NotReported a c := fun hc => h (h' hc)

theorem notReported_setCondition (now : Time) (o : ConditionOpts) (p : Pass)
    (ho : o.condition.type ≠ .jobSetSuspended) : NotReported p.js (setCondition now o p).js := by
  intro h
  rw [setCondition_js] at h
  rcases condTrue_of_updateCondition h with hbefore | ⟨htype, -⟩
  · exact hbefore
  · exact absurd htype ho

theorem notReported_setJobSetCompletedCondition (now : Time) (p : Pass) :
    NotReported p.js (setJobSetCompletedCondition now p).js := by
  unfold setJobSetCompletedCondition setRestartingConditionFalse
  exact (notReported_setCondition _ _ _ (by decide)).trans
    (notReported_setCondition _ _ _ (by decide))

theorem notReported_setJobSetFailedCondition (now : Time) (reason msg : String) (p : Pass) :
    NotReported p.js (setJobSetFailedCondition now reason msg p).js := by
  unfold setJobSetFailedCondition setRestartingConditionFalse
  exact (notReported_setCondition _ _ _ (by simp [conditionOpts])).trans
    (notReported_setCondition _ _ _ (by decide))

theorem failurePolicyRecreateJob_conditions {job : Job} {count : Bool} {event : EventParams}
    {p p' : Pass} (h : failurePolicyRecreateJob job count event p = .ok p') :
    p'.js.status.conditions = p.js.status.conditions := by
  unfold failurePolicyRecreateJob at h
  obtain ⟨name, -, h⟩ := except_bind_ok h
  obtain ⟨text, -, h⟩ := except_bind_ok h
  obtain ⟨index, -, h⟩ := except_bind_ok h
  obtain ⟨restarts, -, h⟩ := except_bind_ok h
  dsimp only at h
  split_ifs at h
  · obtain ⟨counted, -, h⟩ := except_bind_ok h
    cases h
    rfl
  · cases h
    rfl

theorem notReported_executeFailurePolicy {platform : Platform} {gates : FeatureGates}
    {now : Time} {failed : List Job} {p p' : Pass}
    (h : executeFailurePolicy platform gates now failed p = .ok p') : NotReported p.js p'.js := by
  rcases executeFailurePolicy_cases h with ⟨reason, msg, -, rfl⟩ |
    ⟨fp, job, count, event, condOpts, -, -, htype, -, rfl⟩ | ⟨fp, job, count, event, -, -, -, -, hp⟩
  · exact notReported_setJobSetFailedCondition _ _ _ _
  · unfold failurePolicyRecreateAll
    apply NotReported.trans (b := (p.withStatus (restartedStatus gates count p.js.status)).js)
    · exact notReported_of_eq rfl
    · exact notReported_setCondition now condOpts _ (by rw [htype]; decide)
  · exact notReported_of_eq (failurePolicyRecreateJob_conditions hp)

theorem notReported_resetStartTimeOnGlobalRestart (gates : FeatureGates) (now : Time)
    (before : ℕ) (p : Pass) :
    NotReported p.js (resetStartTimeOnGlobalRestart gates now before p).js := by
  unfold resetStartTimeOnGlobalRestart
  split_ifs <;> exact notReported_of_eq rfl

/-! ## The way to the status write -/

section Traversal

variable {env : Env} {js : JobSet} {jobs : List Job} {names : Set String} {α : Type}

/-- Every status write of the program keeps to the order; what it returns meets `Q`. -/
def Halts (env : Env) (js : JobSet) (jobs : List Job) (Q : Set String → α → Prop)
    (names : Set String) (p : Prog α) : Prop :=
  Backed confirmed (HaltsFirst env js jobs) Q names p

theorem Silently.halts {Q : α → Prop} {p : Prog α} (h : Silently Q p) (names : Set String) :
    Halts env js jobs (fun names' a => names ⊆ names' ∧ Q a) names p :=
  h.backed grows_confirmed names

theorem Silently.halts_mono {Q : α → Prop} {R : Set String → α → Prop} {p : Prog α}
    (h : Silently Q p) (hR : ∀ names' a, Q a → R names' a) (names : Set String) :
    Halts env js jobs R names p :=
  (h.halts names).mono fun names' a hQ => hR names' a hQ.2

/-- The copy of a Job that goes on after scaling: no answer is needed for a Job that an answer
has shown to be suspended, or that was left alone. -/
def Copied (names : Set String) (job copy : Job) : Prop :=
  copy = job ∨ job.name ∈ names ∨ copy.name = job.name ∧ jobSuspended copy = false

theorem Copied.mono {names' : Set String} {job copy : Job} (h : Copied names job copy)
    (hsub : names ⊆ names') : Copied names' job copy :=
  h.imp id fun h => h.imp (fun hn => hsub hn) id

theorem halted_of_copied {l copies : List Job} (h : List.Forall₂ (Copied names) l copies)
    (hcopies : Halted names copies) : Halted names l := by
  intro job hjob
  obtain ⟨copy, hcopy, hcopied⟩ := exists_of_forall₂ h.flip hjob
  rcases hcopied with rfl | hname | ⟨hname, hrunning⟩
  · exact hcopies copy hcopy
  · exact Or.inr hname
  · rcases hcopies copy hcopy with hsuspended | hconfirmed
    · rw [hrunning] at hsuspended
      cases hsuspended
    · exact Or.inr (hname ▸ hconfirmed)

theorem halts_syncJobScalingLoop (js' : JobSet) (l : List Job) (names : Set String) :
    Halts env js jobs (fun names' r => names ⊆ names' ∧
      (r.2 = [] → List.Forall₂ (Copied names') l r.1)) names (syncJobScalingLoop js' l) := by
  induction l generalizing names with
  | nil => exact ⟨fun _ hn => hn, fun _ => List.Forall₂.nil⟩
  | cons job rest ih =>
    have hkeep : Halts env js jobs (fun names' r => names ⊆ names' ∧
        (r.2 = [] → List.Forall₂ (Copied names') (job :: rest) r.1)) names
        (syncJobScalingLoop js' rest >>= fun r => pure (job :: r.1, r.2)) := by
      apply (ih names).bind
      rintro names' r ⟨hsub, hcopied⟩
      exact ⟨hsub, fun he => List.Forall₂.cons (Or.inl rfl) (hcopied he)⟩
    unfold syncJobScalingLoop
    cases desiredScaling js' job with
    | none => exact hkeep
    | some desired =>
      obtain ⟨parallelism, completions⟩ := desired
      dsimp only
      by_cases hneed : jobScalingNeedsPatch job parallelism completions = true
      · rw [if_pos hneed]
        refine ⟨trivial, fun answer => ?_⟩
        cases answer with
        | error e =>
          apply (ih _).bind
          rintro names' r ⟨hsub, -⟩
          exact ⟨fun _ hn => hsub hn, fun he => absurd he (List.cons_ne_nil _ _)⟩
        | ok stored =>
          apply (ih _).bind
          rintro names' r ⟨hsub, hcopied⟩
          refine ⟨fun _ hn => hsub (Or.inl hn), fun he => List.Forall₂.cons ?_ (hcopied he)⟩
          -- the answer shows a suspended Job, or the Job is still to be suspended
          by_cases hname : stored.name = job.name
          · cases hstored : jobSuspended stored with
            | true => exact Or.inr (Or.inl (hsub (Or.inr (Or.inr ⟨hstored, rfl⟩))))
            | false => exact Or.inr (Or.inr ⟨hname, hstored⟩)
          · exact Or.inr (Or.inl (hsub (Or.inr (Or.inl hname))))
      · rw [if_neg hneed]
        exact hkeep

theorem halts_syncJobScaling (js' : JobSet) (l : List Job) (names : Set String) :
    Halts env js jobs (fun names' copies => names ⊆ names' ∧ List.Forall₂ (Copied names') l copies)
      names (syncJobScaling env js' l) := by
  unfold syncJobScaling
  split_ifs
  · exact ⟨fun _ hn => hn, List.forall₂_same.mpr fun _ _ => Or.inl rfl⟩
  · apply (halts_syncJobScalingLoop js' l names).bind
    rintro names' ⟨copies, errs⟩ ⟨hsub, hcopied⟩
    unfold joinErrors
    by_cases he : errs = []
    · simp only [if_pos he]
      exact ⟨hsub, hcopied he⟩
    · simp only [if_neg he]
      exact trivial

theorem halts_suspendJobsLoop (l : List Job) (names : Set String) :
    Halts env js jobs (fun names' _ => names ⊆ names' ∧ Halted names' l) names
      (suspendJobsLoop l) := by
  induction l generalizing names with
  | nil => exact ⟨fun _ hn => hn, by simp [Halted]⟩
  | cons job rest ih =>
    unfold suspendJobsLoop
    split_ifs with hjob
    · apply (ih names).mono
      rintro names' _ ⟨hsub, hrest⟩
      refine ⟨hsub, fun j hj => ?_⟩
      rcases List.mem_cons.mp hj with rfl | hj
      · exact Or.inl hjob
      · exact hrest j hj
    · refine ⟨trivial, fun outcome => ?_⟩
      cases outcome with
      | error e => exact trivial
      | ok _ =>
        apply (ih _).mono
        rintro names' _ ⟨hsub, hrest⟩
        refine ⟨fun _ hn => hsub (Or.inl hn), fun j hj => ?_⟩
        rcases List.mem_cons.mp hj with rfl | hj
        · exact Or.inr (hsub (Or.inr ⟨rfl, rfl⟩))
        · exact hrest j hj

/-! ## The stages of a reconcile -/

variable {owned : ChildJobs} {p : Pass} (hsuspended : jobSetSuspended js = true)

include hsuspended

/-- The conditions are those of the snapshot until the policies decide. -/
theorem notReported_of_undecided (hu : Undecided env js jobs owned p) : NotReported js p.js := by
  apply notReported_of_eq
  apply hu.passed.conditions_kept
  unfold restartingPending
  rw [hsuspended]
  rfl

omit hsuspended in
theorem syncExecutionAttempts_suspended (hp : jobSetSuspended p.js = true)
    (active successful failed : List Job) :
    syncExecutionAttempts env active successful failed p = .done p := by
  have hnone : nextExecutionAttempts env p.js active successful failed = none := by
    unfold nextExecutionAttempts
    rw [if_pos (Or.inr hp)]
  unfold syncExecutionAttempts
  rw [hnone]

theorem halts_reconcileJobs (hu : Undecided env js jobs owned p)
    (statuses : List ReplicatedJobStatus) (requeueAfter : ℤ) (names : Set String) :
    Halts env js jobs (fun names' r => HaltsFirst env js jobs names' r.1.js) names
      (reconcileJobs env owned statuses requeueAfter p) := by
  have hp : jobSetSuspended p.js = true := by
    unfold jobSetSuspended at hsuspended ⊢
    rw [hu.passed.spec]
    exact hsuspended
  unfold reconcileJobs
  apply (halts_syncJobScaling p.js owned.active names).bind
  rintro names₁ active ⟨-, hcopied⟩
  rw [syncExecutionAttempts_suspended hp, done_bind]
  apply ((silently_reconcileReplicatedJobs env p owned statuses).halts names₁).bind
  rintro names₂ q ⟨hsub₂, hstartup⟩
  have hq : jobSetSuspended q.js = true := by
    obtain ⟨conditions, hjs⟩ := hstartup.conditions
    rw [hjs]
    exact hp
  unfold suspendOrResume suspendJobs
  rw [if_pos hq]
  apply Backed.bind (R := fun names' (_ : Pass) => names₂ ⊆ names' ∧ Halted names' active)
  · apply (halts_suspendJobsLoop active names₂).bind
    rintro names₃ _ ⟨hsub₃, hhalted⟩
    apply (silently_readClock.halts names₃).bind
    rintro names₄ now ⟨hsub₄, -⟩
    exact ⟨fun _ hn => hsub₄ (hsub₃ hn), hhalted.mono hsub₄⟩
  · rintro names₃ q₂ ⟨hsub₃, hhalted⟩
    apply ((silently_reconcileInPlace env q₂).halts names₃).bind
    rintro names₄ q₃ ⟨hsub₄, -⟩
    refine Or.inr ⟨owned, hu.sorted, halted_of_copied ?_ (hhalted.mono hsub₄)⟩
    exact hcopied.imp fun _ _ hab => hab.mono fun _ hn => hsub₄ (hsub₃ (hsub₂ hn))

theorem halts_reconcileRunning (hu : Undecided env js jobs owned p)
    (statuses : List ReplicatedJobStatus) (requeueAfter : ℤ) (names : Set String) :
    Halts env js jobs (fun names' r => HaltsFirst env js jobs names' r.1.js) names
      (reconcileRunning env owned statuses requeueAfter p) := by
  have hkept := notReported_of_undecided hsuspended hu
  unfold reconcileRunning
  apply ((silently_reconcileResources env p.js).halts names).bind
  rintro names' goOn -
  split_ifs
  · exact Or.inl hkept
  · apply ((silently_deleteJobs owned.active).halts names').bind
    exact fun _ _ _ => Or.inl hkept
  · exact halts_reconcileJobs hsuspended hu statuses requeueAfter names'

theorem halts_reconcilePolicies (hu : Undecided env js jobs owned p)
    (statuses : List ReplicatedJobStatus) (requeueAfter : ℤ) (names : Set String) :
    Halts env js jobs (fun names' r => HaltsFirst env js jobs names' r.1.js) names
      (reconcilePolicies env owned statuses requeueAfter p) := by
  have hkept := notReported_of_undecided hsuspended hu
  unfold reconcilePolicies
  split_ifs
  · apply (silently_reconcileFailed env p owned.failed).halts_mono
    rintro names' ⟨q, requeue⟩ ⟨now, now', p', hp', rfl⟩
    apply Or.inl
    apply (hkept.trans (notReported_executeFailurePolicy hp')).trans
    exact notReported_resetStartTimeOnGlobalRestart _ _ _ _
  · apply ((silently_executeSuccessPolicy p owned.successful).halts names).bind
    rintro names' completed ⟨-, hcompleted, -⟩
    cases completed with
    | some p' =>
      obtain ⟨now, rfl⟩ := hcompleted p' rfl
      exact Or.inl (hkept.trans (notReported_setJobSetCompletedCondition now p))
    | none => exact halts_reconcileRunning hsuspended hu statuses requeueAfter names'

theorem halts_reconcileUnfinished (hlive : Live env js jobs owned)
    (hun : jobSetFinished js = false) (names : Set String) :
    Halts env js jobs (fun names' r => HaltsFirst env js jobs names' r.1.js) names
      (reconcileUnfinished env owned (calculateReplicatedJobStatuses env.gates js owned)
        (entryPass env js owned)) := by
  unfold reconcileUnfinished
  apply ((silently_deleteJobs owned.previous).halts names).bind
  rintro names₁ _ -
  apply (silently_readClock.halts names₁).bind
  rintro names₂ now -
  apply (silently_readClock.halts names₂).bind
  rintro names₃ now' -
  apply (silently_readClock.halts names₃).bind
  rintro names₄ now'' -
  let p := syncActiveDeadlineStartTime env.gates now' (clearRestarting
    (calculateReplicatedJobStatuses env.gates js owned) now (entryPass env js owned))
  have hu : Undecided env js jobs owned p := ⟨hlive, hun, now, now', rfl⟩
  have hkept := notReported_of_undecided hsuspended hu
  split
  · split_ifs
    · apply (silently_reconcileExpired p owned).halts_mono
      rintro names' ⟨q, requeue⟩ ⟨now, rfl | rfl⟩
      · exact Or.inl (hkept.trans (notReported_setJobSetCompletedCondition now p))
      · exact Or.inl (hkept.trans (notReported_setJobSetFailedCondition now _ _ p))
    · exact halts_reconcilePolicies hsuspended hu _ _ names₄
  · exact halts_reconcilePolicies hsuspended hu _ 0 names₄

theorem halts_reconcile (hdel : jobSetMarkedForDeletion js = false) (names : Set String) :
    Halts env js jobs (fun names' r => HaltsFirst env js jobs names' r.1.js) names
      (reconcile env js jobs) := by
  unfold reconcile
  by_cases hm : (managedByExternalController js).isSome = true
  · rw [if_pos hm]
    split_ifs
    · apply ((silently_requeueFinished js).halts names).bind
      exact fun _ _ _ => Or.inl id
    · exact Or.inl id
  · rw [if_neg hm]
    have hlift : Silently (fun owned => getChildJobs env.gates js jobs = .ok owned)
        (liftExcept (getChildJobs env.gates js jobs)) := Silently.liftExcept fun _ h => h
    apply (hlift.halts names).bind
    rintro names' owned ⟨-, hsorted⟩
    have hlive : Live env js jobs owned := ⟨hdel, by simpa using hm, hsorted⟩
    have hfinished : jobSetFinished (entryPass env js owned).js = jobSetFinished js := by
      rw [entryPass_js]
      rfl
    change Halts env js jobs _ names' (if jobSetFinished (entryPass env js owned).js then _ else _)
    rw [hfinished]
    by_cases hfin : jobSetFinished js = true
    · rw [if_pos hfin]
      apply (silently_reconcileFinished env (entryPass env js owned) owned).halts_mono
      rintro names₁ ⟨q, requeue⟩ rfl
      apply Or.inl
      apply notReported_of_eq
      rw [entryPass_js]
    · rw [if_neg hfin]
      exact halts_reconcileUnfinished hsuspended hlive (by simpa using hfin) names'

/-- Whatever the API answers, the reconcile of a suspended JobSet reports it as suspended
only behind its Jobs. -/
theorem reconcileRequest_halts :
    Halts env js jobs (fun _ _ => True) ∅ (reconcileRequest env js jobs) := by
  apply backed_reconcileRequest grows_confirmed
  · exact fun hsub h => h.mono hsub
  · exact fun hdel => halts_reconcile hsuspended hdel ∅

end Traversal

end JobSetOperator
