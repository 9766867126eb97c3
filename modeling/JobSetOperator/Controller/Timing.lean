import JobSetOperator.Controller.Evidence
import JobSetOperator.Controller.Metering

/-!
# What a status write says about time

The start time that a reconcile writes is one it has read, unless the JobSet restarted,
or an answer of the clock in this reconcile. A suspended JobSet has none. The JobSet
fails with DeadlineExceeded only when the clock has shown that its deadline has passed
since the start time that is written.
-/
namespace JobSetOperator

open Library Library.Program

/-- The instants the clock has told. -/
def clocked (clock : Set Time) : (r : Request) → r.Response → Set Time
  | .now, t => insert t clock
  | _, _ => clock

theorem grows_clocked : Grows clocked := by
  intro clock r x
  cases r with
  | now => exact Set.subset_insert _ _
  | _ => exact Set.Subset.refl _

/-- The deadline has passed since the start time, at an instant the clock has told. -/
def Overdue (js : JobSet) (clock : Set Time) (js' : JobSet) : Prop :=
  jobSetSuspended js = false ∧ ∃ t ∈ clock, ∃ s d, js'.status.startTime = some s ∧
    js.spec.activeDeadlineSeconds = some d ∧ s + d * nanosecondsPerSecond ≤ t

/-- What holds of the status a reconcile of `js` writes. -/
structure Timed (js : JobSet) (clock : Set Time) (js' : JobSet) : Prop where
  cleared : jobSetSuspended js = true → js'.status.startTime = none
  started : ∀ s, js'.status.startTime = some s →
    s ∈ clock ∨ (js.status.startTime = some s ∧ js'.status.restarts = js.status.restarts)
  expired : Persisted .jobSetActiveDeadlineExceeded js' → Overdue js clock js'

/-- The controller keeps the time of unfinished JobSets that it manages. -/
def OnTime (js : JobSet) (clock : Set Time) (js' : JobSet) : Prop :=
  managedByExternalController js = none → jobSetFinished js = false → Timed js clock js'

section Timed

variable {js a b : JobSet} {clock clock' : Set Time}

theorem Timed.mono (h : Timed js clock a) (hsub : clock ⊆ clock') : Timed js clock' a := by
  refine ⟨h.cleared, fun s hs => (h.started s hs).imp (fun hmem => hsub hmem) id, fun hp => ?_⟩
  obtain ⟨hrunning, t, ht, hrest⟩ := h.expired hp
  exact ⟨hrunning, t, hsub ht, hrest⟩

theorem OnTime.mono (hsub : clock ⊆ clock') (h : OnTime js clock a) : OnTime js clock' a :=
  fun hinternal hun => (h hinternal hun).mono hsub

/-- A step that keeps the start time and the restarts, and does not fail the JobSet. -/
theorem Timed.step (h : Timed js clock a) (hstart : b.status.startTime = a.status.startTime)
    (hrestarts : b.status.restarts = a.status.restarts)
    (hnot : ¬ Persisted .jobSetActiveDeadlineExceeded b) : Timed js clock b := by
  constructor
  · intro hsuspended
    rw [hstart]
    exact h.cleared hsuspended
  · intro s hs
    rw [hstart] at hs
    rw [hrestarts]
    exact h.started s hs
  · exact fun hp => absurd hp hnot

end Timed

/-! ## The failure by deadline -/

theorem reason_of_updateConditionLoop {cs : List Condition} {c new : Condition}
    (hc : c ∈ (updateConditionLoop cs new).1) (htrue : c.status = .conditionTrue) :
    c ∈ cs ∨ c.reason = new.reason := by
  induction cs generalizing new with
  | nil => cases hc
  | cons first rest ih =>
    have hrest : ∀ new' : Condition, new'.reason = new.reason →
        c ∈ (updateConditionLoop rest new').1 → c ∈ first :: rest ∨ c.reason = new.reason := by
      intro new' hreason hmem
      rcases ih hmem with hold | hnew
      · exact Or.inl (List.mem_cons_of_mem _ hold)
      · exact Or.inr (hnew.trans hreason)
    unfold updateConditionLoop at hc
    dsimp only at hc
    split_ifs at hc
    · rcases List.mem_cons.mp hc with rfl | hmem
      · exact Or.inr rfl
      · exact hrest _ rfl hmem
    · rcases List.mem_cons.mp hc with rfl | hmem
      · exact Or.inr rfl
      · exact hrest { new with lastTransitionTime := first.lastTransitionTime } rfl hmem
    · rcases List.mem_cons.mp hc with rfl | hmem
      · exact Or.inl List.mem_cons_self
      · exact hrest _ rfl hmem
    · rcases List.mem_cons.mp hc with rfl | hmem
      · cases htrue
      · exact hrest _ rfl hmem
    · rcases List.mem_cons.mp hc with rfl | hmem
      · exact Or.inl List.mem_cons_self
      · exact hrest _ rfl hmem

/-- A condition that is true has been true, or has the reason of the update. -/
theorem reason_of_setCondition {now : Time} {o : ConditionOpts} {p : Pass} {c : Condition}
    (hc : c ∈ (setCondition now o p).js.status.conditions) (htrue : c.status = .conditionTrue) :
    c ∈ p.js.status.conditions ∨ c.reason = o.condition.reason := by
  have hloop := @reason_of_updateConditionLoop p.js.status.conditions c
    { o.condition with lastTransitionTime := now }
  rw [setCondition_js] at hc
  unfold updateCondition at hc
  dsimp only at hc
  split_ifs at hc
  · rcases List.mem_append.mp hc with hold | hnew
    · exact hloop hold htrue
    · rw [List.mem_singleton.mp hnew]
      exact Or.inr rfl
  · exact hloop hc htrue

theorem Uncounting.not_persisted {js : JobSet} {p : Pass} (h : Uncounting js p) (metric : Metric) :
    ¬ Persisted metric p.js := by
  intro hp
  have hfinished := hp.finished
  rw [h.keeps.finished, h.unfinished] at hfinished
  cases hfinished

/-- A JobSet that fails for another reason has not exceeded its deadline. -/
theorem Uncounting.failed_otherwise {js : JobSet} {p : Pass} (h : Uncounting js p) {now : Time}
    {reason msg : String} (hreason : reason ≠ "DeadlineExceeded") :
    ¬ Persisted .jobSetActiveDeadlineExceeded (setJobSetFailedCondition now reason msg p).js := by
  rintro ⟨c, hc, htype, htrue, hexceeded⟩
  have hsame : c ∈ (setRestartingConditionFalse now "JobSetFailed" "jobset failed"
      (setCondition now (conditionOpts eventTypeWarning .jobSetFailed .conditionTrue reason msg)
        p)).js.status.conditions := hc
  unfold setRestartingConditionFalse at hsame
  rcases reason_of_setCondition hsame htrue with hset | hother
  · rcases reason_of_setCondition hset htrue with hold | hnew
    · exact h.not_condTrue (Or.inr rfl) ⟨c, hold, htype, htrue⟩
    · exact hreason (hnew.symm.trans hexceeded)
  · rw [hexceeded] at hother
    exact absurd hother (by simp [conditionOpts])

theorem Uncounting.completed_otherwise {js : JobSet} {p : Pass} (h : Uncounting js p)
    (now : Time) :
    ¬ Persisted .jobSetActiveDeadlineExceeded (setJobSetCompletedCondition now p).js := by
  rintro ⟨c, hc, htype, htrue, -⟩
  have hends := ends_setJobSetCompletedCondition now p
  exact h.not_condTrue (Or.inr rfl)
    ((hends.others _ (Or.inr rfl) (by decide)).mp ⟨c, hc, htype, htrue⟩)

theorem Uncounting.policy_otherwise {env : Env} {js : JobSet} {owned : ChildJobs} {now : Time}
    {p p' : Pass} (h : Uncounting js p)
    (hp : executeFailurePolicy env.platform env.gates now owned.failed p = .ok p') :
    ¬ Persisted .jobSetActiveDeadlineExceeded p'.js := by
  have hkept : KeepsTerminal p.js p'.js → ¬ Persisted .jobSetActiveDeadlineExceeded p'.js := by
    intro hkeeps hpersisted
    have hfinished := hpersisted.finished
    rw [(h.keeps.trans hkeeps).finished, h.unfinished] at hfinished
    cases hfinished
  rcases executeFailurePolicy_cases hp with ⟨reason, msg, hreason, rfl⟩ |
    ⟨fp, job, count, event, o, hfp, hcause, ho, hbudget, rfl⟩ |
    ⟨fp, job, count, event, hfp, hcause, hgate, hbudget, hp'⟩
  · exact h.failed_otherwise hreason
  · exact hkept (restartsAll_failurePolicyRecreateAll hfp hcause ho
      fun hc => (hbudget hc).2).toKeepsTerminal
  · exact hkept (restartsJob_failurePolicyRecreateJob hfp hcause hgate hbudget hp').toKeepsTerminal

/-! ## The stages of a reconcile -/

section Stages

variable {env : Env} {js : JobSet} {jobs : List Job} {owned : ChildJobs} {p : Pass}
  {clock : Set Time}

/-- Every status write of the program is on time; what it returns meets `Q`. -/
def Times (js : JobSet) {α : Type} (Q : Set Time → α → Prop) (clock : Set Time) (p : Prog α) :
    Prop :=
  Backed clocked (OnTime js) Q clock p

theorem Silently.times {α : Type} {Q : α → Prop} {p : Prog α} (h : Silently Q p)
    (clock : Set Time) : Times js (fun clock' a => clock ⊆ clock' ∧ Q a) clock p :=
  h.backed grows_clocked clock

/-- The start time of an unfinished JobSet once it is up to date. -/
theorem timed_undecided {now now' : Time}
    (hp : p = syncActiveDeadlineStartTime env.gates now' (clearRestarting
      (calculateReplicatedJobStatuses env.gates js owned) now (entryPass env js owned)))
    (hu : Undecided env js jobs owned p) (hnow : now' ∈ clock) : Timed js clock p.js := by
  have hnot := hu.uncounting.not_persisted .jobSetActiveDeadlineExceeded
  obtain ⟨conditions, hq⟩ := clearRestarting_js
    (calculateReplicatedJobStatuses env.gates js owned) now (entryPass env js owned)
  rw [entryPass_js] at hq
  subst hp
  generalize clearRestarting (calculateReplicatedJobStatuses env.gates js owned) now
    (entryPass env js owned) = q at hq hnot
  have hsuspend : jobSetSuspended q.js = jobSetSuspended js := by rw [hq]; rfl
  have hstart : q.js.status.startTime = js.status.startTime := by rw [hq]
  have hrestarts : q.js.status.restarts = js.status.restarts := by rw [hq]
  refine ⟨fun hsuspended => ?_, fun s hs => ?_, fun hpersisted => absurd hpersisted hnot⟩
  · unfold syncActiveDeadlineStartTime
    rw [if_pos (Or.inr (hsuspend.trans hsuspended))]
    split_ifs with hnone
    · rfl
    · simpa using hnone
  · unfold syncActiveDeadlineStartTime at hs ⊢
    split_ifs at hs ⊢
    · cases hs
    · exact Or.inr ⟨hstart.symm.trans hs, hrestarts⟩
    · cases hs
      exact Or.inl hnow
    · exact Or.inr ⟨hstart.symm.trans hs, hrestarts⟩

/-- A step that keeps times and restarts keeps what is on time. -/
theorem Timed.timeless {a b : JobSet} (h : Timed js clock a) (hsame : Timeless a b)
    (hnot : ¬ Persisted .jobSetActiveDeadlineExceeded b) : Timed js clock b :=
  h.step hsame.startTime hsame.restarts hnot

theorem timed_running {active : List Job} {q q₁ q₂ q₃ : Pass} {acked : Option JobSet}
    (hu : Undecided env js jobs owned p) (ht : Timed js clock p.js)
    (hattempts : AttemptsStep env owned active p acked q) (hstartup : StartupStep q q₁)
    (hsuspend : SuspendStep q₁.js q₁ q₂) (hinPlace : InPlaceStep q₂ q₃) :
    Timed js clock q₃.js := by
  have hq := hu.uncounting.harmless hattempts.metrics hattempts.harmless
  have hq₁ := hq.harmless hstartup.metrics hstartup.harmless
  have hq₂ := hq₁.harmless hsuspend.metrics hsuspend.harmless
  have ht₁ : Timed js clock q.js := by
    have hnot := hq.not_persisted .jobSetActiveDeadlineExceeded
    cases hattempts with
    | keep _ => exact ht
    | start _ => exact ht.step rfl rfl hnot
    | resume _ => exact ht.step rfl rfl hnot
  have ht₂ := (ht₁.timeless hstartup.timeless (hq₁.not_persisted _)).timeless hsuspend.timeless
    (hq₂.not_persisted _)
  apply ht₂.timeless hinPlace.timeless
  rcases hinPlace with rfl | ⟨now, pods, h⟩
  · exact hq₂.not_persisted _
  · rcases reconcileInPlaceRestart_effect h with rfl | rfl | ⟨previous, current, rfl⟩
    · exact hq₂.failed_otherwise (by simp)
    · exact hq₂.not_persisted _
    · exact hq₂.not_persisted .jobSetActiveDeadlineExceeded

/-- A global restart starts the time anew. -/
theorem timed_failed {now now' : Time} {p' : Pass} (hu : Undecided env js jobs owned p)
    (ht : Timed js clock p.js) (hgate : env.gates.jobSetActiveDeadlineSeconds = true)
    (hp' : executeFailurePolicy env.platform env.gates now owned.failed p = .ok p')
    (hnow : now' ∈ clock) :
    Timed js clock
      (resetStartTimeOnGlobalRestart env.gates now' p.js.status.restarts p').js := by
  have hnot := hu.uncounting.policy_otherwise hp'
  have hstart : p'.js.status.startTime = p.js.status.startTime := by
    rcases executeFailurePolicy_times hp' with hsame | ⟨count, -, -, hsame⟩
    · exact hsame.startTime
    · exact hsame
  unfold resetStartTimeOnGlobalRestart
  simp only [hgate, Bool.not_true, Bool.false_eq_true, if_false]
  split_ifs with hrestarted
  · refine ⟨fun hsuspended => ?_, fun s hs => ?_, fun hpersisted => absurd hpersisted hnot⟩
    · have hnone := ht.cleared hsuspended
      rw [← hstart] at hnone
      exact absurd hnone hrestarted.2
    · cases hs
      exact Or.inl hnow
  · rcases executeFailurePolicy_times hp' with hsame | ⟨count, hraised, -, -⟩
    · exact ht.timeless hsame hnot
    · -- the JobSet restarts without a start time
      have hnone : p'.js.status.startTime = none := by
        by_contra hsome
        exact hrestarted ⟨by rw [hraised]; exact Nat.lt_succ_self _, hsome⟩
      refine ⟨fun _ => hnone, fun s hs => ?_, fun hpersisted => absurd hpersisted hnot⟩
      rw [hnone] at hs
      cases hs

theorem overdue_of_remaining {now : Time} {remaining : ℤ} (hspec : p.js.spec = js.spec)
    (harmed : activeDeadlineRemaining env.gates now p.js = some remaining)
    (hpassed : remaining ≤ 0) (hnow : now ∈ clock) : Overdue js clock p.js := by
  unfold activeDeadlineRemaining at harmed
  split_ifs at harmed with hgate hsuspended
  · split at harmed <;> cases harmed
  cases hseconds : p.js.spec.activeDeadlineSeconds with
  | none => simp [hseconds] at harmed
  | some d =>
    cases hstart : p.js.status.startTime with
    | none => simp [hseconds, hstart] at harmed
    | some s =>
      simp only [hseconds, hstart] at harmed
      split_ifs at harmed
      cases harmed
      refine ⟨?_, now, hnow, s, d, hstart, hspec ▸ hseconds, ?_⟩
      · unfold jobSetSuspended at hsuspended ⊢
        rw [← hspec]
        simpa using hsuspended
      · -- a duration that saturates is positive
        rcases min_le_iff.mp (max_le_iff.mp hpassed).2 with hmax | hleft
        · exact absurd hmax (by decide)
        · exact sub_nonpos.mp hleft

theorem times_syncExecutionAttempts (hu : Undecided env js jobs owned p)
    (ht : Timed js clock p.js) (active : List Job) :
    Times js (fun clock' q => clock ⊆ clock' ∧ ∃ acked, AttemptsStep env owned active p acked q)
      clock (syncExecutionAttempts env active owned.successful owned.failed p) := by
  unfold syncExecutionAttempts
  cases hnext : nextExecutionAttempts env p.js active owned.successful owned.failed with
  | none => exact ⟨fun _ hs => hs, _, .keep hnext⟩
  | some next =>
    obtain ⟨attempts, written⟩ := next
    cases written with
    | false => exact ⟨fun _ hs => hs, _, .start hnext⟩
    | true =>
      have hsettled : Uncounting js (setExecutionAttempts attempts p) :=
        hu.uncounting.harmless rfl (harmless_setExecutionAttempts attempts p)
      refine ⟨fun _ _ => ht.step rfl rfl (hsettled.not_persisted _), fun outcome => ?_⟩
      cases outcome with
      | error err => exact trivial
      | ok _ => exact ⟨fun _ hs => hs, _, .resume hnext⟩

theorem times_reconcileJobs (hu : Undecided env js jobs owned p) (ht : Timed js clock p.js)
    (statuses : List ReplicatedJobStatus) (requeueAfter : ℤ) :
    Times js (fun clock' r => Timed js clock' r.1.js) clock
      (reconcileJobs env owned statuses requeueAfter p) := by
  unfold reconcileJobs
  apply ((silently_syncJobScaling env p.js owned.active).times clock).bind
  rintro clock₁ active ⟨hsub₁, -⟩
  apply (times_syncExecutionAttempts hu (ht.mono hsub₁) active).bind
  rintro clock₂ q ⟨hsub₂, acked, hattempts⟩
  apply ((silently_afterAttempts env q owned active statuses requeueAfter).times clock₂).mono
  rintro clock₃ r ⟨hsub₃, q₁, q₂, hstartup, hsuspend, hinPlace⟩
  have hp := ht.mono ((hsub₁.trans hsub₂).trans hsub₃)
  exact timed_running hu hp hattempts hstartup hsuspend hinPlace

theorem times_reconcileRunning (hu : Undecided env js jobs owned p) (ht : Timed js clock p.js)
    (statuses : List ReplicatedJobStatus) (requeueAfter : ℤ) :
    Times js (fun clock' r => Timed js clock' r.1.js) clock
      (reconcileRunning env owned statuses requeueAfter p) := by
  unfold reconcileRunning
  apply ((silently_reconcileResources env p.js).times clock).bind
  rintro clock₁ goOn ⟨hsub₁, -⟩
  split_ifs
  · exact ht.mono hsub₁
  · apply ((silently_deleteJobs owned.active).times clock₁).bind
    exact fun clock₂ _ hsub₂ => ht.mono (hsub₁.trans hsub₂.1)
  · exact times_reconcileJobs hu (ht.mono hsub₁) statuses requeueAfter

theorem times_reconcileFailed (hu : Undecided env js jobs owned p) (ht : Timed js clock p.js)
    (hgate : env.gates.jobSetActiveDeadlineSeconds = true) :
    Times js (fun clock' r => Timed js clock' r.1.js) clock
      (reconcileFailed env owned.failed p) := by
  unfold reconcileFailed
  apply backed_readClock
  intro now
  have hlift : Silently
      (fun p' => executeFailurePolicy env.platform env.gates now owned.failed p = .ok p')
      (liftExcept (executeFailurePolicy env.platform env.gates now owned.failed p)) :=
    Silently.liftExcept fun _ h => h
  apply (hlift.times _).bind
  rintro clock₁ p' ⟨hsub₁, hp'⟩
  apply backed_readClock
  intro now'
  have hold : clock ⊆ insert now' clock₁ := fun s hs => Or.inr (hsub₁ (Or.inr hs))
  exact timed_failed hu (ht.mono hold) hgate hp' (Set.mem_insert _ _)

theorem timed_completed (hu : Undecided env js jobs owned p) (ht : Timed js clock p.js)
    (now : Time) : Timed js clock (setJobSetCompletedCondition now p).js :=
  ht.timeless (timeless_setJobSetCompletedCondition now p) (hu.uncounting.completed_otherwise now)

theorem times_reconcilePolicies (hu : Undecided env js jobs owned p) (ht : Timed js clock p.js)
    (hgate : env.gates.jobSetActiveDeadlineSeconds = true)
    (statuses : List ReplicatedJobStatus) (requeueAfter : ℤ) :
    Times js (fun clock' r => Timed js clock' r.1.js) clock
      (reconcilePolicies env owned statuses requeueAfter p) := by
  unfold reconcilePolicies
  split_ifs
  · exact times_reconcileFailed hu ht hgate
  · apply ((silently_executeSuccessPolicy p owned.successful).times clock).bind
    rintro clock₁ completed ⟨hsub₁, hcompleted, -⟩
    cases completed with
    | some p' =>
      obtain ⟨now, rfl⟩ := hcompleted p' rfl
      exact timed_completed hu (ht.mono hsub₁) now
    | none => exact times_reconcileRunning hu (ht.mono hsub₁) statuses requeueAfter

/-- The clock has shown that the deadline has passed. -/
theorem times_reconcileExpired (hu : Undecided env js jobs owned p) (ht : Timed js clock p.js)
    {now : Time} {remaining : ℤ}
    (harmed : activeDeadlineRemaining env.gates now p.js = some remaining)
    (hpassed : remaining ≤ 0) (hnow : now ∈ clock) :
    Times js (fun clock' r => Timed js clock' r.1.js) clock (reconcileExpired owned p) := by
  apply ((silently_reconcileExpired p owned).times clock).mono
  rintro clock₁ r ⟨hsub₁, now', hcompleted | hexpired⟩
  · rw [hcompleted]
    exact timed_completed hu (ht.mono hsub₁) now'
  · rw [hexpired]
    have hp := ht.mono hsub₁
    have hsame := timeless_failOnActiveDeadline now' p
    have hoverdue := overdue_of_remaining hu.passed.spec harmed hpassed (hsub₁ hnow)
    constructor
    · intro hsuspended
      rw [hsame.startTime]
      exact hp.cleared hsuspended
    · intro s hs
      rw [hsame.startTime] at hs
      rw [hsame.restarts]
      exact hp.started s hs
    · intro _
      unfold Overdue
      rw [hsame.startTime]
      exact hoverdue

theorem times_reconcileUnfinished (hlive : Live env js jobs owned)
    (hun : jobSetFinished js = false) (hgate : env.gates.jobSetActiveDeadlineSeconds = true) :
    Times js (fun clock' r => Timed js clock' r.1.js) clock
      (reconcileUnfinished env owned (calculateReplicatedJobStatuses env.gates js owned)
        (entryPass env js owned)) := by
  unfold reconcileUnfinished
  apply ((silently_deleteJobs owned.previous).times clock).bind
  rintro clock₁ _ -
  apply backed_readClock
  intro now
  apply backed_readClock
  intro now'
  apply backed_readClock
  intro now''
  let p := syncActiveDeadlineStartTime env.gates now' (clearRestarting
    (calculateReplicatedJobStatuses env.gates js owned) now (entryPass env js owned))
  have hu : Undecided env js jobs owned p := ⟨hlive, hun, now, now', rfl⟩
  have ht : Timed js (insert now'' (insert now' (insert now clock₁))) p.js :=
    timed_undecided rfl hu (Or.inr (Or.inl rfl))
  split
  · rename_i remaining harmed
    split_ifs with hpassed
    · exact times_reconcileExpired hu ht harmed hpassed (Set.mem_insert _ _)
    · exact times_reconcilePolicies hu ht hgate _ _
  · exact times_reconcilePolicies hu ht hgate _ _

theorem times_reconcile (hdel : jobSetMarkedForDeletion js = false)
    (hgate : env.gates.jobSetActiveDeadlineSeconds = true) :
    Times js (fun clock' r => OnTime js clock' r.1.js) clock (reconcile env js jobs) := by
  unfold reconcile
  by_cases hm : (managedByExternalController js).isSome = true
  · have hexternal : ∀ clock' b, OnTime js clock' b := by
      intro clock' b hinternal
      rw [hinternal] at hm
      cases hm
    rw [if_pos hm]
    split_ifs
    · apply ((silently_requeueFinished js).times clock).bind
      exact fun _ _ _ => hexternal _ _
    · exact hexternal _ _
  · rw [if_neg hm]
    have hlift : Silently (fun owned => getChildJobs env.gates js jobs = .ok owned)
        (liftExcept (getChildJobs env.gates js jobs)) := Silently.liftExcept fun _ h => h
    apply (hlift.times clock).bind
    rintro clock₁ owned ⟨-, hsorted⟩
    have hlive : Live env js jobs owned := ⟨hdel, by simpa using hm, hsorted⟩
    have hfinished : jobSetFinished (entryPass env js owned).js = jobSetFinished js := by
      rw [entryPass_js]
      rfl
    change Times js _ clock₁ (if jobSetFinished (entryPass env js owned).js then _ else _)
    rw [hfinished]
    by_cases hfin : jobSetFinished js = true
    · rw [if_pos hfin]
      apply ((silently_reconcileFinished env (entryPass env js owned) owned).times clock₁).mono
      intro clock₂ r _ _ hun
      rw [hfin] at hun
      cases hun
    · rw [if_neg hfin]
      apply (times_reconcileUnfinished hlive (by simpa using hfin) hgate).mono
      exact fun _ _ ht _ _ => ht

/-- Whatever the API answers, the status writes of a reconcile are on time. -/
theorem reconcileRequest_times (env : Env) (js : JobSet) (jobs : List Job)
    (hgate : env.gates.jobSetActiveDeadlineSeconds = true) :
    Times js (fun _ _ => True) ∅ (reconcileRequest env js jobs) := by
  apply backed_reconcileRequest grows_clocked
  · exact fun hsub h => h.mono hsub
  · exact fun hdel => times_reconcile hdel hgate

end Stages

end JobSetOperator
