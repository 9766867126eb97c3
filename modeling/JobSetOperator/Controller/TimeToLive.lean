import JobSetOperator.Controller.Calls

/-!
# The TTL of a finished JobSet

`executeTTLAfterFinishedPolicy` reads the clock once to decide whether the TTL
has expired and once more to compute how long to wait. When the TTL expires
between the two readings the wait is not positive, the caller drops it, and
nothing remains that would delete the JobSet.
-/
namespace JobSetOperator

open Library

/-- The clock readings on a path, in order. -/
def clockReadings : List (Σ r, Request.Response r) → List Time
  | [] => []
  | ⟨.now, now⟩ :: rest => now :: clockReadings rest
  | _ :: rest => clockReadings rest

/-- The server has accepted the deletion of a JobSet. -/
def DeletesJobSet (t : List (Σ r, Request.Response r)) : Prop :=
  ∃ js, (⟨.deleteJobSet js, Except.ok ()⟩ : Σ r, Request.Response r) ∈ t

/-- The clean-up is not forgotten: the JobSet is deleted, or the call is repeated because
of an error or after a wait that begins at the given time and ends after the TTL. -/
def CleanUpKept (js : JobSet) (ttlSeconds : ℤ) (now : Time)
    (t : List (Σ r, Request.Response r)) (res : Except String ℤ) : Prop :=
  DeletesJobSet t ∨ (∃ err, res = .error err) ∨
    ∃ requeueAfter finishAt, res = .ok requeueAfter ∧ 0 < requeueAfter ∧
      jobSetFinishTime js = .ok finishAt ∧
      finishAt + ttlSeconds * nanosecondsPerSecond ≤ now + requeueAfter

theorem timeSub_nonpos (t u : ℤ) : timeSub t u ≤ 0 ↔ t ≤ u := by
  unfold timeSub minDuration maxDuration
  omega

/-- A positive difference that fits a duration is exact. -/
theorem le_add_timeSub {t u : ℤ} (h : u < t) : t ≤ u + timeSub t u ↔ t - u ≤ maxDuration := by
  unfold timeSub minDuration maxDuration
  omega

/-! ## The ways through the call -/

/-- The call after the first reading, for a JobSet that expires at the given time. -/
def afterReading (js : JobSet) (expireAt first : Time) : Prog ℤ :=
  if expireAt ≤ first then
    .call (.deleteJobSet js) fun outcome : Outcome => liftExcept (outcome.map fun _ => 0)
  else .call .now fun second : Time => .done (timeSub expireAt second)

theorem afterReading_expired {js : JobSet} {expireAt first : Time} (h : expireAt ≤ first) :
    afterReading js expireAt first =
      .call (.deleteJobSet js) fun outcome : Outcome => liftExcept (outcome.map fun _ => 0) :=
  if_pos h

theorem afterReading_waits {js : JobSet} {expireAt first : Time} (h : ¬ expireAt ≤ first) :
    afterReading js expireAt first =
      .call .now fun second : Time => .done (timeSub expireAt second) :=
  if_neg h

section Call

variable {js : JobSet} {ttlSeconds : ℤ} (httl : js.spec.ttlSecondsAfterFinished = some ttlSeconds)
  (hlive : js.deletionTimestamp = none)

include httl hlive

/-- Without a finish time the call reads the clock and fails. -/
theorem executeTTL_error {err : String} (herr : jobSetFinishTime js = .error err) :
    executeTTLAfterFinishedPolicy js =
      .call .now fun _ => .fail ("error checking if ttl expired: " ++ err) := by
  have hcheck : ∀ now, checkIfTTLExpired js ttlSeconds now = .error err := by
    intro now
    simp [checkIfTTLExpired, hlive, ttlRemaining, herr, Bind.bind, Except.bind, Except.map]
  unfold executeTTLAfterFinishedPolicy
  rw [httl]
  refine congrArg (Program.call Request.now) (funext fun now => ?_)
  exact congrArg (fun check => liftExcept (Except.mapError _ check) >>= _) (hcheck now)

/-- With a finish time an expired JobSet is deleted, and the others wait. -/
theorem executeTTL_ok {finishAt : Time} (hfinish : jobSetFinishTime js = .ok finishAt) :
    executeTTLAfterFinishedPolicy js =
      .call .now (afterReading js (finishAt + ttlSeconds * nanosecondsPerSecond)) := by
  have hremaining : ∀ now, ttlRemaining js ttlSeconds now =
      .ok (timeSub (finishAt + ttlSeconds * nanosecondsPerSecond) now) := by
    intro now
    simp [ttlRemaining, hfinish, Bind.bind, Except.bind, pure, Except.pure]
  have hcheck : ∀ now, checkIfTTLExpired js ttlSeconds now =
      .ok (decide (finishAt + ttlSeconds * nanosecondsPerSecond ≤ now)) := by
    intro now
    simp [checkIfTTLExpired, hlive, hremaining, Except.map, timeSub_nonpos]
  unfold executeTTLAfterFinishedPolicy
  rw [httl]
  refine congrArg (Program.call Request.now) (funext fun (first : Time) => ?_)
  refine (congrArg (fun check => liftExcept (Except.mapError _ check) >>= _)
    (hcheck first)).trans ?_
  by_cases hexpired : finishAt + ttlSeconds * nanosecondsPerSecond ≤ first
  · rw [afterReading_expired hexpired, decide_eq_true hexpired]
    rfl
  · rw [afterReading_waits hexpired, decide_eq_false hexpired]
    refine congrArg (Program.call Request.now) (funext fun second => ?_)
    exact congrArg liftExcept (hremaining second)

end Call

/-! ## When the clean-up is kept -/

theorem not_deletes_waiting {first second : Time} :
    ¬ DeletesJobSet [⟨.now, first⟩, ⟨.now, second⟩] := by
  rintro ⟨js, hdel⟩
  rcases List.mem_pair.mp hdel with h | h
  · cases h
  · cases h

/-- For a JobSet with a TTL that is not being deleted, the clean-up is kept under every answer of the server
exactly when the TTL does not expire between the two readings of the clock and, if it is
still running, fits a duration. -/
theorem cleanUp_kept_iff {js : JobSet} {ttlSeconds : ℤ}
    (httl : js.spec.ttlSecondsAfterFinished = some ttlSeconds)
    (hlive : js.deletionTimestamp = none) (first second : Time) :
    (∀ t res, Program.Path (fun _ _ => True) (executeTTLAfterFinishedPolicy js) t res →
        clockReadings t <+: [first, second] → CleanUpKept js ttlSeconds second t res) ↔
      ∀ finishAt, jobSetFinishTime js = .ok finishAt →
        finishAt + ttlSeconds * nanosecondsPerSecond ≤ first ∨
          (second < finishAt + ttlSeconds * nanosecondsPerSecond ∧
            finishAt + ttlSeconds * nanosecondsPerSecond - second ≤ maxDuration) := by
  cases hfinish : jobSetFinishTime js with
  | error err =>
    rw [executeTTL_error httl hlive hfinish]
    constructor
    · intro _ finishAt h
      cases h
    · rintro - t res ⟨now, t', -, rfl, -, rfl⟩ -
      exact Or.inr (Or.inl ⟨_, rfl⟩)
  | ok finishAt =>
    rw [executeTTL_ok httl hlive hfinish]
    constructor
    · intro h finishAt' hfinishAt
      cases hfinishAt
      by_cases hexpired : finishAt + ttlSeconds * nanosecondsPerSecond ≤ first
      · exact Or.inl hexpired
      · -- the path on which the two readings are the given ones
        have hkept := h [⟨.now, first⟩, ⟨.now, second⟩] _
          ⟨first, _, trivial, rfl, by
            rw [afterReading_waits hexpired]
            exact ⟨second, [], trivial, rfl, rfl, rfl⟩⟩ (List.prefix_refl _)
        rcases hkept with hdel | ⟨err, herr⟩ |
          ⟨requeueAfter, finishAt', hres, hpos, hfinish', hlate⟩
        · exact absurd hdel not_deletes_waiting
        · cases herr
        · cases hfinish.symm.trans hfinish'
          cases hres
          have hlt : second < finishAt + ttlSeconds * nanosecondsPerSecond := by
            by_contra hge
            exact absurd hpos (not_lt.mpr ((timeSub_nonpos _ _).mpr (not_lt.mp hge)))
          exact Or.inr ⟨hlt, (le_add_timeSub hlt).mp hlate⟩
    · rintro h t res ⟨first', t', -, rfl, hpath⟩ hreadings
      by_cases hexpired : finishAt + ttlSeconds * nanosecondsPerSecond ≤ first'
      · rw [afterReading_expired hexpired] at hpath
        obtain ⟨outcome, t'', -, rfl, hpath⟩ := hpath
        cases outcome with
        | error err => exact Or.inr (Or.inl ⟨err, hpath.2⟩)
        | ok _ => exact Or.inl ⟨js, by simp⟩
      · rw [afterReading_waits hexpired] at hpath
        obtain ⟨second', t'', -, rfl, rfl, rfl⟩ := hpath
        have hsame : [first', second'] = [first, second] := hreadings.eq_of_length rfl
        cases hsame
        rcases h finishAt rfl with hearly | ⟨hlt, hfits⟩
        · exact absurd hearly hexpired
        · refine Or.inr (Or.inr ⟨_, finishAt, rfl, ?_, hfinish, (le_add_timeSub hlt).mpr hfits⟩)
          by_contra hge
          exact absurd ((timeSub_nonpos _ _).mp (not_lt.mp hge)) (not_le.mpr hlt)

/-- A JobSet that completed at the given time, with a TTL of one second. -/
def completedSet (time : Time) : JobSet :=
  { JobSet.zero with
    spec := { JobSetSpec.zero with ttlSecondsAfterFinished := some 1 }
    status := { JobSetStatus.new with
      conditions := [⟨.jobSetCompleted, .conditionTrue, "AllJobsCompleted",
        "jobset completed successfully", time⟩] } }

/-- Half a second after the JobSet has completed it is requeued. -/
theorem cleanUp_kept_early :
    jobSetFinishTime (completedSet 1) = .ok 1 ∧ ∀ t res,
      Program.Path (fun _ _ => True) (executeTTLAfterFinishedPolicy (completedSet 1)) t res →
      clockReadings t <+: [500000000, 500000001] →
      CleanUpKept (completedSet 1) 1 500000001 t res := by
  refine ⟨rfl, (cleanUp_kept_iff rfl rfl 500000000 500000001).mpr fun finishAt hfinish => ?_⟩
  cases hfinish
  exact Or.inr (by decide)

/-- When the second passes between the two readings, the call ends without an error, a
deletion or a wait. -/
theorem cleanUp_forgotten :
    jobSetFinished (completedSet 1) = true ∧ (completedSet 1).deletionTimestamp = none ∧
    ∃ t res, Program.Path (fun _ _ => True) (executeTTLAfterFinishedPolicy (completedSet 1)) t res ∧
      clockReadings t = [1000000000, 1000000001] ∧ res = .ok 0 ∧
      ¬ CleanUpKept (completedSet 1) 1 1000000001 t res := by
  refine ⟨rfl, rfl, [⟨.now, (1000000000 : Time)⟩, ⟨.now, (1000000001 : Time)⟩], .ok 0, ?_, rfl, rfl,
    ?_⟩
  · have hfinish : jobSetFinishTime (completedSet 1) = .ok 1 := rfl
    rw [executeTTL_ok rfl rfl hfinish]
    refine ⟨(1000000000 : Time), _, trivial, rfl, ?_⟩
    rw [afterReading_waits (by decide)]
    exact ⟨(1000000001 : Time), [], trivial, rfl, rfl, rfl⟩
  · rintro (hdel | ⟨err, herr⟩ | ⟨requeueAfter, finishAt, hres, hpos, -⟩)
    · exact not_deletes_waiting hdel
    · cases herr
    · cases hres
      exact absurd hpos (lt_irrefl 0)

end JobSetOperator
