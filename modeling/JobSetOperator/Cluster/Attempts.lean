import JobSetOperator.Cluster.Execution
import JobSetOperator.Cluster.Invariant

/-!
# Execution attempts and restarts

The execution attempts are set on the first run, on the first resume or on the
first restart, each with its own formula, and raised by resumes and by restarts of
the whole JobSet. With the gate on, every persisted value is at least the number
of restarts, and no restart leaves it where it was.
-/
namespace JobSetOperator

open Library

/-- A set number of execution attempts is at least the number of restarts. -/
def AttemptsOk (js : JobSet) : Prop :=
  ∀ e, js.status.executionAttempts = some e → js.status.restarts ≤ e

/-- What a later version keeps: neither counter goes down, the attempts stay set,
and more restarts are more attempts. -/
structure Advances (a b : JobSet) : Prop where
  restarts : a.status.restarts ≤ b.status.restarts
  attempts : ∀ e, a.status.executionAttempts = some e →
    ∃ e', b.status.executionAttempts = some e' ∧ e ≤ e'
  raised : a.status.restarts < b.status.restarts →
    ∃ e', b.status.executionAttempts = some e' ∧ a.status.executionAttempts.getD 0 < e'

theorem Advances.refl (a : JobSet) : Advances a a :=
  ⟨le_rfl, fun e he => ⟨e, he, le_rfl⟩, fun h => absurd h (lt_irrefl _)⟩

theorem Advances.getD_le {a b : JobSet} (h : Advances a b) :
    a.status.executionAttempts.getD 0 ≤ b.status.executionAttempts.getD 0 := by
  cases ha : a.status.executionAttempts with
  | none => exact Nat.zero_le _
  | some e =>
    obtain ⟨e', he', hle⟩ := h.attempts e ha
    rw [he']
    exact hle

theorem Advances.trans {a b c : JobSet} (h₁ : Advances a b) (h₂ : Advances b c) :
    Advances a c := by
  refine ⟨h₁.restarts.trans h₂.restarts, fun e he => ?_, fun hlt => ?_⟩
  · obtain ⟨e', he', hle⟩ := h₁.attempts e he
    obtain ⟨e'', he'', hle'⟩ := h₂.attempts e' he'
    exact ⟨e'', he'', hle.trans hle'⟩
  · rcases Nat.lt_or_ge b.status.restarts c.status.restarts with hbc | hcb
    · obtain ⟨e', he', hlt'⟩ := h₂.raised hbc
      exact ⟨e', he', h₁.getD_le.trans_lt hlt'⟩
    · obtain ⟨e', he', hlt'⟩ := h₁.raised (by omega)
      obtain ⟨e'', he'', hle⟩ := h₂.attempts e' he'
      exact ⟨e'', he'', hlt'.trans_le hle⟩

theorem Advances.of_same {a b : JobSet} (hr : b.status.restarts = a.status.restarts)
    (he : b.status.executionAttempts = a.status.executionAttempts) : Advances a b :=
  ⟨hr.ge, fun e h => ⟨e, he.trans h, le_rfl⟩, fun h => absurd h (by omega)⟩

theorem AttemptsOk.of_same {a b : JobSet} (h : AttemptsOk a)
    (hr : b.status.restarts = a.status.restarts)
    (he : b.status.executionAttempts = a.status.executionAttempts) : AttemptsOk b := by
  intro e hb
  rw [hr]
  exact h e (he.symm.trans hb)

theorem Timeless.advances {a b : JobSet} (h : Timeless a b) : Advances a b :=
  Advances.of_same h.restarts h.attempts

theorem Timeless.attemptsOk {a b : JobSet} (h : Timeless a b) (ha : AttemptsOk a) : AttemptsOk b :=
  ha.of_same h.restarts h.attempts

/-! ## One write -/

/-- Up to the policies neither counter changes. -/
theorem ActivePass.counters {env : Env} {js : JobSet} {owned : ChildJobs} {p : Pass}
    (h : ActivePass env js owned p) : p.js.status.restarts = js.status.restarts ∧
      p.js.status.executionAttempts = js.status.executionAttempts := by
  obtain ⟨_, _, hjs⟩ := h.js
  rw [hjs]
  exact ⟨rfl, rfl⟩

/-- The attempts a reconcile moves to. -/
theorem nextExecutionAttempts_advances {env : Env} {js : JobSet}
    {active successful failed : List Job} {attempts : ℕ} {persist : Bool}
    (h : nextExecutionAttempts env js active successful failed = some (attempts, persist)) :
    js.status.executionAttempts.getD 0 ≤ attempts ∧
      (AttemptsOk js → js.status.restarts ≤ attempts) := by
  unfold nextExecutionAttempts at h
  by_cases hoff : !env.gates.executionAttemptsTracking ∨ jobSetSuspended js
  · rw [if_pos hoff] at h
    cases h
  · rw [if_neg hoff] at h
    by_cases hrunning : !isStatusConditionTrue js.status.conditions .jobSetSuspended
    · rw [if_pos hrunning] at h
      cases he : js.status.executionAttempts with
      | none =>
        simp only [he, Option.some.injEq, Prod.mk.injEq] at h
        exact ⟨Nat.zero_le _, fun _ => h.1.le⟩
      | some e => simp [he] at h
    · rw [if_neg hrunning] at h
      cases he : js.status.executionAttempts with
      | none =>
        simp only [he, Option.some.injEq, Prod.mk.injEq] at h
        refine ⟨Nat.zero_le _, fun _ => ?_⟩
        rw [← h.1]
        split_ifs <;> omega
      | some e =>
        simp only [he] at h
        split_ifs at h
        simp only [Option.some.injEq, Prod.mk.injEq] at h
        exact ⟨by simp; omega, fun hok => by have := hok e he; omega⟩

/-- The step that settles the attempts. -/
theorem settled_attempts {env : Env} {p : Pass} {active successful failed : List Job}
    {attempts : ℕ} {persist : Bool} {b : JobSet}
    (h : nextExecutionAttempts env p.js active successful failed = some (attempts, persist))
    (hb : Timeless (setExecutionAttempts attempts p).js b) (hp : AttemptsOk p.js) :
    AttemptsOk b ∧ Advances p.js b := by
  obtain ⟨hle, hok⟩ := nextExecutionAttempts_advances h
  have hset : AttemptsOk (setExecutionAttempts attempts p).js := by
    intro e he
    cases he
    exact hok hp
  have hadv : Advances p.js (setExecutionAttempts attempts p).js := by
    refine ⟨le_rfl, fun e he => ⟨attempts, rfl, ?_⟩, fun hlt => absurd hlt (lt_irrefl _)⟩
    rw [he] at hle
    exact hle
  exact ⟨hb.attemptsOk hset, hadv.trans hb.advances⟩

/-- A restart of the whole JobSet raises both counters. -/
theorem restarted_attempts {gates : FeatureGates} (hgate : gates.executionAttemptsTracking = true)
    {count : Bool} {a b : JobSet} (ha : AttemptsOk a)
    (hr : b.status.restarts = (restartedStatus gates count a.status).restarts)
    (he : b.status.executionAttempts = (restartedStatus gates count a.status).executionAttempts) :
    AttemptsOk b ∧ Advances a b := by
  have hr' : b.status.restarts = a.status.restarts + 1 := hr
  unfold restartedStatus at he
  dsimp only at he
  rw [if_pos hgate] at he
  cases hx : a.status.executionAttempts with
  | none =>
    simp only [hx] at he
    refine ⟨fun e hb => ?_, by omega, fun e h => ?_, fun _ => ⟨_, he, by rw [hx]; simp⟩⟩
    · have := Option.some.inj (hb.symm.trans he)
      omega
    · rw [hx] at h
      cases h
  | some x =>
    simp only [hx] at he
    have hle := ha x hx
    refine ⟨fun e hb => ?_, by omega, fun e h => ⟨_, he, ?_⟩, fun _ => ⟨_, he, by rw [hx]; simp⟩⟩
    · have := Option.some.inj (hb.symm.trans he)
      omega
    · rw [hx] at h
      cases h
      exact Nat.le_succ _

theorem Writes.advances {env : Env} {js js' : JobSet} {jobs : List Job} {s : Seen}
    (h : Writes env js jobs s js') (hgate : env.gates.executionAttemptsTracking = true)
    (hjs : AttemptsOk js) : AttemptsOk js' ∧ Advances (s.acked.getD js) js' := by
  have hactive : ∀ {owned : ChildJobs} {p : Pass}, ActivePass env js owned p →
      AttemptsOk p.js ∧ Advances js p.js := by
    intro owned p hp
    obtain ⟨hr, he⟩ := hp.counters
    exact ⟨hjs.of_same hr he, Advances.of_same hr he⟩
  -- a first write that keeps what the policies started from
  have hkeep : ∀ {owned : ChildJobs} {p : Pass} {b : JobSet}, ActivePass env js owned p →
      s.acked = none → Timeless p.js b → AttemptsOk b ∧ Advances (s.acked.getD js) b := by
    intro owned p b hp hfirst hb
    obtain ⟨hok, hadv⟩ := hactive hp
    rw [hfirst]
    exact ⟨hb.attemptsOk hok, hadv.trans hb.advances⟩
  cases h with
  | finished live first h =>
    rw [first, entryPass_js]
    exact ⟨hjs.of_same rfl rfl, Advances.of_same rfl rfl⟩
  | waiting hu first => exact hkeep hu.passed first (Timeless.refl _)
  | completed hu first now hs hmet =>
    exact hkeep hu.passed first (timeless_setJobSetCompletedCondition _ _)
  | expired hu first now now' harmed hpassed =>
    exact hkeep hu.passed first (timeless_failOnActiveDeadline _ _)
  | @failed owned p p' hu first now now' hne hp =>
    have hreset : (resetStartTimeOnGlobalRestart env.gates now' p.js.status.restarts
          p').js.status.restarts = p'.js.status.restarts ∧
        (resetStartTimeOnGlobalRestart env.gates now' p.js.status.restarts
          p').js.status.executionAttempts = p'.js.status.executionAttempts := by
      unfold resetStartTimeOnGlobalRestart
      split_ifs <;> exact ⟨rfl, rfl⟩
    obtain ⟨hok, hadv⟩ := hactive hu.passed
    rw [first]
    rcases executeFailurePolicy_times hp with ht | ⟨count, hr, he, -⟩
    · have hr := hreset.1.trans ht.restarts
      have he := hreset.2.trans ht.attempts
      exact ⟨hok.of_same hr he, hadv.trans (Advances.of_same hr he)⟩
    · obtain ⟨hok', hadv'⟩ := restarted_attempts hgate hok (hreset.1.trans hr) (hreset.2.trans he)
      exact ⟨hok', hadv.trans hadv'⟩
  | attempts hu first hf hscaled hn =>
    obtain ⟨hok, hadv⟩ := hactive hu.passed
    obtain ⟨hok', hadv'⟩ := settled_attempts hn (Timeless.refl _) hok
    rw [first]
    exact ⟨hok', hadv.trans hadv'⟩
  | @running owned active p q q₁ q₂ q₃ hr hstartup hsuspend hinPlace =>
    have hlast : Timeless q.js q₃.js :=
      (hstartup.timeless.trans hsuspend.timeless).trans hinPlace.timeless
    obtain ⟨hok, hadv⟩ := hactive hr.passed
    have hstep := hr.attempts
    generalize s.acked = acked at hstep
    cases hstep with
    | keep hn => exact ⟨hlast.attemptsOk hok, hadv.trans hlast.advances⟩
    | start hn =>
      obtain ⟨hok', hadv'⟩ := settled_attempts hn hlast hok
      exact ⟨hok', hadv.trans hadv'⟩
    | resume hn =>
      obtain ⟨hok', -⟩ := settled_attempts hn hlast hok
      exact ⟨hok', hlast.advances⟩

namespace Cluster

/-! ## Runs -/

/-- Execution attempts dominate restarts: with the gate on throughout, in every run
from a new JobSet, a persisted number of execution attempts is at least the number
of restarts, it stays set and never goes down, and a version with more restarts
than the one before it has more execution attempts. -/
theorem attempts_dominate_restarts {S : Setting}
    (hgate : ∀ env, S.allowed env → env.gates.executionAttemptsTracking = true) {js : JobSet}
    (hnew : js.status = .new) {w : World} (h : Reachable S js w) :
    (∀ i ≤ w.sets.top, ∀ e, (w.sets.entry i).status.executionAttempts = some e →
      (w.sets.entry i).status.restarts ≤ e) ∧
    (∀ i j, i ≤ j → j ≤ w.sets.top → ∀ e, (w.sets.entry i).status.executionAttempts = some e →
      ∃ e', (w.sets.entry j).status.executionAttempts = some e' ∧ e ≤ e') ∧
    ∀ i j, i ≤ j → j ≤ w.sets.top →
      (w.sets.entry i).status.restarts < (w.sets.entry j).status.restarts →
      ∃ e', (w.sets.entry j).status.executionAttempts = some e' ∧
        (w.sets.entry i).status.executionAttempts.getD 0 < e' := by
  have hall : w.sets.All AttemptsOk ∧ w.sets.Ordered Advances := by
    refine reachable_sets Advances.refl (fun _ _ _ => Advances.trans) ?_ ?_ ?_ ?_ h
    · intro a b _ hstatus ha
      have hr : b.status.restarts = a.status.restarts := by rw [hstatus]
      have he : b.status.executionAttempts = a.status.executionAttempts := by rw [hstatus]
      exact ⟨ha.of_same hr he, Advances.of_same hr he⟩
    · intro a t ha
      exact ⟨ha, Advances.of_same rfl rfl⟩
    · intro env js₀ jobs s js' hallowed hjs₀ _ hwrites
      exact hwrites.advances (hgate env hallowed) hjs₀
    · intro e he
      rw [hnew] at he
      cases he
  exact ⟨hall.1, fun i j hij hj => (hall.2 i j hij hj).attempts,
    fun i j hij hj => (hall.2 i j hij hj).raised⟩

/-- Only the gate of the execution attempts. -/
def attemptsGates : FeatureGates :=
  { restartJobGates with restartJob := false, executionAttemptsTracking := true }

/-- The first run sets the attempts to zero, the restart after a failure to one. -/
theorem attempts_dominate_restarts_oneJob :
    ∃ w, Reachable (plainSetting (plainEnv attemptsGates))
        (plainSet [.single "w" 1] 1 .recreate) w ∧
      w.sets.current.status.restarts = 1 ∧
      ∃ e, w.sets.current.status.executionAttempts = some e ∧ 1 ≤ e := by
  obtain ⟨w, hw, hp⟩ := run_reachable (S := plainSetting (plainEnv attemptsGates))
    (p := fun w => w.sets.current.status.restarts = 1 ∧
      w.sets.current.status.executionAttempts.isSome)
    rfl (plainSet [.single "w" 1] 1 .recreate) failOnce (by simp [failOnce, Event.Permitted]) (by decide +kernel)
  obtain ⟨hrestarts, hset⟩ : w.sets.current.status.restarts = 1 ∧
      w.sets.current.status.executionAttempts.isSome = true := by simpa using hp
  obtain ⟨e, he⟩ := Option.isSome_iff_exists.mp hset
  have hle := (attempts_dominate_restarts (by rintro env rfl; rfl) rfl hw).1 _ le_rfl e he
  exact ⟨w, hw, hrestarts, e, he, hrestarts ▸ hle⟩

end Cluster

end JobSetOperator
