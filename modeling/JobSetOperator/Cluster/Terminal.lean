import JobSetOperator.Cluster.Execution
import JobSetOperator.Cluster.Invariant

/-!
# Terminal states are absorbing

A persisted status names in `terminalState` exactly the terminal condition that
is true, so at most one of them is. Once it is set, later writes change the
counts of the ReplicatedJobs only: a reconcile that has read it takes the branch
for finished JobSets, and one that has not is based on an older version.
-/
namespace JobSetOperator

open Library Library.Program

/-- The terminal state names the terminal condition that is true. -/
def TerminalOk (js : JobSet) : Prop :=
  ∀ t, js.status.terminalState = some t ↔ t.terminal ∧ CondTrue js.status.conditions t

/-- What a later version keeps of a version that has ended. -/
def Absorbs (a b : JobSet) : Prop :=
  a.status.terminalState.isSome = true →
    b.status.conditions = a.status.conditions ∧ b.status.terminalState = a.status.terminalState ∧
      b.status.restarts = a.status.restarts ∧
      b.status.executionAttempts = a.status.executionAttempts ∧
      b.status.startTime = a.status.startTime

theorem Absorbs.refl (a : JobSet) : Absorbs a a := fun _ => ⟨rfl, rfl, rfl, rfl, rfl⟩

theorem Absorbs.trans {a b c : JobSet} (h₁ : Absorbs a b) (h₂ : Absorbs b c) : Absorbs a c := by
  intro ha
  obtain ⟨h1, h2, h3, h4, h5⟩ := h₁ ha
  obtain ⟨g1, g2, g3, g4, g5⟩ := h₂ (h2 ▸ ha)
  exact ⟨g1.trans h1, g2.trans h2, g3.trans h3, g4.trans h4, g5.trans h5⟩

theorem absorbs_of_status {a b : JobSet} (h : b.status = a.status) : Absorbs a b := by
  intro _
  rw [h]
  exact ⟨rfl, rfl, rfl, rfl, rfl⟩

theorem terminalOk_of_status {a b : JobSet} (h : b.status = a.status) (ha : TerminalOk a) :
    TerminalOk b := by
  unfold TerminalOk
  rw [h]
  exact ha

theorem TerminalOk.finished {js : JobSet} (h : TerminalOk js) :
    js.status.terminalState.isSome = true ↔ jobSetFinished js = true := by
  rw [jobSetFinished_iff, Option.isSome_iff_exists]
  constructor
  · rintro ⟨t, ht⟩
    obtain ⟨rfl | rfl, hc⟩ := (h t).mp ht
    · exact Or.inl hc
    · exact Or.inr hc
  · rintro (hc | hc)
    · exact ⟨_, (h _).mpr ⟨Or.inl rfl, hc⟩⟩
    · exact ⟨_, (h _).mpr ⟨Or.inr rfl, hc⟩⟩

theorem TerminalOk.exclusive {js : JobSet} (h : TerminalOk js) :
    ¬ (CondTrue js.status.conditions .jobSetCompleted ∧
      CondTrue js.status.conditions .jobSetFailed) := by
  rintro ⟨hc, hf⟩
  have h₁ := (h _).mpr ⟨Or.inl rfl, hc⟩
  have h₂ := (h _).mpr ⟨Or.inr rfl, hf⟩
  rw [h₁] at h₂
  cases h₂

/-! ## One write -/

theorem KeepsTerminal.terminalOk {a b : JobSet} (h : KeepsTerminal a b) (ha : TerminalOk a) :
    TerminalOk b := by
  intro t
  rw [h.terminalState, ha t]
  constructor
  · rintro ⟨ht, hc⟩
    exact ⟨ht, (h.terminal t ht).mpr hc⟩
  · rintro ⟨ht, hc⟩
    exact ⟨ht, (h.terminal t ht).mp hc⟩

/-- The first terminal condition is the only one. -/
theorem Ends.terminalOk {t : JobSetConditionType} {a b : JobSet} (h : Ends t a b)
    (ha : jobSetFinished a = false) : TerminalOk b := by
  have hnone : ∀ t' : JobSetConditionType, t'.terminal → ¬ CondTrue a.status.conditions t' := by
    intro t' ht' hc
    have hfin : jobSetFinished a = true := by
      rw [jobSetFinished_iff]
      rcases ht' with rfl | rfl
      · exact Or.inl hc
      · exact Or.inr hc
    rw [hfin] at ha
    cases ha
  intro t'
  rw [h.terminalState, Option.some.injEq]
  constructor
  · rintro rfl
    exact ⟨h.isTerminal, h.isTrue⟩
  · rintro ⟨ht', hc⟩
    by_contra hne
    exact hnone t' ht' ((h.others t' ht' (Ne.symm hne)).mp hc)

theorem entryPass_finished (env : Env) (js : JobSet) (owned : ChildJobs) :
    jobSetFinished (entryPass env js owned).js = jobSetFinished js := by
  rw [entryPass_js]
  rfl

theorem Writes.terminalOk {env : Env} {js js' : JobSet} {jobs : List Job} {s : Seen}
    (h : Writes env js jobs s js') (hjs : TerminalOk js) : TerminalOk js' := by
  obtain ⟨owned, -, ho⟩ := h.outcome
  have hentry := (entryPass_keepsTerminal env js owned).terminalOk hjs
  cases ho with
  | finished hf first => exact hentry
  | harmless hf effect => exact effect.toKeepsTerminal.terminalOk hentry
  | ends hf effect => exact effect.terminalOk ((entryPass_finished env js owned).trans hf)
  | restartsAll hf first effect => exact effect.toKeepsTerminal.terminalOk hentry
  | restartsJob hf first effect => exact effect.toKeepsTerminal.terminalOk hentry

theorem Writes.absorbs {env : Env} {js js' : JobSet} {jobs : List Job} {s : Seen}
    (h : Writes env js jobs s js') (hjs : TerminalOk js) : Absorbs (s.acked.getD js) js' := by
  intro hterminal
  rcases h.base with hfirst | ⟨owned, x, hf, hx, hharmless⟩
  · rw [hfirst] at hterminal ⊢
    have hfin : jobSetFinished js = true := hjs.finished.mp hterminal
    obtain ⟨owned, -, ho⟩ := h.outcome
    cases ho with
    | finished hf first =>
      rw [entryPass_js]
      exact ⟨rfl, rfl, rfl, rfl, rfl⟩
    | harmless hf effect => simp [hfin] at hf
    | ends hf effect => simp [hfin] at hf
    | restartsAll hf first effect => simp [hfin] at hf
    | restartsJob hf first effect => simp [hfin] at hf
  · -- the version written in between has not ended
    have hkeeps := (entryPass_keepsTerminal env js owned).trans hharmless.toKeepsTerminal
    rw [hx, Option.getD_some, hkeeps.terminalState] at hterminal
    simp [hjs.finished.mp hterminal] at hf

/-- A call that creates, scales, suspends or resumes a Job is made for an unfinished JobSet. -/
theorem unfinished_of_calls {env : Env} {js : JobSet} {jobs : List Job} {s : Seen} {r : Request}
    (h : Calls env js jobs s r)
    (hr : ∃ job, r = .createJob job ∨ r = .updateJob job ∨ r = .patchScaling job) :
    jobSetFinished js = false := by
  obtain ⟨job, rfl | rfl | rfl⟩ := hr
  · obtain ⟨owned, active, p, q, rjob, created, hr, -⟩ := h
    exact hr.unfinished
  · rcases h with ⟨owned, active, p, q, hr, -⟩ | ⟨q, suspended, ⟨owned, active, p, rjob, hr, -⟩, -⟩
    · exact hr.unfinished
    · exact hr.unfinished
  · obtain ⟨owned, p, hu, -⟩ := h
    exact hu.unfinished

namespace Cluster

/-! ## Runs -/

theorem reachable_terminal {S : Setting} {js : JobSet} (hnew : js.status = .new) {w : World}
    (h : Reachable S js w) : w.sets.All TerminalOk ∧ w.sets.Ordered Absorbs := by
  refine reachable_sets Absorbs.refl (fun _ _ _ => Absorbs.trans) ?_ ?_ ?_ ?_ h
  · intro a b _ hstatus ha
    exact ⟨terminalOk_of_status hstatus ha, absorbs_of_status hstatus⟩
  · intro a t ha
    exact ⟨terminalOk_of_status rfl ha, absorbs_of_status rfl⟩
  · intro env js jobs s js' _ hjs _ hwrites
    exact ⟨hwrites.terminalOk hjs, hwrites.absorbs hjs⟩
  · intro t
    simp [hnew, JobSetStatus.new, not_condTrue_nil]

/-- Terminal states are absorbing: in every run from a new JobSet, the two terminal
conditions are never both true in a persisted version, `terminalState` names
exactly the one that is, later versions keep the conditions, the terminal state
and the counters, and a reconcile that has read a terminal status creates,
resumes and changes no Job. -/
theorem terminal_absorbing {S : Setting} {js : JobSet} (hnew : js.status = .new) {w : World}
    (h : Reachable S js w) :
    (∀ i ≤ w.sets.top,
      ¬ (CondTrue (w.sets.entry i).status.conditions .jobSetCompleted ∧
        CondTrue (w.sets.entry i).status.conditions .jobSetFailed) ∧
      ∀ t, (w.sets.entry i).status.terminalState = some t ↔
        t.terminal ∧ CondTrue (w.sets.entry i).status.conditions t) ∧
    (∀ i j, i ≤ j → j ≤ w.sets.top → Absorbs (w.sets.entry i) (w.sets.entry j)) ∧
    ∀ a, w.attempt = some a → a.js.status.terminalState.isSome = true →
      ∀ r k, a.rest = .call r k →
        ∀ job, r ≠ .createJob job ∧ r ≠ .updateJob job ∧ r ≠ .patchScaling job := by
  have hinv := reachable_inv h
  obtain ⟨hok, habsorbs⟩ := reachable_terminal hnew h
  refine ⟨fun i hi => ⟨(hok i hi).exclusive, hok i hi⟩, habsorbs, ?_⟩
  intro a busy hterminal r k hrest job
  have ha := hinv.attempt a busy
  have hfollows := ha.follows
  rw [hrest] at hfollows
  have hfin : jobSetFinished a.js = true := by
    rw [ha.js] at hterminal ⊢
    exact (hok _ hinv.seenSets).finished.mp hterminal
  refine ⟨?_, ?_, ?_⟩
  · rintro rfl
    have := unfinished_of_calls hfollows.1 ⟨job, Or.inl rfl⟩
    simp [hfin] at this
  · rintro rfl
    have := unfinished_of_calls hfollows.1 ⟨job, Or.inr (Or.inl rfl)⟩
    simp [hfin] at this
  · rintro rfl
    have := unfinished_of_calls hfollows.1 ⟨job, Or.inr (Or.inr rfl)⟩
    simp [hfin] at this

/-- The only Job fails and there are no restarts left. -/
theorem terminal_absorbing_oneJob :
    ∃ w, Reachable (plainSetting (plainEnv restartJobGates))
        (plainSet [.single "w" 1] 0 .recreate) w ∧
      w.sets.current.status.terminalState = some .jobSetFailed ∧
      ¬ CondTrue w.sets.current.status.conditions .jobSetCompleted ∧
      CondTrue w.sets.current.status.conditions .jobSetFailed := by
  obtain ⟨w, hw, hp⟩ := run_reachable (S := plainSetting (plainEnv restartJobGates))
    (p := fun w => w.sets.current.status.terminalState = some .jobSetFailed)
    rfl (plainSet [.single "w" 1] 0 .recreate) failOnce (by simp [failOnce, Event.Permitted]) (by decide +kernel)
  obtain ⟨hexclusive, hnames⟩ := (terminal_absorbing rfl hw).1 _ le_rfl
  have hterminal : w.sets.current.status.terminalState = some .jobSetFailed := by simpa using hp
  have hfailed := ((hnames .jobSetFailed).mp hterminal).2
  exact ⟨w, hw, hterminal, fun hcompleted => hexclusive ⟨hcompleted, hfailed⟩, hfailed⟩

end Cluster

end JobSetOperator
