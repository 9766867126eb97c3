import JobSetOperator.InPlace.Protocol

/-!
# The invariant of the barrier

Attempts are compared by their level, the number before it was cut to 32 bits.
The frontier of a JobSet version is the level a process picks from it: 0 while
the current attempt is unset and one more than the current attempt afterwards.

* every annotation ever written has a level at most the frontier, and those of
  the pods that have not failed are at most one below it (`Pods`);
* along the history of one index the levels never go down (`Pods.climb`), and
  a process only picks levels above all earlier ones of its index (`Floor`);
* the current attempt was read off a pod list the controller has seen, in which
  every index carried it (`Log.backed`), so a newer list cannot move it back.
-/
namespace JobSetOperator.InPlace

open Library Library.Program

/-! ## Levels -/

/-- The level a process that reads this version picks. -/
def frontier (js : JobSet) : ℤ :=
  match js.status.currentInPlaceRestartAttempt with
  | none => 0
  | some current => current + 1

theorem newPodInPlaceRestartAttempt_eq (js : JobSet) :
    newPodInPlaceRestartAttempt js = int32 (frontier js) := by
  unfold newPodInPlaceRestartAttempt frontier
  cases js.status.currentInPlaceRestartAttempt with
  | none => rfl
  | some current => rfl

/-- The levels that occur; the last one is cut to a negative attempt. -/
def IsLevel (n : ℤ) : Prop := 0 ≤ n ∧ n ≤ 2 ^ 31

theorem int32_level {n : ℤ} (hn : IsLevel n) :
    int32 n = if n = 2 ^ 31 then -(2 ^ 31) else n := by
  unfold IsLevel at hn
  split_ifs with h
  · subst h
    decide
  · exact int32_of_range (by omega) (by omega)

theorem int32_level_injective {n m : ℤ} (hn : IsLevel n) (hm : IsLevel m)
    (h : int32 n = int32 m) : n = m := by
  rw [int32_level hn, int32_level hm] at h
  unfold IsLevel at hn hm
  split_ifs at h <;> omega

/-- A level survives the trip through the annotation, apart from the last one. -/
theorem level_of_attempt {n attempt : ℤ} (hn : IsLevel n)
    (hatoi : atoi (itoa (int32 n)) = some attempt) (hpos : 0 ≤ attempt) :
    attempt = n ∧ int32 attempt = n := by
  have hcut := int32_level hn
  have hrange : -(2 ^ 63) ≤ int32 n ∧ int32 n < 2 ^ 63 := by
    unfold IsLevel at hn
    rw [hcut]
    split_ifs <;> omega
  rw [atoi_itoa hrange.1 hrange.2] at hatoi
  have hattempt : int32 n = attempt := Option.some.inj hatoi
  rw [hcut] at hattempt
  split_ifs at hattempt with htop
  · omega
  · subst hattempt
    exact ⟨rfl, by rw [hcut, if_neg htop]⟩

/-- The pod is annotated with the attempt of the level. -/
def PodObject.At (o : PodObject) (n : ℤ) : Prop :=
  IsLevel n ∧ o.rawAttempt = some (itoa (int32 n))

theorem PodObject.At.unique {o : PodObject} {n m : ℤ} (hn : o.At n) (hm : o.At m) : n = m := by
  refine int32_level_injective hn.1 hm.1 (itoa_injective ?_)
  exact Option.some.inj (hn.2.symm.trans hm.2)

/-! ## The invariant -/

/-- The counters over the versions of the JobSet. -/
structure Versions (N : ℕ) (jobSets : History JobSet) : Prop where
  config : jobSets.All (Config N)
  current : jobSets.All fun js => ∀ c, js.status.currentInPlaceRestartAttempt = some c →
    0 ≤ c ∧ c < 2 ^ 31
  previous : jobSets.All fun js => ∀ p, js.status.previousInPlaceRestartAttempt = some p →
    p < frontier js ∧ js.status.currentInPlaceRestartAttempt ≠ none
  frontierMono : jobSets.Ordered fun js js' => frontier js ≤ frontier js'
  previousMono : jobSets.Ordered fun js js' => ∀ p, js.status.previousInPlaceRestartAttempt = some p →
    ∃ p', js'.status.previousInPlaceRestartAttempt = some p' ∧ p ≤ p'
  unit : ∀ i < jobSets.top, frontier (jobSets.entry (i + 1)) ≤ frontier (jobSets.entry i) + 1

/-- Two pods have different uids, and different indexes unless one has failed. -/
def PodObject.Apart (o o' : PodObject) : Prop :=
  o.uid ≠ o'.uid ∧ (o.index = o'.index → o.failed ∨ o'.failed)

/-- The pods of a list are apart from each other. -/
def Distinct (pods : List PodObject) : Prop := pods.Pairwise PodObject.Apart

/-- No pod of the index has ever been above the level. -/
def Floor (pods : History (List PodObject)) (index : ℕ) (bound : ℤ) : Prop :=
  ∀ t ≤ pods.top, ∀ o ∈ pods.entry t, o.index = index → ¬ o.failed → ∀ n, o.At n → n ≤ bound

/-- The annotations over the states of the pods. -/
structure Pods (N : ℕ) (pods : History (List PodObject)) (uids : ℕ) (js : JobSet) : Prop where
  distinct : pods.All Distinct
  bounded : pods.All fun l => ∀ o ∈ l, o.index < N ∧ o.uid < uids
  upper : pods.All fun l => ∀ o ∈ l, o.rawAttempt = none ∨ ∃ n, o.At n ∧ n ≤ frontier js
  lower : ∀ o ∈ pods.current, ¬ o.failed → ∀ n, o.At n → frontier js ≤ n + 1
  climb : ∀ t ≤ pods.top, ∀ o ∈ pods.entry t, ¬ o.failed → ∀ n, o.At n →
    ∀ s ≤ t, ∀ o' ∈ pods.entry s, o'.index = o.index → ¬ o'.failed → ∀ m, o'.At m → m ≤ n

/-- One agent process. -/
structure ProcessOk (jobSets : History JobSet) (p : Process) : Prop where
  born : p.born ≤ p.seen
  seen : p.seen ≤ jobSets.top
  memory : ∀ x, p.memory.podInPlaceRestartAttempt = some x →
    ∃ j, p.born ≤ j ∧ j ≤ p.seen ∧ x = int32 (frontier (jobSets.entry j))
  run : ∀ run, p.run = some run →
    Follows (AgentCalls p.memory) AgentView.next (AgentReturns p.memory) run.view run.rest ∧
    (∀ js, run.view.read = some js → js = jobSets.entry p.seen) ∧
    (∀ x, run.view.patched = some x → x = int32 (frontier (jobSets.entry p.seen)))

/-- The processes and what they may still write. -/
structure Processes (w : World) : Prop where
  ok : ∀ uid p, w.processes uid = some p → ProcessOk w.jobSets p ∧ uid < w.uids ∧ p.id < w.pids
  ids : ∀ uid uid' p p', w.processes uid = some p → w.processes uid' = some p' → p.id = p'.id →
    uid = uid'
  floor : ∀ uid p, w.processes uid = some p → ∀ o ∈ w.pods.current, o.uid = uid → ¬ o.failed →
    Floor w.pods o.index (frontier (w.jobSets.entry p.seen))

/-- The process has lifted its barrier. -/
def Process.lifted (p : Process) : Prop :=
  p.memory.isBarrierActive = false ∨ ∃ run, p.run = some run ∧ run.view.started = true

/-- Every start in the trace has an earlier snapshot in which all expected pods carry its attempt. -/
def Justified (N : ℕ) : List Event → Prop
  | [] => True
  | .snapshot _ :: pre => Justified N pre
  | .workerStarted _ _ attempt :: pre =>
    (∃ x pods, attempt = some x ∧ .snapshot pods ∈ pre ∧ AllCarry N pods x) ∧ Justified N pre

/-- Two starts differ in their process, and in their pod or their attempt. -/
def Event.Differ : Event → Event → Prop
  | .workerStarted uid pid x, .workerStarted uid' pid' x' =>
    pid ≠ pid' ∧ ¬ (uid = uid' ∧ x = x')
  | _, _ => True

/-- The trace, and what it says about the counters and the processes. -/
structure Log (N : ℕ) (w : World) : Prop where
  seen : w.controller.podsSeen ≤ w.pods.top
  reading : ∀ v s, w.controller.reading = some (v, s) →
    s = w.controller.podsSeen ∧ .snapshot (w.pods.entry s) ∈ w.trace
  backed : ∀ j ≤ w.jobSets.top, ∀ c, (w.jobSets.entry j).status.currentInPlaceRestartAttempt = some c →
    0 < N ∧ ∃ s ≤ w.controller.podsSeen, AllCarry N (w.pods.entry s) c ∧
      .snapshot (w.pods.entry s) ∈ w.trace
  starts : ∀ uid pid attempt, .workerStarted uid pid attempt ∈ w.trace →
    pid < w.pids ∧ ∃ x, attempt = some x ∧ IsLevel x ∧ x < frontier w.jobSets.current ∧
      ∀ uid' p, w.processes uid' = some p →
        (p.id = pid → uid' = uid ∧ p.lifted) ∧
        (p.id ≠ pid → uid' = uid → x < frontier (w.jobSets.entry p.born))
  justified : Justified N w.trace
  differ : w.trace.Pairwise Event.Differ

/-- The invariant of the system. -/
structure Inv (N : ℕ) (w : World) : Prop where
  versions : Versions N w.jobSets
  pods : Pods N w.pods w.uids w.jobSets.current
  processes : Processes w
  log : Log N w

end JobSetOperator.InPlace
