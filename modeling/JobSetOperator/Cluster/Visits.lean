import JobSetOperator.Cluster.Execution
import JobSetOperator.Cluster.Invariant
import JobSetOperator.Controller.Timing

/-!
# The reconciles of a run

A run together with the list of its reconciles, the last one first. For each of them the
list says which JobSet it has read, what the clock has told it, and which version of the
JobSet was the last one when it got its last answer. Every run has such a list.
-/
namespace JobSetOperator.Cluster

open Library Library.Program

/-- A reconcile of the run. -/
structure Visit where
  js : JobSet
  clock : Set Time
  last : ℕ

/-- The visit after an answer that led to the server. -/
def Visit.next (v : Visit) (sv' : Server) (r : Request) (x : r.Response) : Visit :=
  { v with clock := clocked v.clock r x, last := sv'.sets.top }

/-- One step of the cluster and of the list. -/
inductive VisitStep (S : Setting) (guard : World → Attempt → Prop) :
    World × List Visit → World × List Visit → Prop
  | user {w : World} {visits : List Visit} {js : JobSet} (admitted : S.admits w.sets.current js)
    (status : js.status = w.sets.current.status) :
    VisitStep S guard (w, visits) ({ w with toServer := w.toServer.putSet js }, visits)
  | jobs {w w' : World} {visits : List Visit} (step : Step S w w') (sets : w'.sets = w.sets)
    (same : w'.attempt = w.attempt) : VisitStep S guard (w, visits) (w', visits)
  | begin {w w' : World} {visits : List Visit} {a : Attempt} (idle : w.attempt = none)
    (step : Step S w w') (busy : w'.attempt = some a) (ready : guard w a) :
    VisitStep S guard (w, visits) (w', ⟨a.js, ∅, w.sets.top⟩ :: visits)
  | answer {w : World} {v : Visit} {visits : List Visit} {a : Attempt} (busy : w.attempt = some a)
    {r : Request} {k : r.Response → Prog ℤ} (next : a.rest = .call r k) {x : r.Response}
    {sv' : Server} {base' : ℕ} (reply : Reply w.toServer a.base r x sv' base') :
    VisitStep S guard (w, v :: visits) ({ w with
      toServer := sv'
      attempt := some { a with base := base', seen := a.seen.next r x, rest := k x }
      authors := w.record sv' a.toReading }, v.next sv' r x :: visits)
  | stop {w : World} {visits : List Visit} :
    VisitStep S guard (w, visits) ({ w with attempt := none }, visits)

/-- A run from a new JobSet that no reconcile has read. -/
def VisitRun (S : Setting) (guard : World → Attempt → Prop) (js : JobSet) (w : World)
    (visits : List Visit) : Prop :=
  Relation.ReflTransGen (VisitStep S guard) (World.initial js, []) (w, visits)

section Runs

variable {S : Setting} {guard : World → Attempt → Prop}

/-- How a reconcile begins. -/
theorem Step.started {w w' : World} (h : Step S w w') {a : Attempt}
    (idle : w.attempt = none) (busy : w'.attempt = some a) :
    ∃ i jobs env, a = .start env (w.sets.entry i) jobs i ∧ S.allowed env ∧ w'.sets = w.sets ∧
      w'.authors = w.authors ∧ w'.seenSets = i ∧ w.seenSets ≤ i ∧ i ≤ w.sets.top := by
  cases h with
  | @begin _ env allowed i j newer past newerJobs pastJobs jobs listed =>
    cases busy
    exact ⟨i, jobs, env, rfl, allowed, rfl, rfl, rfl, newer, past⟩
  | answer busy' next reply =>
    rw [idle] at busy'
    cases busy'
  | stop => cases busy
  | _ =>
    have hbusy : w.attempt = some a := busy
    rw [idle] at hbusy
    cases hbusy

/-- A step of the Jobs leaves the rest alone. -/
theorem Step.same {w w' : World} (h : Step S w w') (hsets : w'.sets = w.sets)
    (same : w'.attempt = w.attempt) : w'.seenSets = w.seenSets ∧ w'.authors = w.authors := by
  cases h with
  | begin idle allowed newer past newerJobs pastJobs listed =>
    have hnone : some _ = w.attempt := same
    rw [idle] at hnone
    cases hnone
  | @answer a busy r k next x sv' base' reply =>
    refine ⟨rfl, ?_⟩
    change World.record w sv' a.toReading = _
    exact if_pos (congrArg History.top hsets)
  | _ => exact ⟨rfl, rfl⟩

theorem VisitStep.guarded {u u' : World × List Visit} (h : VisitStep S guard u u') :
    GuardedStep S guard u.1 u'.1 := by
  cases h with
  | user admitted status => exact guarded_of_same rfl (.userUpdate admitted status)
  | jobs step sets same => exact guarded_of_same same step
  | begin idle step busy ready =>
    refine ⟨step, fun _ a ha => ?_⟩
    rw [busy] at ha
    cases ha
    exact ready
  | answer busy next reply => exact guarded_of_busy busy (.answer busy next reply)
  | stop => exact ⟨.stop, fun _ a ha => by cases ha⟩

theorem VisitRun.guarded {js : JobSet} {u : World × List Visit}
    (h : Relation.ReflTransGen (VisitStep S guard) (World.initial js, []) u) :
    GuardedRun S guard js u.1 := by
  induction h with
  | refl => exact .refl
  | tail _ hstep ih => exact ih.tail hstep.guarded

/-- The reconcile in progress is the first of the list, and it has read the last version that
was read. -/
theorem VisitRun.newest {js : JobSet} {u : World × List Visit}
    (h : Relation.ReflTransGen (VisitStep S guard) (World.initial js, []) u) :
    (u.1.attempt ≠ none → u.2 ≠ []) ∧
      ∀ v rest, u.2 = v :: rest → v.js = u.1.sets.entry u.1.seenSets := by
  induction h with
  | refl => exact ⟨fun h => absurd rfl h, fun v rest h => by cases h⟩
  | @tail u₁ u₂ hrun hstep ih =>
    have hinv := reachable_inv (VisitRun.guarded hrun).reachable
    have hgrows := History.grows_of_push (step_move hinv hstep.guarded.1).sets
    have hkept := hgrows.2 _ hinv.seenSets
    cases hstep with
    | user admitted status =>
      refine ⟨ih.1, fun v rest hv => ?_⟩
      exact (ih.2 v rest hv).trans hkept.symm
    | @jobs w w' visits step sets same =>
      refine ⟨fun hbusy => ih.1 (same ▸ hbusy), fun v rest hv => ?_⟩
      rw [(step.same sets same).1, sets]
      exact ih.2 v rest hv
    | @begin w w' visits a idle step busy ready =>
      refine ⟨fun _ => List.cons_ne_nil _ _, fun v rest hv => ?_⟩
      cases hv
      exact (step_inv hinv step).attempt a busy |>.js
    | answer busy next reply =>
      refine ⟨fun _ => List.cons_ne_nil _ _, fun v rest hv => ?_⟩
      cases hv
      exact (ih.2 _ _ rfl).trans hkept.symm
    | stop => exact ⟨fun h => absurd rfl h, ih.2⟩

/-- Every step of the cluster is one of the list. -/
theorem visitStep_of_guardedStep {w w' : World} {visits : List Visit}
    (hbusy : w.attempt ≠ none → visits ≠ []) (h : GuardedStep S guard w w') :
    ∃ visits', VisitStep S guard (w, visits) (w', visits') := by
  obtain ⟨hstep, hguard⟩ := h
  cases hstep with
  | userUpdate admitted status => exact ⟨_, .user admitted status⟩
  | jobProgress mem status finished => exact ⟨_, .jobs (.jobProgress mem status finished) rfl rfl⟩
  | jobAppeared foreign free => exact ⟨_, .jobs (.jobAppeared foreign free) rfl rfl⟩
  | jobRemoved mem removable => exact ⟨_, .jobs (.jobRemoved mem removable) rfl rfl⟩
  | begin idle allowed newer past newerJobs pastJobs listed =>
    exact ⟨_, .begin idle (.begin idle allowed newer past newerJobs pastJobs listed) rfl
      (hguard idle _ rfl)⟩
  | answer busy next reply =>
    cases visits with
    | nil => exact absurd rfl (hbusy (by rw [busy]; exact Option.some_ne_none _))
    | cons v rest => exact ⟨_, .answer busy next reply⟩
  | stop => exact ⟨_, .stop⟩

theorem visitRun_of_guardedRun {js : JobSet} {w : World} (h : GuardedRun S guard js w) :
    ∃ visits, VisitRun S guard js w visits := by
  induction h with
  | refl => exact ⟨[], .refl⟩
  | tail _ hstep ih =>
    obtain ⟨visits, hrun⟩ := ih
    obtain ⟨visits', hnext⟩ := visitStep_of_guardedStep (VisitRun.newest hrun).1 hstep
    exact ⟨visits', hrun.tail hnext⟩

end Runs

end JobSetOperator.Cluster
