import JobSetOperator.Controller.InPlaceRestart
import JobSetOperator.Library.Programs

/-!
# The in-place restart agent

`Reconcile` of `cmd/in-place-restart-agent`, as a program over its calls to the
API server and to its container: reading the JobSet, patching the annotation of
its own pod, starting the worker and exiting. `agentReconcile_follows` says once
when each call is made and what a finished reconcile leaves in memory.
-/
namespace JobSetOperator

open Library Library.Program

/-- What an agent process remembers between reconciles, and its worker command. -/
structure InPlaceRestartAgent where
  workerCommand : String
  podInPlaceRestartAttempt : Option ℤ
  isBarrierActive : Bool
  deriving DecidableEq, Repr

/-- The memory of a process that has just started. -/
def InPlaceRestartAgent.new (workerCommand : String) : InPlaceRestartAgent :=
  ⟨workerCommand, none, true⟩

/-- The calls of the agent. A worker is started by opening the startup probe of
the pod (sidecar mode) or by running the worker command; the request names the
attempt the process is in. -/
inductive AgentRequest
  | getJobSet
  | applyAttempt (value : ℤ)
  | startWorker (sidecar : Bool) (attempt : Option ℤ)
  | exit

/-- The answers: a read may find nothing, a patch may be refused, and a process
that exits never continues. -/
def AgentRequest.Response : AgentRequest → Type
  | .getJobSet => Option JobSet
  | .applyAttempt _ => Bool
  | .startWorker _ _ => Unit
  | .exit => Empty

/-- A reconcile of the agent; it returns the memory of the process. -/
abbrev AgentProgram := Program AgentRequest AgentRequest.Response Empty InPlaceRestartAgent

/-- `isSidecarContainerMode`. -/
def isSidecarContainerMode (r : InPlaceRestartAgent) : Bool := r.workerCommand = ""

/-- `shouldBypassBarrier`. -/
def shouldBypassBarrier (js : JobSet) : Bool :=
  (js.annotations.lookup disableInPlaceRestartKey).isSome || !isInPlaceRestartStrategy js

/-- The attempt a process picks when it starts: one more than the current one,
as a 32-bit integer. -/
def newPodInPlaceRestartAttempt (js : JobSet) : ℤ :=
  match js.status.currentInPlaceRestartAttempt with
  | none => 0
  | some current => int32 (current + 1)

/-- The process is in an attempt the controller has marked as outdated. -/
def isOutdated (r : InPlaceRestartAgent) (js : JobSet) : Bool :=
  match r.podInPlaceRestartAttempt, js.status.previousInPlaceRestartAttempt with
  | some attempt, some previous => attempt ≤ previous
  | _, _ => false

/-- The process is in the attempt the controller has released. -/
def isSynced (r : InPlaceRestartAgent) (js : JobSet) : Bool :=
  match r.podInPlaceRestartAttempt, js.status.currentInPlaceRestartAttempt with
  | some attempt, some current => attempt = current
  | _, _ => false

/-- Lifting the barrier. -/
def liftBarrier (r : InPlaceRestartAgent) : AgentProgram :=
  .call (.startWorker (isSidecarContainerMode r) r.podInPlaceRestartAttempt) fun _ =>
    .done { r with isBarrierActive := false }

/-- The part of `Reconcile` that follows the start-up patch. -/
def handleRestartAndBarrier (js : JobSet) (r : InPlaceRestartAgent) : AgentProgram :=
  if isOutdated r js then .call .exit fun never => never.elim
  else if r.isBarrierActive && isSynced r js then liftBarrier r
  else .done r

/-- `patchPodInPlaceRestartAttempt` at start-up, and the rest of `Reconcile`. A
refused patch ends the reconcile with the memory unchanged. -/
def patchPodInPlaceRestartAttempt (js : JobSet) (r : InPlaceRestartAgent) : AgentProgram :=
  let attempt := newPodInPlaceRestartAttempt js
  .call (.applyAttempt attempt) fun (ok : Bool) =>
    if ok then handleRestartAndBarrier js { r with podInPlaceRestartAttempt := some attempt }
    else .done r

/-- The part of `Reconcile` that follows the read of the JobSet. -/
def reconcileRead (r : InPlaceRestartAgent) : Option JobSet → AgentProgram
  | none => .done r
  | some js =>
    if shouldBypassBarrier js then
      if r.isBarrierActive then liftBarrier r else .done r
    else if r.podInPlaceRestartAttempt = none then patchPodInPlaceRestartAttempt js r
    else handleRestartAndBarrier js r

/-- `Reconcile` of the agent. -/
def agentReconcile (r : InPlaceRestartAgent) : AgentProgram := .call .getJobSet (reconcileRead r)

/-! ## What a reconcile does -/

/-- The answers received so far in one reconcile. -/
structure AgentView where
  read : Option JobSet
  patched : Option ℤ
  started : Bool

def AgentView.blank : AgentView := ⟨none, none, false⟩

/-- How an answer changes the view. -/
def AgentView.next (v : AgentView) : (r : AgentRequest) → r.Response → AgentView
  | .getJobSet, answer => { v with read := answer }
  | .applyAttempt value, ok =>
    { v with patched := match ok with | true => some value | false => v.patched }
  | .startWorker _ _, _ => { v with started := true }
  | .exit, _ => v

/-- The attempt of the process, given its memory at the start of the reconcile. -/
def AgentView.attempt (v : AgentView) (r : InPlaceRestartAgent) : Option ℤ :=
  r.podInPlaceRestartAttempt.or v.patched

/-- When a reconcile of a process with memory `r` makes a call, as long as the
JobSet it reads does not bypass the barrier. -/
def AgentCalls (r : InPlaceRestartAgent) (v : AgentView) : AgentRequest → Prop
  | .getJobSet => v = .blank
  | .applyAttempt value => ∃ js, v = ⟨some js, none, false⟩ ∧ r.podInPlaceRestartAttempt = none ∧
      value = newPodInPlaceRestartAttempt js
  | .startWorker _ attempt => ∃ js, v.read = some js ∧ v.started = false ∧
      r.isBarrierActive = true ∧ (shouldBypassBarrier js = false →
        attempt = v.attempt r ∧ attempt = js.status.currentInPlaceRestartAttempt ∧ attempt ≠ none)
  | .exit => ∃ js attempt previous, v.read = some js ∧ v.attempt r = some attempt ∧
      js.status.previousInPlaceRestartAttempt = some previous ∧ attempt ≤ previous

/-- The memory a reconcile leaves. -/
def AgentReturns (r : InPlaceRestartAgent) (v : AgentView) (r' : InPlaceRestartAgent) : Prop :=
  r'.podInPlaceRestartAttempt = v.attempt r ∧ r'.isBarrierActive = (r.isBarrierActive && !v.started)

theorem liftBarrier_follows {r r₀ : InPlaceRestartAgent} {v : AgentView} {js : JobSet}
    (hread : v.read = some js) (hstarted : v.started = false)
    (hbarrier : r₀.isBarrierActive = true) (hattempt : r.podInPlaceRestartAttempt = v.attempt r₀)
    (hsync : shouldBypassBarrier js = false → isSynced r js = true) :
    Follows (AgentCalls r₀) AgentView.next (AgentReturns r₀) v (liftBarrier r) := by
  refine ⟨⟨js, hread, hstarted, hbarrier, ?_⟩, ?_⟩
  · intro hbypass
    have hs := hsync hbypass
    unfold isSynced at hs
    refine ⟨hattempt, ?_, ?_⟩
    · split at hs
      · next attempt current ha hc =>
        rw [ha, hc]
        simpa using hs
      · cases hs
    · intro hnone
      simp [hnone] at hs
  · intro _
    exact ⟨hattempt, by simp [AgentView.next]⟩

theorem handleRestartAndBarrier_follows {r r₀ : InPlaceRestartAgent} {v : AgentView} {js : JobSet}
    (hread : v.read = some js) (hstarted : v.started = false)
    (hbarrier : r.isBarrierActive = r₀.isBarrierActive)
    (hattempt : r.podInPlaceRestartAttempt = v.attempt r₀) :
    Follows (AgentCalls r₀) AgentView.next (AgentReturns r₀) v (handleRestartAndBarrier js r) := by
  unfold handleRestartAndBarrier
  split_ifs with hout hlift
  · refine ⟨?_, fun never => never.elim⟩
    unfold isOutdated at hout
    split at hout
    · next attempt previous ha hp =>
      exact ⟨js, attempt, previous, hread, hattempt ▸ ha, hp, by simpa using hout⟩
    · cases hout
  · rw [Bool.and_eq_true] at hlift
    exact liftBarrier_follows hread hstarted (hbarrier ▸ hlift.1) hattempt fun _ => hlift.2
  · exact ⟨hattempt, by simp [hstarted, hbarrier]⟩

/-- The calls of a whole reconcile. -/
theorem agentReconcile_follows (r : InPlaceRestartAgent) :
    Follows (AgentCalls r) AgentView.next (AgentReturns r) .blank (agentReconcile r) := by
  have hidle : ∀ v : AgentView, v.patched = none → v.started = false →
      Follows (AgentCalls r) AgentView.next (AgentReturns r) v (.done r : AgentProgram) := by
    intro v hp hs
    exact ⟨by simp [AgentView.attempt, hp], by simp [hs]⟩
  refine ⟨rfl, fun answer => ?_⟩
  rcases answer with _ | js
  · exact hidle _ rfl rfl
  · simp only [reconcileRead]
    split_ifs with hbypass hbarrier hnone
    · exact liftBarrier_follows rfl rfl hbarrier (by simp [AgentView.attempt, AgentView.next,
        AgentView.blank]) (by simp [hbypass])
    · exact hidle _ rfl rfl
    · refine ⟨⟨js, rfl, hnone, rfl⟩, fun ok => ?_⟩
      cases ok with
      | false => exact hidle _ rfl rfl
      | true =>
        exact handleRestartAndBarrier_follows rfl rfl rfl
          (by simp [AgentView.attempt, AgentView.next, hnone])
    · obtain ⟨attempt, ha⟩ := Option.ne_none_iff_exists'.mp hnone
      exact handleRestartAndBarrier_follows rfl rfl rfl (by simp [AgentView.attempt, ha])

end JobSetOperator
