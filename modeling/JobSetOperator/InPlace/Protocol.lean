import JobSetOperator.InPlace.Agent
import JobSetOperator.Library.Histories

/-!
# Agents, pods and the controller as one system

The state holds every version of the JobSet and every state of the pods written
so far, one agent process per pod at most, and the controller's caches as
positions in the two histories. A step is one atomic action of one party: the
kubelet starts or loses a process, an agent makes its next call, a patch takes
effect, the controller lists the pods or writes the status.

Reads of the JobSet by one process never go back, and the first one is not older
than the process. A patch takes effect while its call is outstanding and its
sender is alive, or never; the call may report an error either way. A status
write needs the current version.
-/
namespace JobSetOperator.InPlace

open Library

/-- A pod on the server. `index` is its place among the expected pods, so that a
recreated pod has the index of the one it replaces. -/
structure PodObject where
  uid : ℕ
  index : ℕ
  pod : Pod
  deriving DecidableEq

namespace PodObject

def failed (o : PodObject) : Prop := o.pod.phase = .podFailed

instance (o : PodObject) : Decidable o.failed := inferInstanceAs (Decidable (_ = _))

/-- The in-place restart attempt annotation. -/
def rawAttempt (o : PodObject) : Option String := o.pod.annotations.lookup inPlaceRestartAttemptKey

/-- The effect of the agent's server-side apply. -/
def annotate (o : PodObject) (value : ℤ) : PodObject :=
  { o with
    pod := { o.pod with
      annotations := o.pod.annotations.insert inPlaceRestartAttemptKey (itoa value) } }

@[simp] theorem annotate_uid (o : PodObject) (value : ℤ) : (o.annotate value).uid = o.uid := rfl
@[simp] theorem annotate_index (o : PodObject) (value : ℤ) : (o.annotate value).index = o.index := rfl
@[simp] theorem annotate_failed (o : PodObject) (value : ℤ) :
    (o.annotate value).failed ↔ o.failed := Iff.rfl

@[simp] theorem annotate_rawAttempt (o : PodObject) (value : ℤ) :
    (o.annotate value).rawAttempt = some (itoa value) := by
  simp [rawAttempt, annotate]

end PodObject

/-- Write one pod back into the list. -/
def replacePod (o : PodObject) (pods : List PodObject) : List PodObject :=
  pods.map fun x => if x.uid = o.uid then o else x

/-- A reconcile under way in an agent. `landed` says whether the outstanding
patch has taken effect. -/
structure AgentRun where
  view : AgentView
  rest : AgentProgram
  landed : Bool

/-- An agent process. `born` is the JobSet version at its start and `seen` the
version it last read; both are positions in the history. -/
structure Process where
  id : ℕ
  memory : InPlaceRestartAgent
  born : ℕ
  seen : ℕ
  run : Option AgentRun

/-- The controller's caches, and the JobSet version and pod list of the
reconcile under way. -/
structure ControllerView where
  jobSetSeen : ℕ
  podsSeen : ℕ
  reading : Option (ℕ × ℕ)

/-- What the properties speak about, newest first. -/
inductive Event
  | snapshot (pods : List PodObject)
  | workerStarted (pod process : ℕ) (attempt : Option ℤ)

structure World where
  jobSets : History JobSet
  pods : History (List PodObject)
  processes : ℕ → Option Process
  uids : ℕ
  pids : ℕ
  controller : ControllerView
  trace : List Event

def World.setProcess (w : World) (uid : ℕ) (p : Option Process) : World :=
  { w with processes := Function.update w.processes uid p }

/-- The JobSet uses in-place restarts, nothing bypasses the barrier, and `N` pods
are expected. -/
structure Config (N : ℕ) (js : JobSet) : Prop where
  noBypass : shouldBypassBarrier js = false
  expected : getTotalNumberOfPods js = .ok (N : ℤ)

/-- Continue a run with the answer to its outstanding call. -/
def AgentRun.answer (run : AgentRun) (r : AgentRequest) (k : r.Response → AgentProgram)
    (x : r.Response) : AgentRun :=
  ⟨run.view.next r x, k x, false⟩

/-- The steps of the system. -/
inductive Step (N : ℕ) : World → World → Prop
  | podCreated (w : World) (index : ℕ) (pod : Pod) (hindex : index < N)
      (hfree : ∀ o ∈ w.pods.current, o.index = index → o.failed)
      (hnew : pod.annotations.lookup inPlaceRestartAttemptKey = none) :
      Step N w { w with
        pods := w.pods.push (⟨w.uids, index, pod⟩ :: w.pods.current)
        uids := w.uids + 1 }
  | podChanged (w : World) (o o' : PodObject) (ho : o ∈ w.pods.current) (huid : o'.uid = o.uid)
      (hindex : o'.index = o.index) (hann : o'.rawAttempt = o.rawAttempt)
      (hfailed : o.failed → o'.failed) :
      Step N w { w with pods := w.pods.push (replacePod o' w.pods.current) }
  | podRemoved (w : World) (uid : ℕ) :
      Step N w { w with pods := w.pods.push (w.pods.current.filter fun o => o.uid ≠ uid) }
  | processStarted (w : World) (o : PodObject) (workerCommand : String)
      (ho : o ∈ w.pods.current) (hnone : w.processes o.uid = none) :
      Step N w { w with
        processes := Function.update w.processes o.uid
          (some ⟨w.pids, .new workerCommand, w.jobSets.top, w.jobSets.top, none⟩)
        pids := w.pids + 1 }
  | processDied (w : World) (uid : ℕ) : Step N w (w.setProcess uid none)
  | agentStarts (w : World) (uid : ℕ) (p : Process) (hp : w.processes uid = some p)
      (hrun : p.run = none) :
      Step N w (w.setProcess uid
        (some { p with run := some ⟨.blank, agentReconcile p.memory, false⟩ }))
  | agentReads (w : World) (uid : ℕ) (p : Process) (run : AgentRun)
      (k : Option JobSet → AgentProgram) (version : ℕ) (hp : w.processes uid = some p)
      (hrun : p.run = some run) (hrest : run.rest = .call .getJobSet k)
      (hseen : p.seen ≤ version) (htop : version ≤ w.jobSets.top) :
      Step N w (w.setProcess uid (some { p with
        seen := version
        run := some (run.answer .getJobSet k (some (w.jobSets.entry version))) }))
  | agentReadFails (w : World) (uid : ℕ) (p : Process) (run : AgentRun)
      (k : Option JobSet → AgentProgram) (hp : w.processes uid = some p)
      (hrun : p.run = some run) (hrest : run.rest = .call .getJobSet k) :
      Step N w (w.setProcess uid (some { p with run := some (run.answer .getJobSet k none) }))
  | patchLands (w : World) (uid : ℕ) (p : Process) (run : AgentRun) (value : ℤ)
      (k : Bool → AgentProgram) (o : PodObject) (hp : w.processes uid = some p)
      (hrun : p.run = some run) (hrest : run.rest = .call (.applyAttempt value) k)
      (hlanded : run.landed = false) (ho : o ∈ w.pods.current) (huid : o.uid = uid) :
      Step N w { w with
        processes := Function.update w.processes uid
          (some { p with run := some { run with landed := true } })
        pods := w.pods.push (replacePod (o.annotate value) w.pods.current) }
  | patchReturns (w : World) (uid : ℕ) (p : Process) (run : AgentRun) (value : ℤ)
      (k : Bool → AgentProgram) (ok : Bool) (hp : w.processes uid = some p)
      (hrun : p.run = some run) (hrest : run.rest = .call (.applyAttempt value) k)
      (hok : ok = true → run.landed = true) :
      Step N w (w.setProcess uid
        (some { p with run := some (run.answer (.applyAttempt value) k ok) }))
  | workerStarts (w : World) (uid : ℕ) (p : Process) (run : AgentRun) (sidecar : Bool)
      (attempt : Option ℤ) (k : Unit → AgentProgram) (hp : w.processes uid = some p)
      (hrun : p.run = some run) (hrest : run.rest = .call (.startWorker sidecar attempt) k) :
      Step N w { w with
        processes := Function.update w.processes uid
          (some { p with run := some (run.answer (.startWorker sidecar attempt) k ()) })
        trace := .workerStarted uid p.id attempt :: w.trace }
  | agentExits (w : World) (uid : ℕ) (p : Process) (run : AgentRun) (k : Empty → AgentProgram)
      (hp : w.processes uid = some p) (hrun : p.run = some run)
      (hrest : run.rest = .call .exit k) : Step N w (w.setProcess uid none)
  | agentReturns (w : World) (uid : ℕ) (p : Process) (run : AgentRun) (r : InPlaceRestartAgent)
      (hp : w.processes uid = some p) (hrun : p.run = some run) (hrest : run.rest = .done r) :
      Step N w (w.setProcess uid (some { p with memory := r, run := none }))
  | controllerReads (w : World) (version position : ℕ)
      (hversion : w.controller.jobSetSeen ≤ version) (hvtop : version ≤ w.jobSets.top)
      (hposition : w.controller.podsSeen ≤ position) (hptop : position ≤ w.pods.top) :
      Step N w { w with
        controller := ⟨version, position, some (version, position)⟩
        trace := .snapshot (w.pods.entry position) :: w.trace }
  -- `p` is the state in which the earlier parts of the reconcile leave the JobSet
  | controllerWrites (w : World) (now : Time) (version position : ℕ) (p p' : Pass)
      (hreading : w.controller.reading = some (version, position))
      (hcurrent : version = w.jobSets.top) (hspec : p.js.spec = w.jobSets.current.spec)
      (hcounters : p.js.status.inPlaceCounters = w.jobSets.current.status.inPlaceCounters)
      (hok : reconcileInPlaceRestart now ((w.pods.entry position).map (·.pod)) p = .ok p') :
      Step N w { w with
        jobSets := w.jobSets.push { w.jobSets.current with status := p'.js.status }
        controller := { w.controller with reading := none } }
  | jobSetChanged (w : World) (js : JobSet) (hconfig : Config N js)
      (hcounters : js.status.inPlaceCounters = w.jobSets.current.status.inPlaceCounters) :
      Step N w { w with jobSets := w.jobSets.push js }

/-- A new JobSet, before any pod exists. -/
structure Init (N : ℕ) (w : World) : Prop where
  jobSets : ∃ js, w.jobSets = .single js ∧ Config N js ∧ js.status = .new
  pods : w.pods = .single []
  processes : ∀ uid, w.processes uid = none
  controller : w.controller = ⟨0, 0, none⟩
  trace : w.trace = []

/-- The states of all runs from a new JobSet. -/
def Reachable (N : ℕ) (w : World) : Prop := ∃ w₀, Init N w₀ ∧ Relation.ReflTransGen (Step N) w₀ w

/-- Every expected pod is there, has not failed and carries the attempt. -/
def AllCarry (N : ℕ) (pods : List PodObject) (attempt : ℤ) : Prop :=
  ∀ i < N, ∃ o ∈ pods, o.index = i ∧ ¬ o.failed ∧ o.rawAttempt = some (itoa attempt)

end JobSetOperator.InPlace
