import JobSetOperator.Controller.Completion
import JobSetOperator.Controller.Settling
import JobSetOperator.Library.Services

/-!
# A quiet API server

The server holds one JobSet with its child Jobs, its headless service and its
claims, and nobody else acts on them. Calls succeed, a deletion removes the Job,
and a new Job is stored as an active one without ready pods. Each part of a
reconcile then has one effect on the server, which its lemma states; what is left
open is the clock and how the server fills in new Jobs.
-/
namespace JobSetOperator.Convergence

open Library Library.Program

/-! ## The server -/

/-- The JobSet, its child Jobs, the ports of the headless service with whether the JobSet
controls it, and the names of the claims. -/
structure Site where
  js : JobSet
  jobs : List Job
  service : Option (Bool × List ServicePort)
  claims : List String

/-- The server during a reconcile, and whether the reconcile has written anything. -/
structure Session extends Site where
  wrote : Bool

/-- How a new Job is stored. The server may default the rest of its spec. -/
structure Stores (job stored : Job) : Prop where
  name : stored.name = job.name
  labels : stored.labels = job.labels
  suspend : stored.spec.suspend = job.spec.suspend
  live : stored.deletionTimestamp = none
  active : jobFinished stored = none
  notReady : stored.status.ready.getD 0 = 0

/-- The list with the Jobs of the name changed. -/
def modifyNamed (name : String) (f : Job → Job) (jobs : List Job) : List Job :=
  jobs.map fun job => if job.name = name then f job else job

/-- The calls and their answers. A claim that exists already is not written again. -/
def serves : Session → (r : Request) → r.Response → Session → Prop
  | s, .now, _, s' => s' = s
  | s, .listPods, .ok _, s' => s' = s
  | s, .getService _, .found controlled ports, s' =>
    s.service = some (controlled, ports) ∧ s' = s
  | s, .getService _, .notFound, s' => s.service = none ∧ s' = s
  | s, .createService service, .ok _, s' =>
    s' = { s with service := some (true, service.ports), wrote := true }
  | s, .updateServicePorts ports, .ok _, s' =>
    s' = { s with service := some (true, ports), wrote := true }
  | s, .createClaim claim, .created, s' =>
    claim.name ∉ s.claims ∧ s' = { s with claims := claim.name :: s.claims, wrote := true }
  | s, .createClaim claim, .alreadyExists, s' => claim.name ∈ s.claims ∧ s' = s
  | s, .deleteSchedulingObjects, .ok _, s' => s' = { s with wrote := true }
  | s, .reconcileSchedulingObjects, .ok _, s' => s' = { s with wrote := true }
  | s, .schedulingObjectsReady, .ok _, s' => s' = s
  | s, .createJob job, .ok _, s' =>
    ∃ stored, Stores job stored ∧ s' = { s with jobs := s.jobs ++ [stored], wrote := true }
  | s, .deleteJob name, .ok _, s' =>
    s' = { s with jobs := s.jobs.filter (fun job => job.name ≠ name), wrote := true }
  | s, .patchScaling job, .ok stored, s' => stored = job ∧
    s' = { s with
      jobs := modifyNamed job.name (fun old => { old with spec := job.spec }) s.jobs
      wrote := true }
  | s, .updateJobStatus job, .ok _, s' =>
    s' = { s with
      jobs := modifyNamed job.name (fun old => { old with status := job.status }) s.jobs
      wrote := true }
  | s, .updateJob job, .ok _, s' =>
    s' = { s with
      jobs := modifyNamed job.name (fun old => { old with
        labels := job.labels, annotations := job.annotations, spec := job.spec }) s.jobs
      wrote := true }
  | s, .updateStatus js, .ok _, s' =>
    s' = { s with js := { s.js with status := js.status }, wrote := true }
  | s, .deleteJobSet _, .ok _, s' =>
    ∃ t, s' = { s with js := { s.js with deletionTimestamp := some t }, wrote := true }
  | s, .emitEvent _, _, s' => s' = s
  | s, .countMetric _, _, s' => s' = s
  | _, _, _, _ => False

/-- The Jobs that are not being deleted. -/
def liveJobs (jobs : List Job) : List Job := jobs.filter fun job => job.deletionTimestamp.isNone

/-- One `Reconcile` from the site, with what it returns, whether it has written, and the
site it leaves. The deletions that are under way have removed their Jobs by then. -/
def Iterates (env : Env) (s : Site) (res : Except String ℤ) (wrote : Bool) (s' : Site) : Prop :=
  ∃ calls mid, Runs serves ⟨s, false⟩ (reconcileRequest env s.js s.jobs) calls res mid ∧
    wrote = mid.wrote ∧ s' = { mid.toSite with jobs := liveJobs mid.jobs }

/-- Every call is answered. -/
theorem serves_total (s : Session) (r : Request) : ∃ x s', serves s r x s' := by
  cases r with
  | now => exact ⟨(0 : ℤ), s, rfl⟩
  | listPods => exact ⟨Except.ok [], s, rfl⟩
  | getService name =>
    cases hs : s.service with
    | none => exact ⟨ServiceLookup.notFound, s, hs, rfl⟩
    | some svc => exact ⟨ServiceLookup.found svc.1 svc.2, s, hs, rfl⟩
  | createService service => exact ⟨Except.ok (), _, rfl⟩
  | updateServicePorts ports => exact ⟨Except.ok (), _, rfl⟩
  | createClaim claim =>
    by_cases hc : claim.name ∈ s.claims
    · exact ⟨ClaimCreation.alreadyExists, s, hc, rfl⟩
    · exact ⟨ClaimCreation.created, _, hc, rfl⟩
  | deleteSchedulingObjects => exact ⟨Except.ok (), _, rfl⟩
  | reconcileSchedulingObjects => exact ⟨Except.ok (), _, rfl⟩
  | schedulingObjectsReady => exact ⟨Except.ok true, s, rfl⟩
  | createJob job =>
    have hstores : Stores job { job with
        deletionTimestamp := none, status := ⟨[], 0, none, 0, none⟩ } :=
      ⟨rfl, rfl, rfl, rfl, rfl, rfl⟩
    exact ⟨Except.ok (), _, _, hstores, rfl⟩
  | deleteJob name => exact ⟨Except.ok (), _, rfl⟩
  | patchScaling job => exact ⟨Except.ok job, _, rfl, rfl⟩
  | updateJobStatus job => exact ⟨Except.ok (0 : ℕ), _, rfl⟩
  | updateJob job => exact ⟨Except.ok (), _, rfl⟩
  | updateStatus js => exact ⟨Except.ok (), _, rfl⟩
  | deleteJobSet js => exact ⟨Except.ok (), _, 0, rfl⟩
  | emitEvent event => exact ⟨(), s, rfl⟩
  | countMetric metric => exact ⟨(), s, rfl⟩

end JobSetOperator.Convergence
