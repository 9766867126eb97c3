import JobSetOperator.Controller.Traversal
import JobSetOperator.Library.Histories

/-!
# The controller and the API server

The server keeps every version of the JobSet and of the list of its child Jobs.
The controller reads both from caches that lag behind the server but never go
back, and runs one reconcile at a time. Each of its calls takes effect or not,
and a call that took effect may still be answered with an error. Between any two
calls users may update the JobSet, Jobs may make progress, appear or disappear,
and the controller may crash.

A status write succeeds only against the current version of the JobSet, and a
full update of a Job only against the current version of the Job. A patch and a
deletion of a Job find it by its name.
-/
namespace JobSetOperator.Cluster

open Library

/-! ## The server -/

structure Server where
  sets : History JobSet
  jobs : History (List Job)
  nextUid : ℕ
  nextVersion : ℕ

/-- The list with the Job of that name replaced. -/
def replaceJob (jobs : List Job) (job : Job) : List Job :=
  jobs.map fun j => if j.name = job.name then job else j

/-- Store the next version of a Job. -/
def Server.putJob (sv : Server) (job : Job) : Server :=
  { sv with
    jobs := sv.jobs.push
      (replaceJob sv.jobs.current { job with resourceVersion := sv.nextVersion })
    nextVersion := sv.nextVersion + 1 }

/-- Store a new Job. -/
def Server.addJob (sv : Server) (job : Job) : Server :=
  { sv with
    jobs := sv.jobs.push
      (sv.jobs.current ++ [{ job with uid := sv.nextUid, resourceVersion := sv.nextVersion }])
    nextUid := sv.nextUid + 1
    nextVersion := sv.nextVersion + 1 }

/-- Remove a Job. -/
def Server.dropJob (sv : Server) (job : Job) : Server :=
  { sv with jobs := sv.jobs.push (sv.jobs.current.filter fun j => j.uid ≠ job.uid) }

/-- Store the next version of the JobSet. -/
def Server.putSet (sv : Server) (js : JobSet) : Server := { sv with sets := sv.sets.push js }

/-- The call takes effect. `base` is the version the JobSet in memory was read at.
A merge patch carries the fields that differ from the cached copy, so the scaling
it leads to depends on both. -/
inductive Effect (sv : Server) (base : ℕ) : Request → Server → Prop
  | createJob (job : Job) (free : ∀ j ∈ sv.jobs.current, j.name ≠ job.name) :
    Effect sv base (.createJob job) (sv.addJob job)
  | deleteJob {job : Job} (mem : job ∈ sv.jobs.current) (t : Time) :
    Effect sv base (.deleteJob job.name)
      (sv.putJob { job with deletionTimestamp := some (job.deletionTimestamp.getD t) })
  | patchScaling {job : Job} (mem : job ∈ sv.jobs.current) (scaled : Job)
    (name : scaled.name = job.name) (parallelism completions : Option ℤ) :
    Effect sv base (.patchScaling scaled) (sv.putJob { job with
      spec := { job.spec with parallelism := parallelism, completions := completions } })
  | updateJobStatus {job : Job} (mem : job ∈ sv.jobs.current) (sent : Job)
    (name : sent.name = job.name) (version : sent.resourceVersion = job.resourceVersion) :
    Effect sv base (.updateJobStatus sent) (sv.putJob { job with status := sent.status })
  | updateJob {job : Job} (mem : job ∈ sv.jobs.current) (sent : Job)
    (name : sent.name = job.name) (version : sent.resourceVersion = job.resourceVersion) :
    Effect sv base (.updateJob sent) (sv.putJob { job with
      labels := sent.labels, annotations := sent.annotations, spec := sent.spec })
  | updateStatus (js : JobSet) (version : base = sv.sets.top) :
    Effect sv base (.updateStatus js) (sv.putSet { sv.sets.current with status := js.status })
  | deleteJobSet (js : JobSet) (t : Time) :
    Effect sv base (.deleteJobSet js)
      (sv.putSet { sv.sets.current with deletionTimestamp := some t })

/-- The answer reports an error. -/
def Failed : (r : Request) → r.Response → Prop
  | .createJob _, .error _ => True
  | .deleteJob _, .error _ => True
  | .patchScaling _, .error _ => True
  | .updateJobStatus _, .error _ => True
  | .updateJob _, .error _ => True
  | .updateStatus _, .error _ => True
  | .deleteJobSet _, .error _ => True
  | _, _ => False

/-- The answer to a call that took effect and led to the server `sv`. -/
def Accepted (sv : Server) : (r : Request) → r.Response → Prop
  | .createJob _, .ok _ => True
  | .deleteJob _, .ok _ => True
  | .patchScaling job, .ok stored => stored ∈ sv.jobs.current ∧ stored.name = job.name
  | .updateJobStatus job, .ok version =>
    { job with resourceVersion := version } ∈ sv.jobs.current
  | .updateJob _, .ok _ => True
  | .updateStatus _, .ok _ => True
  | .deleteJobSet _, .ok _ => True
  | _, _ => False

/-- The version the JobSet in memory is at after a call that was accepted. -/
def nextBase (sv : Server) (base : ℕ) : Request → ℕ
  | .updateStatus _ => sv.sets.top
  | _ => base

/-- The calls whose effects the model leaves out: their answers are arbitrary. -/
def Outside : Request → Prop
  | .deleteJobSet _ => False
  | r => r.Neutral

/-- How a call is answered. Deleting a Job that is gone counts as a success. -/
inductive Reply (sv : Server) (base : ℕ) : (r : Request) → r.Response → Server → ℕ → Prop
  | outside {r : Request} (h : Outside r) (x : r.Response) : Reply sv base r x sv base
  | failed {r : Request} {x : r.Response} (h : Failed r x) : Reply sv base r x sv base
  | lost {r : Request} {x : r.Response} {sv' : Server} (h : Failed r x)
    (effect : Effect sv base r sv') : Reply sv base r x sv' base
  | accepted {r : Request} {x : r.Response} {sv' : Server} (effect : Effect sv base r sv')
    (h : Accepted sv' r x) : Reply sv base r x sv' (nextBase sv' base r)
  | gone {name : String} (h : ∀ j ∈ sv.jobs.current, j.name ≠ name) :
    Reply sv base (.deleteJob name) (.ok ()) sv base

/-! ## The controller -/

/-- What a reconcile starts from. -/
structure Reading where
  env : Env
  js : JobSet
  jobs : List Job

/-- A reconcile in progress: its reading, the version its JobSet is at, the
answers so far and the rest of the program. -/
structure Attempt extends Reading where
  base : ℕ
  seen : Seen
  rest : Prog ℤ

/-- The server, the positions of the last reads, the reconcile in progress, and
for every version of the JobSet the reading its writer started from. -/
structure World extends Server where
  seenSets : ℕ
  seenJobs : ℕ
  attempt : Option Attempt
  authors : ℕ → Option Reading

/-- What may happen in a run: the configurations of the controller, the updates of
the JobSet by users, and the Jobs others create or remove. -/
structure Setting where
  allowed : Env → Prop
  admits : JobSet → JobSet → Prop
  foreign : Job → Prop
  removable : Job → Prop

/-- A reconcile that has read the JobSet and its Jobs. -/
def Attempt.start (env : Env) (js : JobSet) (jobs : List Job) (base : ℕ) : Attempt :=
  ⟨⟨env, js, jobs⟩, base, Seen.none, reconcileRequest env js jobs⟩

/-- The author of the version a call writes, if it writes one. -/
def World.record (w : World) (sv' : Server) (reading : Reading) : ℕ → Option Reading :=
  if sv'.sets.top = w.sets.top then w.authors
  else Function.update w.authors sv'.sets.top (some reading)

/-- One step of the cluster. -/
inductive Step (S : Setting) : World → World → Prop
  | userUpdate {w : World} {js : JobSet} (admitted : S.admits w.sets.current js)
    (status : js.status = w.sets.current.status) :
    Step S w { w with toServer := w.toServer.putSet js }
  | jobProgress {w : World} {job : Job} (mem : job ∈ w.jobs.current) (status : JobStatus)
    (finished : ∀ t, jobFinished job = some t → jobFinished { job with status := status } = some t) :
    Step S w { w with toServer := w.toServer.putJob { job with status := status } }
  | jobAppeared {w : World} {job : Job} (foreign : S.foreign job)
    (free : ∀ j ∈ w.jobs.current, j.name ≠ job.name) :
    Step S w { w with toServer := w.toServer.addJob job }
  | jobRemoved {w : World} {job : Job} (mem : job ∈ w.jobs.current) (removable : S.removable job) :
    Step S w { w with toServer := w.toServer.dropJob job }
  | begin {w : World} (idle : w.attempt = none) {env : Env} (allowed : S.allowed env) {i j : ℕ}
    (newer : w.seenSets ≤ i) (past : i ≤ w.sets.top) (newerJobs : w.seenJobs ≤ j)
    (pastJobs : j ≤ w.jobs.top) {jobs : List Job} (listed : jobs.Perm (w.jobs.entry j)) :
    Step S w { w with
      seenSets := i, seenJobs := j, attempt := some (.start env (w.sets.entry i) jobs i) }
  | answer {w : World} {a : Attempt} (busy : w.attempt = some a) {r : Request}
    {k : r.Response → Prog ℤ} (next : a.rest = .call r k) {x : r.Response} {sv' : Server}
    {base' : ℕ} (reply : Reply w.toServer a.base r x sv' base') :
    Step S w { w with
      toServer := sv'
      attempt := some { a with base := base', seen := a.seen.next r x, rest := k x }
      authors := w.record sv' a.toReading }
  | stop {w : World} : Step S w { w with attempt := none }

/-- A new JobSet without Jobs. -/
def World.initial (js : JobSet) : World where
  sets := .single js
  jobs := .single []
  nextUid := 0
  nextVersion := 0
  seenSets := 0
  seenJobs := 0
  attempt := none
  authors := fun _ => none

/-- A run from a new JobSet. -/
def Reachable (S : Setting) (js : JobSet) (w : World) : Prop :=
  Relation.ReflTransGen (Step S) (World.initial js) w

/-- A step in which a reconcile starts only if the guard holds then. -/
def GuardedStep (S : Setting) (guard : World → Attempt → Prop) (w w' : World) : Prop :=
  Step S w w' ∧ (w.attempt = none → ∀ a, w'.attempt = some a → guard w a)

/-- A run in which every reconcile meets the guard when it starts. -/
def GuardedRun (S : Setting) (guard : World → Attempt → Prop) (js : JobSet) (w : World) : Prop :=
  Relation.ReflTransGen (GuardedStep S guard) (World.initial js) w

theorem GuardedRun.reachable {S : Setting} {guard : World → Attempt → Prop} {js : JobSet}
    {w : World} (h : GuardedRun S guard js w) : Reachable S js w := by
  induction h with
  | refl => exact .refl
  | tail _ hstep ih => exact ih.tail hstep.1

end JobSetOperator.Cluster
