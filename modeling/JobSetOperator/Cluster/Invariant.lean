import JobSetOperator.Cluster.Jobs
import JobSetOperator.Controller.Writes

/-!
# What every step of the cluster does

`Inv` ties a reconcile in progress to the histories it has read from: its JobSet
and its Jobs are old versions, the version it writes against holds what it has in
memory, and its remaining calls are those of `Calls`. With it, `step_move` says
what a step can do to the server, in terms of the discipline of the controller.
The later modules argue about `Move` alone.
-/
namespace JobSetOperator.Cluster

open Library Library.Program

/-! ## The invariant -/

/-- A reconcile in progress and the histories it reads. -/
structure AttemptOk (S : Setting) (w : World) (a : Attempt) : Prop where
  allowed : S.allowed a.env
  js : a.js = w.sets.entry w.seenSets
  jobs : a.jobs.Perm (w.jobs.entry w.seenJobs)
  newer : w.seenSets ≤ a.base
  past : a.base ≤ w.sets.top
  first : a.seen.acked = none → a.base = w.seenSets
  stored : w.sets.entry a.base = a.seen.acked.getD a.js
  frame : w.sets.entry a.base = { a.js with status := (w.sets.entry a.base).status }
  answers : ∀ job ∈ a.seen.answers, ∃ i ≤ w.jobs.top, job ∈ w.jobs.entry i
  follows : Follows (Calls a.env a.js a.jobs) Seen.next (fun _ _ => True) a.seen a.rest

structure Inv (S : Setting) (w : World) : Prop where
  seenSets : w.seenSets ≤ w.sets.top
  seenJobs : w.seenJobs ≤ w.jobs.top
  jobs : JobsOk w.toServer
  attempt : ∀ a, w.attempt = some a → AttemptOk S w a

/-- A Job in memory is an old version. -/
theorem AttemptOk.known {S : Setting} {w : World} {a : Attempt} (h : AttemptOk S w a)
    (hseen : w.seenJobs ≤ w.jobs.top) {job : Job} (hjob : job ∈ a.jobs ∨ job ∈ a.seen.answers) :
    ∃ i ≤ w.jobs.top, job ∈ w.jobs.entry i := by
  rcases hjob with hjob | hjob
  · exact ⟨w.seenJobs, hseen, h.jobs.mem_iff.mp hjob⟩
  · exact h.answers job hjob

/-- A Job in memory whose version is still the current one is the Job on the server. -/
theorem Inv.same {S : Setting} {w : World} {a : Attempt} (h : Inv S w)
    (busy : w.attempt = some a) {known job : Job} (hknown : known ∈ a.jobs ∨ known ∈ a.seen.answers)
    (hjob : job ∈ w.jobs.current) (hv : known.resourceVersion = job.resourceVersion) :
    known = job := by
  obtain ⟨i, hi, hmem⟩ := (h.attempt a busy).known h.seenJobs hknown
  exact h.jobs.versions i hi _ le_rfl known hmem job hjob hv

/-! ## What a step does to the server -/

/-- The changes of the server in one step, with what the controller has
established when it makes the call. `authors` are the authors after the step. -/
inductive Move (S : Setting) (w : World) (authors : ℕ → Option Reading) : Server → Prop
  | none : Move S w authors w.toServer
  | updated {js : JobSet} (admitted : S.admits w.sets.current js)
    (status : js.status = w.sets.current.status) : Move S w authors (w.toServer.putSet js)
  | marked (t : Time) :
    Move S w authors (w.toServer.putSet { w.sets.current with deletionTimestamp := some t })
  | wrote {a : Attempt} (busy : w.attempt = some a) {js : JobSet}
    (writes : Writes a.env a.js a.jobs a.seen js) (version : a.base = w.sets.top)
    (author : authors (w.sets.top + 1) = some a.toReading) :
    Move S w authors (w.toServer.putSet js)
  | created {a : Attempt} (busy : w.attempt = some a) {job : Job}
    (creates : Creates a.env a.js a.jobs a.seen job)
    (free : ∀ j ∈ w.jobs.current, j.name ≠ job.name) : Move S w authors (w.toServer.addJob job)
  | deleted {a : Attempt} (busy : w.attempt = some a) {job : Job} (mem : job ∈ w.jobs.current)
    (deletes : Deletes a.env a.js a.jobs job.name) (t : Time) :
    Move S w authors (w.toServer.putJob
      { job with deletionTimestamp := some (job.deletionTimestamp.getD t) })
  | patched {a : Attempt} (busy : w.attempt = some a) {job scaled : Job}
    (mem : job ∈ w.jobs.current) (patches : Patches a.env a.js a.jobs scaled)
    (name : scaled.name = job.name) (parallelism completions : Option ℤ) :
    Move S w authors (w.toServer.putJob { job with
      spec := { job.spec with parallelism := parallelism, completions := completions } })
  | cleared {a : Attempt} (busy : w.attempt = some a) {job : Job} (mem : job ∈ w.jobs.current)
    {q : Pass} (resumable : Resumable a.env a.js a.jobs a.seen q job) :
    Move S w authors (w.toServer.putJob job.cleared)
  | suspended {a : Attempt} (busy : w.attempt = some a) {job : Job} (mem : job ∈ w.jobs.current)
    {owned : ChildJobs} {active : List Job} {p q : Pass}
    (running : Running a.env a.js a.jobs a.seen owned active p q)
    (off : jobSetSuspended a.js = true) (known : job ∈ active) (on : jobSuspended job = false) :
    Move S w authors (w.toServer.putJob { job with spec := { job.spec with suspend := some true } })
  | resumed {a : Attempt} (busy : w.attempt = some a) {job : Job} (mem : job ∈ w.jobs.current)
    {q : Pass} {suspended : Job} (resumable : Resumable a.env a.js a.jobs a.seen q suspended)
    (same : job = suspended ∨ ∃ v, job = { suspended.cleared with resourceVersion := v }) :
    Move S w authors (w.toServer.putJob (resumedJob a.env.gates q.js job))
  | progressed {job : Job} (mem : job ∈ w.jobs.current) (status : JobStatus)
    (finished : ∀ t, jobFinished job = some t → jobFinished { job with status := status } = some t) :
    Move S w authors (w.toServer.putJob { job with status := status })
  | appeared {job : Job} (foreign : S.foreign job)
    (free : ∀ j ∈ w.jobs.current, j.name ≠ job.name) : Move S w authors (w.toServer.addJob job)
  | removed {job : Job} (mem : job ∈ w.jobs.current) (removable : S.removable job) :
    Move S w authors (w.toServer.dropJob job)

/-- A resumed Job keeps its identity and its status. -/
theorem resumedJob_same (gates : FeatureGates) (js : JobSet) (job : Job) :
    (resumedJob gates js job).name = job.name ∧ (resumedJob gates js job).uid = job.uid ∧
      (resumedJob gates js job).resourceVersion = job.resourceVersion ∧
      (resumedJob gates js job).labels = job.labels ∧
      (resumedJob gates js job).deletionTimestamp = job.deletionTimestamp ∧
      (resumedJob gates js job).status = job.status := by
  unfold resumedJob stampAttempt
  dsimp only
  split_ifs <;> simp

theorem resumedJob_stored (gates : FeatureGates) (js : JobSet) (job : Job) :
    { job with
      labels := (resumedJob gates js job).labels
      annotations := (resumedJob gates js job).annotations
      spec := (resumedJob gates js job).spec } = resumedJob gates js job := by
  unfold resumedJob stampAttempt
  dsimp only
  split_ifs <;> rfl

theorem succeeds_resumedJob (gates : FeatureGates) (js : JobSet) (job : Job) :
    Succeeds job (resumedJob gates js job) := by
  obtain ⟨hname, huid, -, hlabels, -, hstatus⟩ := resumedJob_same gates js job
  refine ⟨hname, huid, hlabels, fun t ht => ?_⟩
  unfold jobFinished at ht ⊢
  rw [hstatus]
  exact ht

/-- A call that takes effect is a move of the server. -/
theorem effect_move {S : Setting} {w : World} (hinv : Inv S w) {a : Attempt}
    (busy : w.attempt = some a) {r : Request} (hcall : Calls a.env a.js a.jobs a.seen r)
    {sv' : Server} (effect : Effect w.toServer a.base r sv') :
    Move S w (w.record sv' a.toReading) sv' := by
  cases effect with
  | createJob job free => exact Move.created busy hcall free
  | deleteJob mem t => exact Move.deleted busy mem hcall t
  | patchScaling mem scaled name parallelism completions =>
    exact Move.patched busy mem hcall name parallelism completions
  | @updateJobStatus job mem sent name version =>
    obtain ⟨q, suspended, hres, rfl⟩ := hcall
    obtain rfl := hinv.same busy hres.source mem version
    exact Move.cleared busy mem hres
  | @updateJob job mem sent name version =>
    rcases hcall with ⟨owned, active, p, q, hr, hoff, running, hknown, hon, rfl⟩ |
      ⟨q, suspended, hres, ⟨-, rfl⟩ | ⟨v, hanswer, rfl⟩⟩
    · obtain rfl := hinv.same busy (hr.source hknown) mem version
      exact Move.suspended busy mem hr hoff hknown hon
    · have hversion : suspended.resourceVersion = job.resourceVersion :=
        (resumedJob_same a.env.gates q.js suspended).2.2.1.symm.trans version
      obtain rfl := hinv.same busy hres.source mem hversion
      rw [resumedJob_stored]
      exact Move.resumed busy mem hres (Or.inl rfl)
    · have hversion := (resumedJob_same a.env.gates q.js
        { suspended.cleared with resourceVersion := v }).2.2.1.symm.trans version
      have hjob := hinv.same busy (Or.inr hanswer) mem hversion
      rw [hjob, resumedJob_stored]
      exact Move.resumed busy mem hres (Or.inr ⟨v, hjob.symm⟩)
  | updateStatus js version =>
    have hok := hinv.attempt a busy
    have hframe : js = { a.js with status := js.status } := Writes.frame hcall
    have hcurrent : w.sets.current = { a.js with status := w.sets.current.status } := by
      have := hok.frame
      rw [version] at this
      exact this
    have hstored : { w.sets.current with status := js.status } = js := by
      rw [hcurrent]
      exact hframe.symm
    rw [hstored]
    refine Move.wrote busy hcall version ?_
    simp [World.record, Server.putSet]
  | deleteJobSet js t => exact Move.marked t

/-- Every step moves the server as `Move` says. -/
theorem step_move {S : Setting} {w w' : World} (hinv : Inv S w) (h : Step S w w') :
    Move S w w'.authors w'.toServer := by
  cases h with
  | userUpdate admitted status => exact Move.updated admitted status
  | jobProgress mem status finished => exact Move.progressed mem status finished
  | jobAppeared foreign free => exact Move.appeared foreign free
  | jobRemoved mem removable => exact Move.removed mem removable
  | begin idle allowed newer past newerJobs pastJobs listed => exact Move.none
  | @answer a busy r k next x sv' base' reply =>
    have hfollows := (hinv.attempt a busy).follows
    rw [next] at hfollows
    cases reply with
    | outside h x => exact Move.none
    | failed h => exact Move.none
    | lost h effect => exact effect_move hinv busy hfollows.1 effect
    | accepted effect h => exact effect_move hinv busy hfollows.1 effect
    | gone h => exact Move.none
  | stop => exact Move.none

/-! ## The histories under a move -/

theorem Move.jobsOk {S : Setting} {w : World} {authors : ℕ → Option Reading} {sv' : Server}
    (h : Move S w authors sv')
    (hok : JobsOk w.toServer) : JobsOk sv' := by
  cases h with
  | none => exact hok
  | updated admitted status => exact hok.putSet _
  | marked t => exact hok.putSet _
  | wrote busy writes version author => exact hok.putSet _
  | created busy creates free => exact hok.addJob free
  | deleted busy mem deletes t => exact hok.putJob mem ⟨rfl, rfl, rfl, fun _ h => h⟩
  | patched busy mem patches name parallelism completions =>
    exact hok.putJob mem ⟨rfl, rfl, rfl, fun _ h => h⟩
  | cleared busy mem resumable => exact hok.putJob mem ⟨rfl, rfl, rfl, fun _ h => h⟩
  | suspended busy mem running off known on => exact hok.putJob mem ⟨rfl, rfl, rfl, fun _ h => h⟩
  | resumed busy mem resumable same => exact hok.putJob mem (succeeds_resumedJob _ _ _)
  | progressed mem status finished => exact hok.putJob mem ⟨rfl, rfl, rfl, finished⟩
  | appeared foreign free => exact hok.addJob free
  | removed mem removable => exact hok.dropJob _

/-- Where a Job of the list after a step comes from: it was there before, the
reconcile in progress has created it, or somebody else has. -/
theorem Move.origin {S : Setting} {w : World} {authors : ℕ → Option Reading} {sv' : Server}
    (h : Move S w authors sv') {b : Job} (hb : b ∈ sv'.jobs.current) :
    (∃ a ∈ w.jobs.current, Succeeds a b) ∨
    (∃ a job, w.attempt = some a ∧ Creates a.env a.js a.jobs a.seen job ∧
      b = { job with uid := w.nextUid, resourceVersion := w.nextVersion } ∧
      sv' = w.toServer.addJob job) ∨
    ∃ job, S.foreign job ∧ b.labels = job.labels ∧ sv' = w.toServer.addJob job := by
  have hput : ∀ {a c : Job}, a ∈ w.jobs.current → b ∈ (w.toServer.putJob c).jobs.current →
      Succeeds a c → ∃ a ∈ w.jobs.current, Succeeds a b := by
    intro a c ha hmem hs
    simp only [Server.putJob, History.push_current] at hmem
    rcases mem_replaceJob hmem with ⟨hold, -⟩ | rfl
    · exact ⟨b, hold, Succeeds.refl b⟩
    · exact ⟨a, ha, hs.name, hs.uid, hs.labels, hs.finished⟩
  have hadd : ∀ {job : Job}, b ∈ (w.toServer.addJob job).jobs.current → b ∈ w.jobs.current ∨
      b = { job with uid := w.nextUid, resourceVersion := w.nextVersion } := by
    intro job hmem
    simpa [Server.addJob] using hmem
  cases h with
  | none => exact Or.inl ⟨b, hb, Succeeds.refl b⟩
  | updated admitted status => exact Or.inl ⟨b, hb, Succeeds.refl b⟩
  | marked t => exact Or.inl ⟨b, hb, Succeeds.refl b⟩
  | wrote busy writes version author => exact Or.inl ⟨b, hb, Succeeds.refl b⟩
  | created busy creates free =>
    rcases hadd hb with hold | hnew
    · exact Or.inl ⟨b, hold, Succeeds.refl b⟩
    · exact Or.inr (Or.inl ⟨_, _, busy, creates, hnew, rfl⟩)
  | deleted busy mem deletes t => exact Or.inl (hput mem hb ⟨rfl, rfl, rfl, fun _ h => h⟩)
  | patched busy mem patches name parallelism completions =>
    exact Or.inl (hput mem hb ⟨rfl, rfl, rfl, fun _ h => h⟩)
  | cleared busy mem resumable => exact Or.inl (hput mem hb ⟨rfl, rfl, rfl, fun _ h => h⟩)
  | suspended busy mem running off known on =>
    exact Or.inl (hput mem hb ⟨rfl, rfl, rfl, fun _ h => h⟩)
  | resumed busy mem resumable same => exact Or.inl (hput mem hb (succeeds_resumedJob _ _ _))
  | progressed mem status finished => exact Or.inl (hput mem hb ⟨rfl, rfl, rfl, finished⟩)
  | appeared foreign free =>
    rcases hadd hb with hold | hnew
    · exact Or.inl ⟨b, hold, Succeeds.refl b⟩
    · exact Or.inr (Or.inr ⟨_, foreign, by rw [hnew], rfl⟩)
  | removed mem removable =>
    have hold : b ∈ w.jobs.current := by
      simp only [Server.dropJob, History.push_current] at hb
      exact List.mem_of_mem_filter hb
    exact Or.inl ⟨b, hold, Succeeds.refl b⟩

/-- Old versions of the JobSet stay, and at most one is added. -/
theorem Move.sets {S : Setting} {w : World} {authors : ℕ → Option Reading} {sv' : Server}
    (h : Move S w authors sv') :
    sv'.sets = w.sets ∨ ∃ js, sv'.sets = w.sets.push js := by
  cases h <;> first | exact Or.inl rfl | exact Or.inr ⟨_, rfl⟩

/-- Old lists of the Jobs stay, and at most one is added. -/
theorem Move.jobs {S : Setting} {w : World} {authors : ℕ → Option Reading} {sv' : Server}
    (h : Move S w authors sv') :
    sv'.jobs = w.jobs ∨ ∃ l, sv'.jobs = w.jobs.push l := by
  cases h <;> first | exact Or.inl rfl | exact Or.inr ⟨_, rfl⟩

/-- The authors of the versions there are stay. -/
theorem step_authors {S : Setting} {w w' : World} (hinv : Inv S w) (h : Step S w w') {v : ℕ}
    (hv : v ≤ w.sets.top) : w'.authors v = w.authors v := by
  have hsets := (step_move hinv h).sets
  cases h with
  | @answer a busy r k next x sv' base' reply =>
    change World.record w sv' a.toReading v = _
    unfold World.record
    split_ifs with htop
    · rfl
    · have hne : v ≠ sv'.sets.top := by
        rcases hsets with hsame | ⟨js, hpush⟩
        · exact absurd (congrArg History.top hsame) htop
        · have := congrArg History.top hpush
          simp only [History.push_top] at this
          change sv'.sets.top = w.sets.top + 1 at this
          omega
      exact Function.update_of_ne hne _ _
  | _ => rfl

theorem AttemptOk.grow {S : Setting} {w w' : World} {a : Attempt} (h : AttemptOk S w a)
    (hsets : w.sets.Grows w'.sets) (hjobs : w.jobs.Grows w'.jobs)
    (hseen : w.seenSets ≤ w.sets.top) (hseen' : w.seenJobs ≤ w.jobs.top) (he : w'.seenSets = w.seenSets)
    (he' : w'.seenJobs = w.seenJobs) : AttemptOk S w' a := by
  have hbase := hsets.2 a.base h.past
  refine ⟨h.allowed, ?_, ?_, he ▸ h.newer, h.past.trans hsets.1, he ▸ h.first, ?_, ?_, ?_,
    h.follows⟩
  · rw [he, hsets.2 _ hseen]
    exact h.js
  · rw [he', hjobs.2 _ hseen']
    exact h.jobs
  · rw [hbase]
    exact h.stored
  · rw [hbase]
    exact h.frame
  · intro job hjob
    obtain ⟨i, hi, hmem⟩ := h.answers job hjob
    exact ⟨i, hi.trans hjobs.1, by rwa [hjobs.2 i hi]⟩

theorem inv_initial (S : Setting) (js : JobSet) : Inv S (World.initial js) :=
  ⟨le_rfl, le_rfl, JobsOk.initial js, fun _ h => by cases h⟩

theorem Seen.next_outside {s : Seen} {r : Request} (h : Outside r) (x : r.Response) :
    s.next r x = s := by
  cases r <;> first | rfl | exact h.elim

theorem Seen.next_failed {s : Seen} {r : Request} {x : r.Response} (h : Failed r x) :
    s.next r x = s := by
  cases r <;> first | rfl | (cases x <;> first | rfl | exact h.elim)

/-- An answer that leaves the copies in memory alone. -/
theorem AttemptOk.proceed {S : Setting} {w : World} {a : Attempt} (h : AttemptOk S w a)
    {r : Request} {k : r.Response → Prog ℤ} (hnext : a.rest = .call r k) {x : r.Response}
    (hseen : a.seen.next r x = a.seen) :
    AttemptOk S w { a with seen := a.seen.next r x, rest := k x } := by
  have hfollows := h.follows
  rw [hnext] at hfollows
  refine ⟨h.allowed, h.js, h.jobs, h.newer, h.past, ?_, ?_, h.frame, ?_, hfollows.2 x⟩
  · rw [hseen]
    exact h.first
  · rw [hseen]
    exact h.stored
  · rw [hseen]
    exact h.answers

theorem Effect.status {sv sv' : Server} {base : ℕ} {js : JobSet}
    (h : Effect sv base (.updateStatus js) sv') :
    base = sv.sets.top ∧ sv'.sets = sv.sets.push { sv.sets.current with status := js.status } := by
  cases h with
  | updateStatus _ version => exact ⟨version, rfl⟩

/-- A call that was accepted: the copies in memory are what the server now has. -/
theorem AttemptOk.accept {S : Setting} {w w' : World} {a : Attempt} (hold : AttemptOk S w a)
    (hseen : w.seenSets ≤ w.sets.top) (h : AttemptOk S w' a) {r : Request}
    {k : r.Response → Prog ℤ} (hnext : a.rest = .call r k) {x : r.Response}
    (effect : Effect w.toServer a.base r w'.toServer) (hx : Accepted w'.toServer r x)
    (he : w'.seenSets = w.seenSets) :
    AttemptOk S w' { a with
      base := nextBase w'.toServer a.base r, seen := a.seen.next r x, rest := k x } := by
  have hfollows := h.follows
  rw [hnext] at hfollows
  have hanswers : ∀ l : List Job, (∀ job ∈ l, job ∈ w'.jobs.current) →
      ∀ job ∈ l ++ a.seen.answers, ∃ i ≤ w'.jobs.top, job ∈ w'.jobs.entry i := by
    intro l hl job hjob
    rcases List.mem_append.mp hjob with hjob | hjob
    · exact ⟨_, le_rfl, hl job hjob⟩
    · exact h.answers job hjob
  cases r with
  | updateStatus js =>
    cases x with
    | error e => exact hx.elim
    | ok _ =>
      obtain ⟨version, htop⟩ := effect.status
      have hframe : js = { a.js with status := js.status } := Writes.frame hfollows.1
      have hcurrent : w.sets.current = { a.js with status := w.sets.current.status } := by
        have := hold.frame
        rw [version] at this
        exact this
      have hstored : w'.sets.entry w'.sets.top = js := by
        rw [htop]
        change History.current _ = _
        rw [History.push_current, hcurrent]
        exact hframe.symm
      refine ⟨h.allowed, h.js, h.jobs, ?_, le_rfl, fun hnone => ?_, hstored, ?_, h.answers,
        hfollows.2 (.ok ())⟩
      · change w'.seenSets ≤ w'.sets.top
        rw [he, htop]
        exact hseen.trans (Nat.le_succ _)
      · cases hnone
      · change w'.sets.entry w'.sets.top =
          { a.js with status := (w'.sets.entry w'.sets.top).status }
        rw [hstored]
        exact hframe
  | patchScaling job =>
    cases x with
    | error e => exact hx.elim
    | ok stored =>
      refine ⟨h.allowed, h.js, h.jobs, h.newer, h.past, h.first, h.stored, h.frame, ?_,
        hfollows.2 (.ok stored)⟩
      exact hanswers [stored] (by simpa using hx.1)
  | updateJobStatus job =>
    cases x with
    | error e => exact hx.elim
    | ok version =>
      refine ⟨h.allowed, h.js, h.jobs, h.newer, h.past, h.first, h.stored, h.frame, ?_,
        hfollows.2 (.ok version)⟩
      have hmem : { job with resourceVersion := version } ∈ w'.jobs.current := hx
      exact hanswers [_] (by simpa using hmem)
  | createJob job => exact h.proceed hnext rfl
  | deleteJob name => exact h.proceed hnext rfl
  | updateJob job => exact h.proceed hnext rfl
  | deleteJobSet js => exact h.proceed hnext rfl
  | _ => exact hx.elim

/-- Every step keeps the invariant. -/
theorem step_inv {S : Setting} {w w' : World} (hinv : Inv S w) (h : Step S w w') : Inv S w' := by
  have hmove := step_move hinv h
  have hsets := History.grows_of_push hmove.sets
  have hjobs := History.grows_of_push hmove.jobs
  have hgrow : ∀ a, w.attempt = some a → w'.seenSets = w.seenSets → w'.seenJobs = w.seenJobs →
      AttemptOk S w' a := fun a busy he he' =>
    (hinv.attempt a busy).grow hsets hjobs hinv.seenSets hinv.seenJobs he he'
  have hok : JobsOk w'.toServer := hmove.jobsOk hinv.jobs
  cases h with
  | userUpdate admitted status =>
    exact ⟨hinv.seenSets.trans hsets.1, hinv.seenJobs.trans hjobs.1, hok,
      fun a busy => hgrow a busy rfl rfl⟩
  | jobProgress mem status finished =>
    exact ⟨hinv.seenSets.trans hsets.1, hinv.seenJobs.trans hjobs.1, hok,
      fun a busy => hgrow a busy rfl rfl⟩
  | jobAppeared foreign free =>
    exact ⟨hinv.seenSets.trans hsets.1, hinv.seenJobs.trans hjobs.1, hok,
      fun a busy => hgrow a busy rfl rfl⟩
  | jobRemoved mem removable =>
    exact ⟨hinv.seenSets.trans hsets.1, hinv.seenJobs.trans hjobs.1, hok,
      fun a busy => hgrow a busy rfl rfl⟩
  | @begin idle env allowed i j newer past newerJobs pastJobs jobs listed =>
    refine ⟨past, pastJobs, hok, fun a busy => ?_⟩
    cases busy
    exact ⟨allowed, rfl, listed, le_rfl, past, fun _ => rfl, rfl, rfl, by simp [Attempt.start, Seen.none],
      reconcileRequest_follows _ _ _⟩
  | @answer a busy r k next x sv' base' reply =>
    refine ⟨hinv.seenSets.trans hsets.1, hinv.seenJobs.trans hjobs.1, hok, fun a' busy' => ?_⟩
    cases busy'
    have ha := hgrow a busy rfl rfl
    cases reply with
    | outside h x => exact ha.proceed next (Seen.next_outside h x)
    | failed h => exact ha.proceed next (Seen.next_failed h)
    | lost h effect => exact ha.proceed next (Seen.next_failed h)
    | accepted effect h =>
      exact (hinv.attempt a busy).accept hinv.seenSets ha next effect h rfl
    | gone h => exact ha.proceed next rfl
  | stop => exact ⟨hinv.seenSets, hinv.seenJobs, hok, fun a busy => by cases busy⟩

theorem reachable_inv {S : Setting} {js : JobSet} {w : World} (h : Reachable S js w) : Inv S w := by
  induction h with
  | refl => exact inv_initial S js
  | tail _ hstep ih => exact step_inv ih hstep

/-- The first version is the new JobSet. -/
theorem reachable_first {S : Setting} {js : JobSet} {w : World} (h : Reachable S js w) :
    w.sets.entry 0 = js := by
  induction h with
  | refl => rfl
  | tail hrun hstep ih =>
    have hgrows := History.grows_of_push (step_move (reachable_inv hrun) hstep).sets
    rw [hgrows.2 0 (Nat.zero_le _), ih]

/-- A new version of the JobSet has the old status, or it is a status write of the
reconcile in progress, against the version it has in memory. -/
theorem step_version {S : Setting} {w w' : World} (hinv : Inv S w) (hstep : Step S w w') :
    w'.sets = w.sets ∨ ∃ js, w'.sets = w.sets.push js ∧
      (js.status = w.sets.current.status ∨
        ∃ a, w.attempt = some a ∧ Writes a.env a.js a.jobs a.seen js ∧
          w.sets.current = a.seen.acked.getD a.js ∧
          w'.authors (w.sets.top + 1) = some a.toReading) := by
  have hmove := step_move hinv hstep
  generalize w'.toServer = sv' at hmove
  cases hmove with
  | updated admitted status => exact Or.inr ⟨_, rfl, Or.inl status⟩
  | marked t => exact Or.inr ⟨_, rfl, Or.inl rfl⟩
  | @wrote a busy js writes version author =>
    have hstored := (hinv.attempt a busy).stored
    rw [version] at hstored
    exact Or.inr ⟨js, rfl, Or.inr ⟨a, busy, writes, hstored, author⟩⟩
  | _ => exact Or.inl rfl

/-- The rule for the versions of the JobSet: a property of every version and a
relation between earlier and later ones, from what one update, one deletion and
one status write do. -/
theorem reachable_sets {S : Setting} {P : JobSet → Prop} {R : JobSet → JobSet → Prop}
    (hrefl : ∀ a, R a a) (htrans : ∀ a b c, R a b → R b c → R a c)
    (hupdate : ∀ a b, S.admits a b → b.status = a.status → P a → P b ∧ R a b)
    (hmark : ∀ a t, P a → P { a with deletionTimestamp := some t } ∧
      R a { a with deletionTimestamp := some t })
    (hwrite : ∀ env js jobs s js', S.allowed env → P js → P (s.acked.getD js) →
      Writes env js jobs s js' → P js' ∧ R (s.acked.getD js) js')
    {js : JobSet} (hjs : P js) {w : World} (h : Reachable S js w) :
    w.sets.All P ∧ w.sets.Ordered R := by
  induction h with
  | refl => exact ⟨History.all_single hjs, History.ordered_single (hrefl js)⟩
  | @tail w w' hrun hstep ih =>
    obtain ⟨hall, hordered⟩ := ih
    have hinv := reachable_inv hrun
    have hmove := step_move hinv hstep
    generalize w'.toServer = sv' at hmove
    have hpush : ∀ a, P a ∧ R w.sets.current a →
        (w.sets.push a).All P ∧ (w.sets.push a).Ordered R := fun a ha =>
      ⟨hall.push ha.1, hordered.push hrefl htrans ha.2⟩
    cases hmove with
    | none => exact ⟨hall, hordered⟩
    | updated admitted status => exact hpush _ (hupdate _ _ admitted status hall.current)
    | marked t => exact hpush _ (hmark _ t hall.current)
    | @wrote a busy js' writes version author =>
      have ha := hinv.attempt a busy
      have hread : P a.js := by
        rw [ha.js]
        exact hall _ hinv.seenSets
      have hcurrent : w.sets.current = a.seen.acked.getD a.js := by
        have hstored := ha.stored
        rw [version] at hstored
        exact hstored
      have hbase : P (a.seen.acked.getD a.js) := hcurrent ▸ hall.current
      refine hpush js' ?_
      rw [hcurrent]
      exact hwrite _ _ _ _ _ ha.allowed hread hbase writes
    | _ => exact ⟨hall, hordered⟩

/-- The versions of the JobSet an answer adds. -/
theorem Reply.sets {sv sv' : Server} {base base' : ℕ} {r : Request} {x : r.Response}
    (h : Reply sv base r x sv' base') :
    sv'.sets = sv.sets ∨
    (∃ js, r = .updateStatus js ∧ base = sv.sets.top ∧
      sv'.sets = sv.sets.push { sv.sets.current with status := js.status }) ∨
    ∃ js t, r = .deleteJobSet js ∧
      sv'.sets = sv.sets.push { sv.sets.current with deletionTimestamp := some t } := by
  have heffect : Effect sv base r sv' → sv'.sets = sv.sets ∨
      (∃ js, r = .updateStatus js ∧ base = sv.sets.top ∧
        sv'.sets = sv.sets.push { sv.sets.current with status := js.status }) ∨
      ∃ js t, r = .deleteJobSet js ∧
        sv'.sets = sv.sets.push { sv.sets.current with deletionTimestamp := some t } := by
    intro effect
    cases effect with
    | updateStatus js version => exact Or.inr (Or.inl ⟨js, rfl, version, rfl⟩)
    | deleteJobSet js t => exact Or.inr (Or.inr ⟨js, t, rfl, rfl⟩)
    | _ => exact Or.inl rfl
  cases h with
  | outside h x => exact Or.inl rfl
  | failed h => exact Or.inl rfl
  | lost h effect => exact heffect effect
  | accepted effect h => exact heffect effect
  | gone h => exact Or.inl rfl

/-! ## The versions a reconcile has seen -/

/-- From the version that was read to the one that is in memory the spec is the same. -/
def OwnSpec (w : World) : Prop :=
  ∀ a, w.attempt = some a → ∀ x, w.seenSets ≤ x → x ≤ a.base →
    (w.sets.entry x).spec = a.js.spec

theorem step_ownSpec {S : Setting} {w w' : World} (hinv : Inv S w) (h : OwnSpec w)
    (hstep : Step S w w') : OwnSpec w' := by
  have hgrows := History.grows_of_push (step_move hinv hstep).sets
  have hold : ∀ a, w.attempt = some a → ∀ x, w.seenSets ≤ x → x ≤ a.base →
      (w'.sets.entry x).spec = a.js.spec := by
    intro a busy x hx hle
    rw [hgrows.2 x (hle.trans (hinv.attempt a busy).past)]
    exact h a busy x hx hle
  cases hstep with
  | begin idle allowed newer past newerJobs pastJobs listed =>
    intro a busy x hx hle
    cases busy
    rw [le_antisymm hle hx]
    rfl
  | @answer a busy r k next x sv' base' reply =>
    intro a' busy' y hy hle
    cases busy'
    cases reply with
    | outside h x => exact hold a busy y hy hle
    | failed h => exact hold a busy y hy hle
    | lost h effect => exact hold a busy y hy hle
    | accepted effect hx =>
      cases effect with
      | updateStatus js version =>
        change y ≤ w.sets.top + 1 at hle
        rcases Nat.lt_or_ge w.sets.top y with hlt | hle'
        · obtain rfl : y = w.sets.top + 1 := by omega
          change ((w.sets.push _).entry _).spec = _
          rw [History.push_entry_top]
          exact h a busy _ hinv.seenSets version.ge
        · exact hold a busy y hy (version ▸ hle')
      | _ => exact hold a busy y hy hle
    | gone h => exact hold a busy y hy hle
  | stop =>
    intro a busy
    cases busy
  | _ => exact hold

theorem reachable_ownSpec {S : Setting} {js : JobSet} {w : World} (h : Reachable S js w) :
    OwnSpec w := by
  induction h with
  | refl =>
    intro a busy
    cases busy
  | tail hrun hstep ih => exact step_ownSpec (reachable_inv hrun) ih hstep

theorem step_seenSets {S : Setting} {w w' : World} (h : Step S w w') :
    w.seenSets ≤ w'.seenSets := by
  cases h with
  | begin idle allowed newer past newerJobs pastJobs listed => exact newer
  | _ => exact le_rfl

end JobSetOperator.Cluster
