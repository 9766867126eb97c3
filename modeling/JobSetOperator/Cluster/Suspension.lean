import JobSetOperator.Admission.Immutable
import JobSetOperator.Cluster.Blocking
import JobSetOperator.Controller.Halting

/-!
# Scheduling changes while the JobSet is suspended

The webhook lets `spec.scheduling` change while the JobSet is suspended and the
persisted Suspended condition is true. The condition is set behind the Jobs of the
snapshot and cleared behind the Jobs that are resumed, so it may say too much: when the
JobSet is suspended again before it is cleared, or when the snapshot misses a Job. In a
run in which neither happens no Job runs while the scheduling may change.
-/
namespace JobSetOperator.Cluster

open Library Library.Program

/-- The scheduling of the version may change. -/
def Held (js : JobSet) : Prop :=
  jobSetSuspended js = true ∧ CondTrue js.status.conditions .jobSetSuspended

/-- All child Jobs are suspended. -/
def Stopped (sv : Server) : Prop := ∀ job ∈ sv.jobs.current, jobSuspended job = true

/-- The snapshot shows the Job as active and not suspended. -/
def ShownRunning (a : Reading) (name : String) : Prop :=
  ∀ owned, getChildJobs a.env.gates a.js a.jobs = .ok owned →
    ∃ known ∈ owned.active, known.name = name ∧ jobSuspended known = false

/-- A reconcile that has read a suspended JobSet is shown every Job that is not suspended. -/
def SeesRunning (w : World) (a : Attempt) : Prop :=
  jobSetSuspended a.js = true → ∀ job ∈ w.jobs.current, jobSuspended job = false →
    ShownRunning a.toReading job.name

/-- Users suspend the JobSet again only when it is no longer reported as suspended, and nobody
else creates child Jobs that run. -/
structure SuspendsAnew (S : Setting) : Prop where
  admits : ∀ a b, S.admits a b → jobSetSuspended a = false → jobSetSuspended b = true →
    ¬ CondTrue a.status.conditions .jobSetSuspended
  foreign : ∀ job, S.foreign job → jobSuspended job = true

/-! ## The Jobs of a suspended JobSet -/

theorem constructJob_suspend {platform : Platform} {gates : FeatureGates} {js : JobSet}
    {rjob : ReplicatedJob} {jobIdx : ℕ} {job : Job}
    (h : constructJob platform gates js rjob jobIdx = .ok job) :
    jobSuspended job = jobSetSuspended js := by
  unfold constructJob at h
  obtain ⟨individual, -, h⟩ := except_bind_ok h
  cases h
  rfl

/-- A Job that runs behind a move has run before it, when the reconcile in progress has read a
suspended JobSet. -/
theorem Move.running {S : Setting} (hS : SuspendsAnew S) {w : World}
    {authors : ℕ → Option Reading} {sv' : Server} (h : Move S w authors sv')
    (hsuspended : ∀ a, w.attempt = some a → jobSetSuspended a.js = true) {b : Job}
    (hb : b ∈ sv'.jobs.current) (hrunning : jobSuspended b = false) :
    ∃ a ∈ w.jobs.current, a.name = b.name ∧ jobSuspended a = false := by
  have hput : ∀ {a c : Job}, a ∈ w.jobs.current → b ∈ (w.toServer.putJob c).jobs.current →
      c.name = a.name → (jobSuspended c = false → jobSuspended a = false) →
      ∃ a ∈ w.jobs.current, a.name = b.name ∧ jobSuspended a = false := by
    intro a c ha hmem hname hkept
    simp only [Server.putJob, History.push_current] at hmem
    rcases mem_replaceJob hmem with ⟨hold, -⟩ | rfl
    · exact ⟨b, hold, rfl, hrunning⟩
    · exact ⟨a, ha, hname.symm, hkept hrunning⟩
  cases h with
  | none => exact ⟨b, hb, rfl, hrunning⟩
  | updated admitted status => exact ⟨b, hb, rfl, hrunning⟩
  | marked t => exact ⟨b, hb, rfl, hrunning⟩
  | wrote busy writes version author => exact ⟨b, hb, rfl, hrunning⟩
  | @created a busy job creates free =>
    simp only [Server.addJob, History.push_current, List.mem_append, List.mem_singleton] at hb
    rcases hb with hold | rfl
    · exact ⟨b, hold, rfl, hrunning⟩
    · obtain ⟨owned, active, p, q, rjob, created, hr, -, hc, hjob⟩ := creates
      obtain ⟨jobIdx, -, hconstruct, -⟩ := constructJobsFromTemplate_mem hc hjob
      have hsuspend : jobSuspended job = jobSetSuspended q.js := constructJob_suspend hconstruct
      have hq : jobSetSuspended q.js = jobSetSuspended a.js := by
        unfold jobSetSuspended
        rw [hr.spec]
      have hjobRunning : jobSuspended job = false := hrunning
      rw [hsuspend, hq, hsuspended a busy] at hjobRunning
      cases hjobRunning
  | deleted busy mem deletes t => exact hput mem hb rfl id
  | patched busy mem patches name parallelism completions => exact hput mem hb rfl id
  | @cleared a busy job mem q resumable =>
    obtain ⟨owned, active, p, rjob, hr, hoff, -⟩ := resumable
    rw [hsuspended a busy] at hoff
    cases hoff
  | suspended busy mem running off known on =>
    exact hput mem hb rfl fun hfalse => by cases hfalse
  | @resumed a busy job mem q suspended resumable same =>
    obtain ⟨owned, active, p, rjob, hr, hoff, -⟩ := resumable
    rw [hsuspended a busy] at hoff
    cases hoff
  | progressed mem status finished => exact hput mem hb rfl id
  | @appeared job foreign free =>
    simp only [Server.addJob, History.push_current, List.mem_append, List.mem_singleton] at hb
    rcases hb with hold | rfl
    · exact ⟨b, hold, rfl, hrunning⟩
    · have hsuspend : jobSuspended job = true := hS.foreign job foreign
      have hjobRunning : jobSuspended job = false := hrunning
      rw [hsuspend] at hjobRunning
      cases hjobRunning
  | removed mem removable =>
    simp only [Server.dropJob, History.push_current] at hb
    exact ⟨b, List.mem_of_mem_filter hb, rfl, hrunning⟩

theorem Move.stopped {S : Setting} (hS : SuspendsAnew S) {w : World}
    {authors : ℕ → Option Reading} {sv' : Server} (h : Move S w authors sv')
    (hsuspended : ∀ a, w.attempt = some a → jobSetSuspended a.js = true)
    (hstopped : Stopped w.toServer) : Stopped sv' := by
  intro b hb
  by_contra hrunning
  obtain ⟨a, ha, -, hold⟩ := h.running hS hsuspended hb (by simpa using hrunning)
  rw [hstopped a ha] at hold
  cases hold

/-! ## The reconcile of a suspended JobSet -/

/-- The reconcile has read a suspended JobSet. Every Job that runs was shown to it as such, and
no answer has said yet that it is suspended. -/
structure Halting (sv : Server) (a : Attempt) (names : Set String) : Prop where
  follows : Halts a.env a.js a.jobs (fun _ _ => True) names a.rest
  shown : ∀ job ∈ sv.jobs.current, jobSuspended job = false → ShownRunning a.toReading job.name
  unconfirmed : ∀ job ∈ sv.jobs.current, jobSuspended job = false → job.name ∉ names

/-- The Jobs that run are among those that ran before. -/
def RunsOn (sv sv' : Server) : Prop :=
  ∀ b ∈ sv'.jobs.current, jobSuspended b = false →
    ∃ a ∈ sv.jobs.current, a.name = b.name ∧ jobSuspended a = false

theorem Halting.moved {sv sv' : Server} {a : Attempt} {names : Set String}
    (h : Halting sv a names) (hruns : RunsOn sv sv') : Halting sv' a names := by
  refine ⟨h.follows, fun b hb hrunning => ?_, fun b hb hrunning => ?_⟩
  · obtain ⟨job, hjob, hname, hold⟩ := hruns b hb hrunning
    exact hname ▸ h.shown job hjob hold
  · obtain ⟨job, hjob, hname, hold⟩ := hruns b hb hrunning
    exact hname ▸ h.unconfirmed job hjob hold

theorem confirmed_outside {names : Set String} {r : Request} (h : Outside r) (x : r.Response) :
    confirmed names r x = names := by
  cases r <;> first | rfl | exact h.elim

theorem confirmed_failed {names : Set String} {r : Request} {x : r.Response} (h : Failed r x) :
    confirmed names r x = names := by
  cases r <;> first | rfl | (cases x <;> first | rfl | exact h.elim)

/-- An accepted call confirms no Job that runs. -/
theorem unconfirmed_accepted {sv sv' : Server} {base : ℕ} {r : Request} {x : r.Response}
    {names : Set String} (hok : JobsOk sv') (effect : Effect sv base r sv') (hx : Accepted sv' r x)
    {b : Job} (hb : b ∈ sv'.jobs.current) (hrunning : jobSuspended b = false)
    (hold : b.name ∉ names) : b.name ∉ confirmed names r x := by
  cases effect with
  | @updateJob job mem sent name version =>
    cases x with
    | error e => exact hx.elim
    | ok _ =>
      rintro (hmem | ⟨hsent, hname⟩)
      · exact hold hmem
      · simp only [Server.putJob, History.push_current] at hb
        rcases mem_replaceJob hb with ⟨-, hne⟩ | rfl
        · exact hne (hname.trans name)
        · have hspec : jobSuspended sent = false := hrunning
          rw [hsent] at hspec
          cases hspec
  | @patchScaling job mem scaled name parallelism completions =>
    cases x with
    | error e => exact hx.elim
    | ok stored =>
      obtain ⟨hstored, hsame⟩ := hx
      rintro (hmem | hother | ⟨hsuspended, hname⟩)
      · exact hold hmem
      · exact hother hsame
      · obtain rfl := eq_of_key (hok.names _ le_rfl) hb hstored (hname.trans hsame.symm)
        rw [hsuspended] at hrunning
        cases hrunning
  | _ => exact hold

/-- The reconcile goes on behind an answer. -/
theorem Halting.answered {sv sv' : Server} {a : Attempt} {names : Set String}
    (h : Halting sv a names) (hruns : RunsOn sv sv') (hok : JobsOk sv') {r : Request}
    {k : r.Response → Prog ℤ} (hnext : a.rest = .call r k) {x : r.Response} {base : ℕ}
    (reply : Reply sv a.base r x sv' base) :
    Halting sv' { a with base := base, seen := a.seen.next r x, rest := k x }
      (confirmed names r x) := by
  have hfollows := h.follows
  rw [hnext] at hfollows
  have hmoved := h.moved hruns
  refine ⟨hfollows.2 x, hmoved.shown, fun b hb hrunning => ?_⟩
  have hold := hmoved.unconfirmed b hb hrunning
  cases reply with
  | outside h => rwa [confirmed_outside h]
  | failed h => rwa [confirmed_failed h]
  | lost h effect => rwa [confirmed_failed h]
  | accepted effect h => exact unconfirmed_accepted hok effect h hb hrunning hold
  | gone h => exact hold

/-- A reconcile that reports its JobSet as suspended has been told so of every Job. -/
theorem Halting.stopped {sv : Server} {a : Attempt} {names : Set String} (h : Halting sv a names)
    (hsnapshot : SnapshotHalted a.env a.js a.jobs names) : Stopped sv := by
  intro job hjob
  by_contra hsuspended
  have hrunning : jobSuspended job = false := by simpa using hsuspended
  obtain ⟨owned, hsorted, hhalted⟩ := hsnapshot
  obtain ⟨known, hknown, hname, hshown⟩ := h.shown job hjob hrunning owned hsorted
  rcases hhalted known hknown with hfalse | hconfirmed
  · rw [hshown] at hfalse
    cases hfalse
  · exact h.unconfirmed job hjob hrunning (hname ▸ hconfirmed)

/-! ## The invariant -/

/-- While a version that reconciles may still read can change its scheduling, no Job runs, and
all they may read until then is suspended. -/
structure HoldsStill (w : World) : Prop where
  held : ∀ u, w.seenSets ≤ u → u ≤ w.sets.top → Held (w.sets.entry u) → Stopped w.toServer ∧
    ∀ x, w.seenSets ≤ x → x ≤ u → jobSetSuspended (w.sets.entry x) = true
  halting : ∀ a, w.attempt = some a → jobSetSuspended a.js = true →
    ∃ names, Halting w.toServer a names

/-- The reconcile in progress has read a suspended JobSet. -/
theorem HoldsStill.suspended {S : Setting} {w : World} (hinv : Inv S w) {u : ℕ}
    (hseen : w.seenSets ≤ u)
    (hall : ∀ x, w.seenSets ≤ x → x ≤ u → jobSetSuspended (w.sets.entry x) = true) :
    ∀ a, w.attempt = some a → jobSetSuspended a.js = true := by
  intro a busy
  rw [(hinv.attempt a busy).js]
  exact hall _ le_rfl hseen

/-- A version that keeps the status and stays suspended, or is suspended anew. -/
theorem HoldsStill.next_of_status {S : Setting} (hS : SuspendsAnew S) {w : World}
    (h : HoldsStill w) (hseen : w.seenSets ≤ w.sets.top) {js : JobSet}
    (hstatus : js.status = w.sets.current.status)
    (hstays : S.admits w.sets.current js ∨ js.spec = w.sets.current.spec) (hheld : Held js) :
    Stopped w.toServer ∧
      ∀ x, w.seenSets ≤ x → x ≤ w.sets.top → jobSetSuspended (w.sets.entry x) = true := by
  obtain ⟨hsuspended, hreported⟩ := hheld
  rw [hstatus] at hreported
  apply h.held _ hseen le_rfl
  refine ⟨?_, hreported⟩
  rcases hstays with hadmits | hspec
  · by_contra hoff
    exact hS.admits _ _ hadmits ((Bool.not_eq_true _).mp hoff) hsuspended hreported
  · unfold jobSetSuspended at hsuspended ⊢
    rwa [hspec] at hsuspended

/-- A version that the reconcile in progress writes. -/
theorem HoldsStill.next_of_write {S : Setting} {w : World} (hinv : Inv S w) (hown : OwnSpec w)
    (h : HoldsStill w) {a : Attempt} (busy : w.attempt = some a) {written : JobSet}
    {k : Outcome → Prog ℤ} (hnext : a.rest = .call (.updateStatus written) k) (version : a.base = w.sets.top)
    (hheld : Held { w.sets.current with status := written.status }) :
    Stopped w.toServer ∧
      ∀ x, w.seenSets ≤ x → x ≤ w.sets.top → jobSetSuspended (w.sets.entry x) = true := by
  obtain ⟨hsuspended, hreported⟩ := hheld
  have hspecs : ∀ x, w.seenSets ≤ x → x ≤ w.sets.top → (w.sets.entry x).spec = a.js.spec :=
    fun x hx hle => hown a busy x hx (version ▸ hle)
  have ha : jobSetSuspended a.js = true := by
    have hspec : w.sets.current.spec = a.js.spec := hspecs _ hinv.seenSets le_rfl
    unfold jobSetSuspended at hsuspended ⊢
    rwa [← hspec]
  have hall : ∀ x, w.seenSets ≤ x → x ≤ w.sets.top →
      jobSetSuspended (w.sets.entry x) = true := by
    intro x hx hle
    unfold jobSetSuspended at ha ⊢
    rwa [hspecs x hx hle]
  refine ⟨?_, hall⟩
  obtain ⟨names, hhalting⟩ := h.halting a busy ha
  have hfollows := hhalting.follows
  rw [hnext] at hfollows
  rcases hfollows.1 with hkept | hsnapshot
  · -- what was read is reported as suspended already
    have hread : Held (w.sets.entry w.seenSets) := by
      rw [← (hinv.attempt a busy).js]
      exact ⟨ha, hkept hreported⟩
    exact (h.held _ le_rfl hinv.seenSets hread).1
  · exact hhalting.stopped hsnapshot

/-- The next version: when its scheduling may change, the Jobs are stopped already. -/
theorem step_next {S : Setting} (hS : SuspendsAnew S) {w w' : World} (hinv : Inv S w)
    (hown : OwnSpec w) (h : HoldsStill w) (hstep : Step S w w') {js : JobSet} (hsets : w'.sets = w.sets.push js)
    (hheld : Held js) : Stopped w.toServer ∧
      ∀ x, w.seenSets ≤ x → x ≤ w.sets.top → jobSetSuspended (w.sets.entry x) = true := by
  have hpushed : ∀ {js' : JobSet}, w.sets.push js' = w.sets.push js → js' = js := by
    intro js' hp
    have hcurrent := congrArg History.current hp
    rwa [History.push_current, History.push_current] at hcurrent
  have hsame : ¬ w.sets = w.sets.push js := by
    intro he
    have htop := congrArg History.top he
    simp at htop
  cases hstep with
  | userUpdate admitted status =>
    obtain rfl := hpushed hsets
    exact h.next_of_status hS hinv.seenSets status (Or.inl admitted) hheld
  | @answer a busy r k next x sv' base' reply =>
    rcases reply.sets with hold | ⟨written, rfl, version, hwritten⟩ | ⟨written, t, rfl, hmarked⟩
    · exact absurd (hold.symm.trans hsets) hsame
    · obtain rfl := hpushed (hwritten.symm.trans hsets)
      exact h.next_of_write hinv hown busy next version hheld
    · obtain rfl := hpushed (hmarked.symm.trans hsets)
      exact h.next_of_status hS hinv.seenSets rfl (Or.inr rfl) hheld
  | _ => exact absurd hsets hsame

theorem step_held {S : Setting} (hS : SuspendsAnew S) {w w' : World} (hinv : Inv S w)
    (hown : OwnSpec w) (h : HoldsStill w) (hstep : Step S w w') :
    ∀ u, w'.seenSets ≤ u → u ≤ w'.sets.top → Held (w'.sets.entry u) → Stopped w'.toServer ∧
        ∀ x, w'.seenSets ≤ x → x ≤ u → jobSetSuspended (w'.sets.entry x) = true := by
  intro u hseen hu hheld
  have hmove := step_move hinv hstep
  have hgrows := History.grows_of_push hmove.sets
  have hseen' := (step_seenSets hstep).trans hseen
  by_cases hold : u ≤ w.sets.top
  · rw [hgrows.2 u hold] at hheld
    obtain ⟨hstopped, hall⟩ := h.held u hseen' hold hheld
    refine ⟨hmove.stopped hS (HoldsStill.suspended hinv hseen' hall) hstopped, fun x hx hle => ?_⟩
    rw [hgrows.2 x (hle.trans hold)]
    exact hall x ((step_seenSets hstep).trans hx) hle
  · rcases hmove.sets with hsame | ⟨js, hpush⟩
    · rw [hsame] at hu
      exact absurd hu hold
    · rw [hpush] at hu hheld ⊢
      obtain ⟨hle, -⟩ | ⟨rfl, hnew⟩ := History.push_entry_cases _ _ hu
      · exact absurd hle hold
      · rw [hnew] at hheld
        obtain ⟨hstopped, hall⟩ := step_next hS hinv hown h hstep hpush hheld
        refine ⟨hmove.stopped hS (HoldsStill.suspended hinv hinv.seenSets hall) hstopped,
          fun x hx hle => ?_⟩
        rcases Nat.lt_or_ge w.sets.top x with hlt | hxold
        · obtain rfl : x = w.sets.top + 1 := by omega
          rw [hnew]
          exact hheld.1
        · rw [History.push_entry_of_le _ _ hxold]
          exact hall x ((step_seenSets hstep).trans hx) hxold

theorem step_halting {S : Setting} (hS : SuspendsAnew S) {w w' : World} (hinv : Inv S w)
    (h : HoldsStill w) (hstep : GuardedStep S SeesRunning w w') :
    ∀ a, w'.attempt = some a → jobSetSuspended a.js = true →
      ∃ names, Halting w'.toServer a names := by
  obtain ⟨hstep, hguard⟩ := hstep
  have hmove := step_move hinv hstep
  have hok := hmove.jobsOk hinv.jobs
  have hruns : ∀ a, w.attempt = some a → jobSetSuspended a.js = true →
      RunsOn w.toServer w'.toServer := by
    intro a busy hsuspended b hb hrunning
    refine hmove.running hS (fun a' busy' => ?_) hb hrunning
    rw [busy] at busy'
    cases busy'
    exact hsuspended
  have hmoved : ∀ a, w.attempt = some a → jobSetSuspended a.js = true →
      ∃ names, Halting w'.toServer a names := by
    intro a busy hsuspended
    obtain ⟨names, hhalting⟩ := h.halting a busy hsuspended
    exact ⟨names, hhalting.moved (hruns a busy hsuspended)⟩
  cases hstep with
  | begin idle allowed newer past newerJobs pastJobs listed =>
    intro a busy hsuspended
    have hsees := hguard idle a busy hsuspended
    cases busy
    exact ⟨∅, reconcileRequest_halts hsuspended, hsees, fun _ _ _ => Set.notMem_empty _⟩
  | @answer a busy r k next x sv' base' reply =>
    intro a' busy' hsuspended
    cases busy'
    obtain ⟨names, hhalting⟩ := h.halting a busy hsuspended
    exact ⟨_, hhalting.answered (hruns a busy hsuspended) hok next reply⟩
  | stop =>
    intro a busy
    cases busy
  | _ => exact hmoved

/-- What a new JobSet stores about its scheduling holds: it has no Jobs. -/
theorem holdsStill_initial (js : JobSet) : HoldsStill (World.initial js) where
  held u _ hu hheld := by
    constructor
    · intro job hjob
      cases hjob
    · intro x _ hx
      exact hheld.1
  halting a busy := by cases busy

/-- One step keeps the invariant. -/
theorem step_holdsStill {S : Setting} (hS : SuspendsAnew S) {w w' : World} (hinv : Inv S w)
    (hown : OwnSpec w) (h : HoldsStill w) (hstep : GuardedStep S SeesRunning w w') :
    HoldsStill w' where
  held := step_held hS hinv hown h hstep.1
  halting := step_halting hS hinv h hstep

theorem guardedRun_holdsStill {S : Setting} (hS : SuspendsAnew S) {js : JobSet} {w : World}
    (h : GuardedRun S SeesRunning js w) : HoldsStill w := by
  induction h with
  | refl => exact holdsStill_initial js
  | tail hrun hstep ih =>
    have hreach := GuardedRun.reachable hrun
    exact step_holdsStill hS (reachable_inv hreach) (reachable_ownSpec hreach) ih hstep

/-! ## Scheduling changes -/

theorem condTrue_of_isStatusConditionTrue {conditions : List Condition}
    {t : JobSetConditionType} (h : isStatusConditionTrue conditions t = true) :
    CondTrue conditions t := by
  unfold isStatusConditionTrue at h
  cases hfind : conditions.find? fun c => c.type = t with
  | none =>
    rw [hfind] at h
    cases h
  | some c =>
    rw [hfind] at h
    have htype : c.type = t := by simpa using List.find?_some hfind
    exact ⟨c, List.mem_of_find?_eq_some hfind, htype, by simpa using h⟩

/-- The webhook admits a change of `spec.scheduling` of a JobSet that is held only. -/
theorem held_of_scheduling {webhook : Webhook} {old new : JobSet}
    (hvalid : validateUpdate webhook old new = [])
    (hchanged : new.spec.scheduling ≠ old.spec.scheduling) : Held old := by
  unfold validateUpdate at hvalid
  simp only [List.append_eq_nil_iff] at hvalid
  have hscheduling := hvalid.2
  unfold validateSchedulingUpdate at hscheduling
  rw [if_neg hchanged] at hscheduling
  have hstays : staysSuspended old new = true := by
    by_contra hrunning
    rw [if_pos (by simpa using hrunning)] at hscheduling
    cases hscheduling
  unfold staysSuspended at hstays
  simp only [Bool.and_eq_true] at hstays
  obtain ⟨⟨hsuspended, -⟩, hreported⟩ := hstays
  exact ⟨hsuspended, condTrue_of_isStatusConditionTrue hreported⟩

/-- In a run in which users suspend the JobSet only when it is not reported as suspended, and
every reconcile that reads a suspended JobSet is shown the Jobs that run, a change of
`spec.scheduling` is admitted only while all child Jobs are suspended. -/
theorem scheduling_changes_stopped {S : Setting} (hS : SuspendsAnew S) {js : JobSet} {w : World}
    (h : GuardedRun S SeesRunning js w) {webhook : Webhook} {new : JobSet}
    (hvalid : validateUpdate webhook w.sets.current new = [])
    (hchanged : new.spec.scheduling ≠ w.sets.current.spec.scheduling) :
    ∀ job ∈ w.jobs.current, jobSuspended job = true := by
  have hinv := reachable_inv h.reachable
  have hstill := guardedRun_holdsStill hS h
  exact (hstill.held w.sets.top hinv.seenSets le_rfl (held_of_scheduling hvalid hchanged)).1

/-! ## A JobSet that is suspended twice -/

/-- A suspended JobSet with one Job. -/
def heldSet : JobSet :=
  let js := plainSet [.single "w" 1] 0 .recreate
  { js with spec := { js.spec with suspend := some true } }

/-- The JobSet with its only ReplicatedJob as a scheduling group. -/
def withGroup (js : JobSet) : JobSet :=
  { js with spec := { js.spec with
      scheduling := some ⟨none, none, none, [⟨["w"], none, none, none, none⟩]⟩ } }

/-- A controller with the gates of the webhook. -/
def schedulingEnv : Env := ⟨trainWebhook.platform, trainWebhook.gates⟩

/-- The Job is created and the JobSet is reported as suspended. -/
def holdOnce : List Event := [.begin 0 0, .answer 0, .answer 0, .stop]

/-- The scheduling of the JobSet may be set behind the first reconcile. -/
theorem scheduling_changes_stopped_heldSet :
    ∃ w, GuardedRun (plainSetting schedulingEnv) SeesRunning heldSet w ∧
      w.jobs.current.length = 1 ∧
      validateUpdate trainWebhook w.sets.current (withGroup w.sets.current) = [] ∧
      ∀ job ∈ w.jobs.current, jobSuspended job = true := by
  have hcheck : ∀ w a, (fun (w : World) (_ : Attempt) => decide (w.jobs.current = [])) w a = true →
      SeesRunning w a := by
    intro w a hnone _ job hjob
    rw [of_decide_eq_true hnone] at hjob
    cases hjob
  have hS : SuspendsAnew (plainSetting schedulingEnv) := by
    constructor
    · intro a b hsame hoff hon
      unfold jobSetSuspended at hoff hon
      rw [hsame, hoff] at hon
      cases hon
    · exact fun _ hforeign => hforeign.elim
  obtain ⟨w, hw, hp⟩ := run_guarded (S := plainSetting schedulingEnv)
    (p := fun w => w.jobs.current.length = 1 ∧
      validateUpdate trainWebhook w.sets.current (withGroup w.sets.current) = [] ∧
      (withGroup w.sets.current).spec.scheduling ≠ w.sets.current.spec.scheduling)
    rfl hcheck heldSet holdOnce (by simp [holdOnce, Event.Permitted]) (by decide +kernel)
  obtain ⟨hone, hvalid, hchanged⟩ := of_decide_eq_true hp
  exact ⟨w, hw, hone, hvalid, scheduling_changes_stopped hS hw hvalid hchanged⟩

/-- The JobSet is resumed, and its Job with it, but the status write is refused. Then it is
suspended again. -/
def suspendedTwice : List Event :=
  holdOnce ++ [.suspend false, .begin 2 1, .answer 0, .refuse 0, .stop, .suspend true]

/-- The stale condition lets the scheduling change while the Job runs. All versions were
admitted by the webhook. -/
theorem scheduling_changes_running :
    validateCreate trainWebhook heldSet = .ok [] ∧ schemaValid heldSet.spec = true ∧
    ∃ w, Reachable (suspendSetting schedulingEnv) heldSet w ∧
      (∀ i < w.sets.top, validateUpdate trainWebhook (w.sets.entry i) (w.sets.entry (i + 1)) = []) ∧
      validateUpdate trainWebhook w.sets.current (withGroup w.sets.current) = [] ∧
      (withGroup w.sets.current).spec.scheduling ≠ w.sets.current.spec.scheduling ∧
      ∃ job ∈ w.jobs.current, jobSuspended job = false := by
  refine ⟨by decide +kernel, by decide +kernel, ?_⟩
  obtain ⟨w, hw, hp⟩ := run_reachable (S := suspendSetting schedulingEnv)
    (p := fun w =>
      (∀ i < w.sets.top, validateUpdate trainWebhook (w.sets.entry i) (w.sets.entry (i + 1)) = []) ∧
      validateUpdate trainWebhook w.sets.current (withGroup w.sets.current) = [] ∧
      (withGroup w.sets.current).spec.scheduling ≠ w.sets.current.spec.scheduling ∧
      ∃ job ∈ w.jobs.current, jobSuspended job = false)
    rfl heldSet suspendedTwice
    (by simp [suspendedTwice, holdOnce, Event.Permitted, suspendSetting]) (by decide +kernel)
  exact ⟨w, hw, of_decide_eq_true hp⟩

end JobSetOperator.Cluster
