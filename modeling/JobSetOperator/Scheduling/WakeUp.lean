import JobSetOperator.Admission.Checked
import JobSetOperator.Controller.Settling
import JobSetOperator.Controller.TimeToLive
import JobSetOperator.Controller.Unexpired
import JobSetOperator.Scheduling.AtRest

/-!
# The wake-up for the active deadline

A reconcile of a JobSet with a deadline ahead has to be followed by another one in
time. It asks for it with its result, or it has written an object the controller
watches. The reconcile is followed along the runs that write nothing: their state
changes in the clock only, so each part is described by the conditions under which
it goes through. What is left are the two ends that wait for objects being deleted.
-/
namespace JobSetOperator

open Library Library.Program

/-! ## One reconcile and the objects the controller watches -/

/-- The cluster during a reconcile: the time, the JobSet as it is stored, the scheduling
objects, and whether the reconcile has written an object the controller watches. -/
structure Watched where
  clock : Time
  saved : JobSet
  objects : SchedulingStore
  wrote : Bool

/-- The outcome of a write is noted. -/
def Watched.note {α : Type} (w : Watched) (outcome : Except String α) : Watched :=
  { w with wrote := w.wrote || outcome.isOk }

/-- A part of the reconcile that works on the scheduling objects. -/
def Watched.Runs {α : Type} (js : JobSet) (program : JobSetScheduling → SchedulingProg α)
    (w : Watched) (answer : Except String α) (w' : Watched) : Prop :=
  ∃ scheduling t objects wrote, js.spec.scheduling = some scheduling ∧
    Program.Runs observes (w.objects, w.wrote) (program scheduling) t answer (objects, wrote) ∧
    w' = { w with objects := objects, wrote := wrote }

section Attends

variable (env : Env) (lib : BuilderLibrary) (js : JobSet)

/-- What the cluster answers. Claims and events are not watched. -/
def attends (w : Watched) : (r : Request) → r.Response → Watched → Prop
  | .now, now, w' => w.clock ≤ (now : Time) ∧ w' = { w with clock := now }
  | .listPods, _, w' => w' = w
  | .getService _, _, w' => w' = w
  | .createClaim _, _, w' => w' = w
  | .emitEvent _, _, w' => w' = w
  | .countMetric _, _, w' => w' = w
  | .createService _, outcome, w' => w' = w.note outcome
  | .updateServicePorts _, outcome, w' => w' = w.note outcome
  | .createJob _, outcome, w' => w' = w.note outcome
  | .deleteJob _, outcome, w' => w' = w.note outcome
  | .patchScaling _, answer, w' => w' = w.note answer
  | .updateJobStatus _, answer, w' => w' = w.note answer
  | .updateJob _, outcome, w' => w' = w.note outcome
  | .deleteJobSet _, outcome, w' => w' = w.note outcome
  | .updateStatus js', outcome, w' =>
    w' = { w.note outcome with saved := if Except.isOk outcome then js' else w.saved }
  | .deleteSchedulingObjects, outcome, w' =>
    w.Runs js (fun _ => deleteSchedulingObjects env.platform js) outcome w'
  | .reconcileSchedulingObjects, outcome, w' =>
    w.Runs js (reconcileSchedulingObjects env.platform lib js) outcome w'
  | .schedulingObjectsReady, ready, w' =>
    w.Runs js (schedulingObjectsReady env.platform lib js) ready w'

/-- The time left before the deadline this controller enforces. It leaves a JobSet alone
that is being deleted or that another controller manages. -/
def enforcedRemaining (now : Time) (js : JobSet) : Option ℤ :=
  if jobSetMarkedForDeletion js || (managedByExternalController js).isSome then none
  else activeDeadlineRemaining env.gates now js

/-- The JobSet has not finished and has a deadline ahead. -/
def DeadlineAhead (now : Time) (js : JobSet) : Prop :=
  jobSetFinished js = false ∧ ∃ remaining, enforcedRemaining env now js = some remaining ∧
    0 < remaining

/-- A reconcile that starts at the given time and leaves a deadline ahead has written, or
it asks to be repeated after the time that was left at an instant of the reconcile. -/
def KeepsWakeUp (jobs : List Job) (objects : SchedulingStore) (start : Time) : Prop :=
  ∀ t requeueAfter w,
    Program.Runs (attends env lib js) ⟨start, js, objects, false⟩ (reconcileRequest env js jobs) t
      (.ok requeueAfter) w →
    ∀ now, w.clock ≤ now → DeadlineAhead env now w.saved →
      w.wrote = true ∨
      (0 < requeueAfter ∧ ∃ instant, start ≤ instant ∧ instant ≤ w.clock ∧
        enforcedRemaining env instant w.saved = some requeueAfter)

end Attends

/-! ## Runs that write nothing -/

/-- What holds between the ends of a run. -/
structure Watched.Later (w w' : Watched) : Prop where
  clock : w.clock ≤ w'.clock
  unwritten (h : w'.wrote = false) : w.wrote = false ∧ w'.saved = w.saved

theorem Watched.Later.refl (w : Watched) : w.Later w := ⟨le_rfl, fun h => ⟨h, rfl⟩⟩

theorem Watched.Later.trans {w mid w' : Watched} (h : w.Later mid) (h' : mid.Later w') :
    w.Later w' where
  clock := h.clock.trans h'.clock
  unwritten hw := by
    obtain ⟨hmid, hsaved'⟩ := h'.unwritten hw
    obtain ⟨hfirst, hsaved⟩ := h.unwritten hmid
    exact ⟨hfirst, hsaved'.trans hsaved⟩

theorem Watched.later_note {α : Type} (w : Watched) (outcome : Except String α) :
    w.Later (w.note outcome) where
  clock := le_rfl
  unwritten h := ⟨(Bool.or_eq_false_iff.mp h).1, rfl⟩

theorem Watched.Runs.later {α : Type} {js : JobSet} {program : JobSetScheduling → SchedulingProg α}
    {w w' : Watched} {answer : Except String α} (h : w.Runs js program answer w') : w.Later w' := by
  obtain ⟨scheduling, t, objects, wrote, -, hrun, rfl⟩ := h
  refine ⟨le_rfl, fun hw => ⟨?_, rfl⟩⟩
  exact observed_of_runs hrun hw

section Unwritten

variable {env : Env} {lib : BuilderLibrary} {js : JobSet} {w w' : Watched} {α β : Type}

theorem later_of_attends {r : Request} {x : r.Response} (h : attends env lib js w r x w') :
    w.Later w' := by
  cases r with
  | now =>
    obtain ⟨hle, rfl⟩ := h
    exact ⟨hle, fun hw => ⟨hw, rfl⟩⟩
  | updateStatus js' =>
    obtain rfl := h
    refine ⟨le_rfl, fun hw => ?_⟩
    obtain ⟨hfirst, hfailed⟩ := Bool.or_eq_false_iff.mp hw
    exact ⟨hfirst, by rw [if_neg (by simp [hfailed])]⟩
  | deleteSchedulingObjects => exact Watched.Runs.later h
  | reconcileSchedulingObjects => exact Watched.Runs.later h
  | schedulingObjectsReady => exact Watched.Runs.later h
  | listPods | getService | createClaim | emitEvent | countMetric =>
    obtain rfl := h
    exact .refl w'
  | createService | updateServicePorts | createJob | deleteJob | patchScaling | updateJobStatus
  | updateJob | deleteJobSet =>
    obtain rfl := h
    exact w.later_note _

theorem later_of_reaches {p : Prog α} {a : α} (h : Reaches (attends env lib js) w p a w') :
    w.Later w' := by
  obtain ⟨t, hrun⟩ := reaches_iff_runs.mp h
  exact Runs.preserves (R := Watched.Later) .refl .trans later_of_attends hrun

/-- A run that writes nothing writes nothing in its first part. -/
theorem attended_bind {p : Prog α} {f : α → Prog β} {b : β} (hw : w'.wrote = false) :
    Reaches (attends env lib js) w (p >>= f) b w' ↔ ∃ a mid, mid.wrote = false ∧
      Reaches (attends env lib js) w p a mid ∧ Reaches (attends env lib js) mid (f a) b w' := by
  rw [reaches_bind]
  constructor
  · rintro ⟨a, mid, hp, hf⟩
    exact ⟨a, mid, ((later_of_reaches hf).unwritten hw).1, hp, hf⟩
  · rintro ⟨a, mid, -, hp, hf⟩
    exact ⟨a, mid, hp, hf⟩

theorem attended_liftExcept {x : Except String α} {a : α} :
    Reaches (attends env lib js) w (liftExcept x) a w' ↔ x = .ok a ∧ w' = w := by
  cases x with
  | ok b => simp [liftExcept, eq_comm]
  | error e => simp [liftExcept]

theorem attended_joinErrors {errs : List String} :
    Reaches (attends env lib js) w (joinErrors errs) () w' ↔ errs = [] ∧ w' = w := by
  unfold joinErrors
  split_ifs with h
  · simp [h]
  · simp [h]

theorem attended_readClock {f : Time → Prog β} {b : β} :
    Reaches (attends env lib js) w (readClock >>= f) b w' ↔ ∃ now, w.clock ≤ now ∧
      Reaches (attends env lib js) { w with clock := now } (f now) b w' := by
  constructor
  · rintro ⟨now, mid, ⟨hle, rfl⟩, h⟩
    exact ⟨now, hle, h⟩
  · rintro ⟨now, hle, h⟩
    exact ⟨now, _, ⟨hle, rfl⟩, h⟩

/-- A write that is acknowledged shows in the end. -/
theorem not_attended_note {outcome : Except String α} (hw : w'.wrote = false)
    (h : (w.note outcome).Later w') : ∃ e, outcome = .error e := by
  cases outcome with
  | error e => exact ⟨e, rfl⟩
  | ok a =>
    have := (h.unwritten hw).1
    simp [Watched.note, Except.isOk, Except.toBool] at this

/-! ## Deleting Jobs and writing the status -/

theorem attended_deleteJobsLoop {jobs : List Job} (hw : w'.wrote = false) :
    Reaches (attends env lib js) w (deleteJobsLoop jobs) [] w' ↔
      (∀ job ∈ jobs, job.deletionTimestamp.isSome = true) ∧ w' = w := by
  induction jobs with
  | nil => simp [deleteJobsLoop]
  | cons job rest ih =>
    unfold deleteJobsLoop
    split_ifs with hterminating
    · simp [ih, hterminating]
    · simp only [List.forall_mem_cons, hterminating, Bool.false_eq_true, false_and, iff_false]
      intro h
      obtain ⟨outcome, mid, rfl, hrest⟩ := reaches_ask_bind.mp h
      obtain ⟨e, rfl⟩ := not_attended_note hw (later_of_reaches hrest)
      obtain ⟨errs, mid, -, -, hend, -⟩ := (attended_bind hw).mp hrest
      cases hend

/-- Nothing is deleted exactly when every Job is being deleted already. -/
theorem attended_deleteJobs {jobs : List Job} (hw : w'.wrote = false) :
    Reaches (attends env lib js) w (deleteJobs jobs) () w' ↔
      (∀ job ∈ jobs, job.deletionTimestamp.isSome = true) ∧ w' = w := by
  unfold deleteJobs
  rw [attended_bind hw]
  constructor
  · rintro ⟨errs, mid, -, hloop, hjoin⟩
    obtain ⟨rfl, rfl⟩ := attended_joinErrors.mp hjoin
    exact (attended_deleteJobsLoop hw).mp hloop
  · rintro ⟨hall, rfl⟩
    exact ⟨[], w', hw, (attended_deleteJobsLoop hw).mpr ⟨hall, rfl⟩,
      attended_joinErrors.mpr ⟨rfl, rfl⟩⟩

theorem attended_countMetrics {metrics : List Metric} :
    Reaches (attends env lib js) w (countMetrics metrics) () w' ↔ w' = w := by
  induction metrics with
  | nil => simp [countMetrics]
  | cons metric rest ih =>
    unfold countMetrics
    constructor
    · rintro ⟨_, mid, rfl, h⟩
      exact ih.mp h
    · rintro rfl
      exact ⟨(), w', rfl, ih.mpr rfl⟩

/-- The status is not written exactly when no update was asked for. -/
theorem attended_updateJobSetStatus {p : Pass} (hw : w'.wrote = false) :
    Reaches (attends env lib js) w (updateJobSetStatus p) () w' ↔
      p.opts.shouldUpdate = false ∧ w' = w := by
  unfold updateJobSetStatus
  rw [attended_bind hw]
  constructor
  · rintro ⟨_, mid, -, hcount, h⟩
    obtain rfl := attended_countMetrics.mp hcount
    by_cases hupdate : p.opts.shouldUpdate = true
    · rw [if_pos hupdate] at h
      obtain ⟨outcome, mid', rfl, hrest⟩ := reaches_ask_bind.mp h
      have hlater := later_of_reaches hrest
      obtain ⟨_, mid', -, hlift, -⟩ := (attended_bind hw).mp hrest
      obtain ⟨rfl, -⟩ := attended_liftExcept.mp hlift
      cases (hlater.unwritten hw).1.symm.trans (Bool.or_true _)
    · rw [if_neg hupdate] at h
      exact ⟨by simpa using hupdate, h.2⟩
  · rintro ⟨hupdate, rfl⟩
    refine ⟨(), w', hw, attended_countMetrics.mpr rfl, ?_⟩
    rw [if_neg (by simp [hupdate])]
    exact ⟨rfl, rfl⟩

/-! ## Services, claims and scheduling objects -/

/-- Nothing is written for the headless service exactly when it is as it should be; the
cluster may answer so. -/
theorem attended_createHeadlessSvc {js' : JobSet} (hw : w'.wrote = false) :
    Reaches (attends env lib js) w (createHeadlessSvcIfNecessary js') () w' ↔ w' = w := by
  unfold createHeadlessSvcIfNecessary
  split_ifs
  · simp
  constructor
  · intro h
    obtain ⟨lookup, mid, rfl, hlookup⟩ := reaches_ask_bind.mp h
    cases lookup with
    | failed err => exact hlookup.elim
    | notFound =>
      obtain ⟨outcome, mid', rfl, hrest⟩ := reaches_ask_bind.mp hlookup
      obtain ⟨e, rfl⟩ := not_attended_note hw (later_of_reaches hrest)
      obtain ⟨_, mid', -, hfail⟩ := reaches_ask_bind.mp hrest
      exact hfail.elim
    | found controlled ports =>
      dsimp only at hlookup
      split_ifs at hlookup
      · obtain ⟨outcome, mid', rfl, hrest⟩ := reaches_ask_bind.mp hlookup
        obtain ⟨e, rfl⟩ := not_attended_note hw (later_of_reaches hrest)
        exact hrest.elim
      · exact hlookup.2
  · rintro rfl
    refine reaches_ask_bind.mpr ⟨.found true (headlessSvcPorts js'), w', rfl, ?_⟩
    simp

theorem attended_createPVCs {js' : JobSet} {policy : VolumeClaimPolicy}
    {templates : List PersistentVolumeClaim} {outcome : Outcome}
    (h : Reaches (attends env lib js) w (createPVCsIfNecessary js' policy templates) outcome w') :
    w' = w := by
  induction templates generalizing w with
  | nil => exact h.2
  | cons template rest ih =>
    unfold createPVCsIfNecessary at h
    obtain ⟨result, mid, rfl, hrest⟩ := reaches_ask_bind.mp h
    cases result with
    | failed err =>
      obtain ⟨_, mid', rfl, hend⟩ := reaches_ask_bind.mp hrest
      exact hend.2
    | created => exact ih hrest
    | alreadyExists => exact ih hrest

theorem attended_existingPVCs {js' : JobSet} {policy : VolumeClaimPolicy}
    {templates : List PersistentVolumeClaim} :
    Reaches (attends env lib js) w (createPVCsIfNecessary js' policy templates) (.ok ()) w := by
  induction templates with
  | nil => exact ⟨rfl, rfl⟩
  | cons template rest ih => exact ⟨.alreadyExists, w, rfl, ih⟩

theorem attended_reconcileClaimsLoop {js' : JobSet} {policies : List VolumeClaimPolicy}
    {errs : List String}
    (h : Reaches (attends env lib js) w (reconcileClaimsLoop js' policies) errs w') : w' = w := by
  induction policies generalizing w errs with
  | nil => exact h.2
  | cons policy rest ih =>
    obtain ⟨outcome, mid, hfirst, hrest⟩ := reaches_bind.mp h
    obtain rfl := attended_createPVCs hfirst
    obtain ⟨errs', mid', hloop, -, rfl⟩ := reaches_bind.mp hrest
    exact ih hloop

theorem attended_existingClaims {js' : JobSet} {policies : List VolumeClaimPolicy} :
    Reaches (attends env lib js) w (reconcileClaimsLoop js' policies) [] w := by
  induction policies with
  | nil => exact ⟨rfl, rfl⟩
  | cons policy rest ih =>
    exact reaches_bind.mpr ⟨.ok (), w, attended_existingPVCs, reaches_bind.mpr ⟨[], w, ih, rfl, rfl⟩⟩

/-- Claims are not watched, and all of them may exist. -/
theorem attended_reconcileVolumeClaimPolicies {js' : JobSet} :
    Reaches (attends env lib js) w (reconcileVolumeClaimPolicies js') () w' ↔ w' = w := by
  unfold reconcileVolumeClaimPolicies
  rw [reaches_bind]
  constructor
  · rintro ⟨errs, mid, hloop, hjoin⟩
    obtain ⟨-, rfl⟩ := attended_joinErrors.mp hjoin
    exact attended_reconcileClaimsLoop hloop
  · rintro rfl
    exact ⟨[], w', attended_existingClaims, attended_joinErrors.mpr ⟨rfl, rfl⟩⟩

theorem attended_schedulingOutcome {x : Except String α} {a : α} :
    Reaches (attends env lib js) w (schedulingOutcome x) a w' ↔ x = .ok a ∧ w' = w := by
  cases x with
  | ok b => simp [schedulingOutcome, eq_comm]
  | error e =>
    simp only [schedulingOutcome, reduceCtorEq, false_and, iff_false]
    rintro ⟨_, mid, -, hfail⟩
    exact hfail

/-- A part of the reconcile over the scheduling objects that writes nothing. -/
theorem Watched.runs_iff {program : JobSetScheduling → SchedulingProg α}
    {scheduling : JobSetScheduling} (hs : js.spec.scheduling = some scheduling) {a : α}
    (hw' : w.wrote = false) :
    w.Runs js program (.ok a) w' ∧ w'.wrote = false ↔ ∃ objects,
      Reaches observes (w.objects, false) (program scheduling) a (objects, false) ∧
      w' = { w with objects := objects } := by
  constructor
  · rintro ⟨⟨scheduling', t, objects, wrote, hs', hrun, rfl⟩, hw⟩
    obtain rfl : scheduling = scheduling' := by simpa [hs] using hs'
    obtain rfl : wrote = false := hw
    rw [hw'] at hrun
    refine ⟨objects, reaches_iff_runs.mpr ⟨t, hrun⟩, ?_⟩
    rw [← hw']
  · rintro ⟨objects, h, rfl⟩
    obtain ⟨t, hrun⟩ := reaches_iff_runs.mp h
    rw [← hw'] at hrun
    exact ⟨⟨scheduling, t, objects, w.wrote, hs, hrun, rfl⟩, hw'⟩

/-- The scheduling part of a running JobSet writes nothing exactly when the objects are at
rest; it then goes on if they are in place. -/
theorem attended_reconcileScheduling {js' : JobSet} {scheduling : JobSetScheduling} {goOn : Bool}
    (hs : js.spec.scheduling = some scheduling) (hconf : schedulingConfigured env js' = true)
    (hsusp : jobSetSuspended js' = false) (hw : w'.wrote = false) :
    Reaches (attends env lib js) w (reconcileScheduling env js') goOn w' ↔ w.wrote = false ∧
      objectsAtRest env.platform lib js w.objects scheduling = some goOn ∧ w' = w := by
  unfold reconcileScheduling
  rw [if_neg (by simp [hconf]), if_neg (by simp [hsusp])]
  constructor
  · intro h
    obtain ⟨outcome, mid, hrun, hrest⟩ := reaches_ask_bind.mp h
    obtain ⟨_, mid', hout, hready⟩ := reaches_bind.mp hrest
    obtain ⟨rfl, rfl⟩ := attended_schedulingOutcome.mp hout
    have hmid := ((later_of_reaches hready).unwritten hw).1
    have hfirst := (Watched.Runs.later hrun).unwritten hmid
    obtain ⟨objects, hpass, rfl⟩ := (Watched.runs_iff hs hfirst.1).mp ⟨hrun, hmid⟩
    obtain ⟨hsome, rfl⟩ := reaches_reconcileSchedulingObjects.mp hpass
    obtain ⟨ready, hready'⟩ := Option.isSome_iff_exists.mp hsome
    obtain ⟨answer, mid', hcheck, hend⟩ := reaches_ask_bind.mp hready
    obtain ⟨rfl, rfl⟩ := attended_schedulingOutcome.mp hend
    obtain ⟨objects, hcheck', rfl⟩ := (Watched.runs_iff hs hfirst.1).mp ⟨hcheck, hw⟩
    obtain ⟨rfl, rfl, -⟩ := (reaches_schedulingObjectsReady hready').mp hcheck'
    exact ⟨hfirst.1, hready', rfl⟩
  · rintro ⟨hfirst, hready, rfl⟩
    have hpass := reaches_reconcileSchedulingObjects.mpr
      ⟨Option.isSome_iff_exists.mpr ⟨goOn, hready⟩, rfl⟩
    have hrun := (Watched.runs_iff hs hfirst).mpr ⟨_, hpass, rfl⟩
    have hcheck := (reaches_schedulingObjectsReady hready).mpr ⟨rfl, rfl, rfl⟩
    have hrun' := (Watched.runs_iff hs hfirst).mpr ⟨_, hcheck, rfl⟩
    refine reaches_ask_bind.mpr ⟨.ok (), w', hrun.1, ?_⟩
    refine reaches_bind.mpr ⟨(), w', attended_schedulingOutcome.mpr ⟨rfl, rfl⟩, ?_⟩
    exact reaches_ask_bind.mpr ⟨.ok goOn, w', hrun'.1, attended_schedulingOutcome.mpr ⟨rfl, rfl⟩⟩

theorem attended_reconcileResources {js' : JobSet} {goOn : Bool} (hw : w'.wrote = false) :
    Reaches (attends env lib js) w (reconcileResources env js') goOn w' ↔
      Reaches (attends env lib js) w (reconcileScheduling env js') goOn w' := by
  unfold reconcileResources
  rw [attended_bind hw]
  constructor
  · rintro ⟨_, mid, hmid, hsvc, h⟩
    obtain rfl := (attended_createHeadlessSvc hmid).mp hsvc
    split_ifs at h
    · obtain ⟨_, mid', hclaims, hrest⟩ := reaches_bind.mp h
      obtain rfl := attended_reconcileVolumeClaimPolicies.mp hclaims
      exact hrest
    · exact h
  · intro h
    have hfirst := ((later_of_reaches h).unwritten hw).1
    refine ⟨(), w, hfirst, (attended_createHeadlessSvc hfirst).mpr rfl, ?_⟩
    split_ifs
    · exact reaches_bind.mpr ⟨(), w, attended_reconcileVolumeClaimPolicies.mpr rfl, h⟩
    · exact h

end Unwritten

/-! ## The deadline -/

section Deadline

variable {env : Env} {js : JobSet}

theorem enforcedRemaining_eq {now : Time} {remaining : ℤ}
    (h : enforcedRemaining env now js = some remaining) :
    jobSetMarkedForDeletion js = false ∧ managedByExternalController js = none ∧
      activeDeadlineRemaining env.gates now js = some remaining := by
  unfold enforcedRemaining at h
  split_ifs at h with hskip
  simp only [Bool.or_eq_true, not_or, Bool.not_eq_true, Option.isSome_eq_false_iff,
    Option.isNone_iff_eq_none] at hskip
  exact ⟨hskip.1, hskip.2, h⟩

/-- The deadline is armed. It is computed from the spec and the start time only. -/
structure ArmedAt (env : Env) (js : JobSet) (deadline : Time) : Prop where
  present : jobSetMarkedForDeletion js = false
  internal : managedByExternalController js = none
  gate : env.gates.jobSetActiveDeadlineSeconds = true
  running : jobSetSuspended js = false
  started : js.status.startTime ≠ none
  remaining (js' : JobSet) (hspec : js'.spec = js.spec)
    (hstart : js'.status.startTime = js.status.startTime) (now : Time) :
    activeDeadlineRemaining env.gates now js' = some (timeSub deadline now)

theorem armedAt_of_remaining {now : Time} {remaining : ℤ}
    (h : enforcedRemaining env now js = some remaining) : ∃ deadline, ArmedAt env js deadline := by
  obtain ⟨hdeleted, hmanager, hactive⟩ := enforcedRemaining_eq h
  unfold activeDeadlineRemaining at hactive
  by_cases hgate : env.gates.jobSetActiveDeadlineSeconds = true
  swap
  · simp [hgate] at hactive
  cases hseconds : js.spec.activeDeadlineSeconds with
  | none => simp [hseconds] at hactive
  | some seconds =>
    cases hstart : js.status.startTime with
    | none => simp [hseconds, hstart] at hactive
    | some startTime =>
      simp only [hgate, hseconds, hstart, Bool.not_true, Bool.false_eq_true, if_false] at hactive
      split_ifs at hactive with hsusp hmax
      refine ⟨startTime + seconds * nanosecondsPerSecond, hdeleted, hmanager, hgate,
        by simpa using hsusp, by simp [hstart], fun js' hspec hstart' now' => ?_⟩
      have hsusp' : jobSetSuspended js' = jobSetSuspended js := by
        unfold jobSetSuspended
        rw [hspec]
      unfold activeDeadlineRemaining
      simp only [hspec, hseconds, hstart', hstart, hsusp', hgate, hsusp, hmax]
      rfl

theorem ArmedAt.enforced {deadline : Time} (h : ArmedAt env js deadline) (now : Time) :
    enforcedRemaining env now js = some (timeSub deadline now) := by
  unfold enforcedRemaining
  rw [if_neg (by simp [h.present, h.internal])]
  exact h.remaining js rfl rfl now

theorem timeSub_pos (t u : Time) : 0 < timeSub t u ↔ u < t := by
  rw [← not_le, timeSub_nonpos, not_le]

/-- The deadline of a JobSet that has one ahead. -/
theorem deadlineAhead_iff {now : Time} : DeadlineAhead env now js ↔
    jobSetFinished js = false ∧ ∃ deadline, now < deadline ∧ ArmedAt env js deadline := by
  refine and_congr_right fun _ => ?_
  constructor
  · rintro ⟨remaining, hremaining, hpos⟩
    obtain ⟨deadline, harmed⟩ := armedAt_of_remaining hremaining
    rw [harmed.enforced, Option.some.injEq] at hremaining
    rw [← hremaining, timeSub_pos] at hpos
    exact ⟨deadline, hpos, harmed⟩
  · rintro ⟨deadline, hlt, harmed⟩
    exact ⟨_, harmed.enforced now, (timeSub_pos deadline now).mpr hlt⟩

/-- The restarting condition is not cleared at any time if it is not cleared at one. -/
theorem clearRestarting_unchanged {statuses : List ReplicatedJobStatus} {now : Time} {p : Pass}
    (h : (clearRestarting statuses now p).opts.shouldUpdate = false) (now' : Time) :
    clearRestarting statuses now' p = p := by
  unfold clearRestarting at h ⊢
  split_ifs at h ⊢
  · unfold setRestartingConditionFalse at h ⊢
    apply setCondition_of_settled
    by_contra hsettled
    rw [setCondition_of_unsettled hsettled] at h
    cases h
  · rfl

theorem executeFailurePolicy_update {platform : Platform} {gates : FeatureGates} {now : Time}
    {failed : List Job} {p p' : Pass} (hp : jobSetFinished p.js = false)
    (h : executeFailurePolicy platform gates now failed p = .ok p') :
    p'.opts.shouldUpdate = true := by
  have hfailed : ¬ CondTrue p.js.status.conditions .jobSetFailed := by
    intro htrue
    rw [← Bool.not_eq_true, jobSetFinished_iff] at hp
    exact hp (Or.inr htrue)
  obtain ⟨reason, msg, -, rfl⟩ | ⟨fp, job, count, event, o, -, -, -, -, rfl⟩ |
    ⟨fp, job, count, event, -, -, -, -, hjob⟩ := executeFailurePolicy_cases h
  · exact setCondition_shouldUpdate (setCondition_update rfl hfailed)
  · exact setCondition_shouldUpdate rfl
  · exact failurePolicyRecreateJob_update hjob

/-- A JobSet that goes on is requeued when its Jobs are done with. -/
theorem requeue_of_reconcileJobs {lib : BuilderLibrary} {w w' : Watched} {owned : ChildJobs}
    {statuses : List ReplicatedJobStatus} {requeueAfter result : ℤ} {p p' : Pass}
    (h : Reaches (attends env lib js) w (reconcileJobs env owned statuses requeueAfter p)
      (p', result) w') : result = requeueAfter := by
  unfold reconcileJobs at h
  obtain ⟨active, w₁, -, h₁⟩ := reaches_bind.mp h
  obtain ⟨p₁, w₂, -, h₂⟩ := reaches_bind.mp h₁
  obtain ⟨p₂, w₃, -, h₃⟩ := reaches_bind.mp h₂
  obtain ⟨p₃, w₄, -, h₄⟩ := reaches_bind.mp h₃
  obtain ⟨p₄, w₅, -, hend, -⟩ := reaches_bind.mp h₄
  cases hend
  rfl

end Deadline

/-! ## When the wake-up is lost -/

section Lost

variable (env : Env) (lib : BuilderLibrary) (js : JobSet)

/-- The reconcile comes to the scheduling objects without a write: there is nothing to
delete, no status to report, and no Job has failed or completed the JobSet. -/
structure Uneventful (jobs : List Job) (owned : ChildJobs) : Prop where
  sorted : getChildJobs env.gates js jobs = .ok owned
  previous : ∀ job ∈ owned.previous, job.deletionTimestamp.isSome = true
  reported : ∀ now, (clearRestarting (calculateReplicatedJobStatuses env.gates js owned) now
    (entryPass env js owned)).opts.shouldUpdate = false
  failed : owned.failed = []
  successful : owned.successful = [] ∨ successPolicyMet js owned.successful = .ok false

/-- The reconcile ends at the scheduling objects without a write: it waits for one of them
that is being deleted, or for stale Jobs all of which are being deleted. -/
def WaitsForDeletion (objects : SchedulingStore) (active : List Job) : Prop :=
  ∃ scheduling, js.spec.scheduling = some scheduling ∧
    env.gates.jobSetWorkloadAwareSchedulingAPI = true ∧
    (objectsAtRest env.platform lib js objects scheduling = some false ∨
      objectsAtRest env.platform lib js objects scheduling = some true ∧
        schedulingJobsNeedRecreation env.platform js active = true ∧
        ∀ job ∈ active, job.deletionTimestamp.isSome = true)

variable {env lib js} {w w' : Watched}

/-- Only the status in memory has changed. -/
def StatusOnly (js : JobSet) (p : Pass) : Prop := ∃ status, p.js = { js with status := status }

theorem schedulingConfigured_iff {js' : JobSet} : schedulingConfigured env js' = true ↔
    env.gates.jobSetWorkloadAwareSchedulingAPI = true ∧ ∃ scheduling,
      js'.spec.scheduling = some scheduling := by
  unfold schedulingConfigured
  rw [Bool.and_eq_true, Option.isSome_iff_exists]

/-- A running JobSet is left without a write where the reconcile waits, or it is requeued. -/
theorem waits_of_reconcileRunning {owned : ChildJobs} {statuses : List ReplicatedJobStatus}
    {requeueAfter result : ℤ} {p p' : Pass} (hp : StatusOnly js p)
    (hsusp : jobSetSuspended js = false) (hw : w'.wrote = false)
    (h : Reaches (attends env lib js) w (reconcileRunning env owned statuses requeueAfter p)
      (p', result) w') :
    (WaitsForDeletion env lib js w.objects owned.active ∧ p' = p) ∨ result = requeueAfter := by
  obtain ⟨status, hjs⟩ := hp
  have hsusp' : jobSetSuspended p.js = false := by
    rw [hjs]
    exact hsusp
  obtain ⟨goOn, mid, hmid, hresources, hrest⟩ := (attended_bind hw).mp h
  rw [attended_reconcileResources hmid] at hresources
  by_cases hconf : schedulingConfigured env p.js = true
  · obtain ⟨hgate, scheduling, hs'⟩ := schedulingConfigured_iff.mp hconf
    have hs : js.spec.scheduling = some scheduling := by
      rw [hjs] at hs'
      exact hs'
    obtain ⟨-, hready, rfl⟩ :=
      (attended_reconcileScheduling hs hconf hsusp' hmid).mp hresources
    cases goOn with
    | false =>
      obtain ⟨hend, -⟩ := hrest
      cases hend
      exact Or.inl ⟨⟨scheduling, hs, hgate, Or.inl hready⟩, rfl⟩
    | true =>
      simp only [Bool.not_true, Bool.false_eq_true, if_false] at hrest
      split_ifs at hrest with hstale
      · obtain ⟨_, mid', hmid', hdelete, hend⟩ := (attended_bind hw).mp hrest
        obtain ⟨hall, -⟩ := (attended_deleteJobs hmid').mp hdelete
        obtain ⟨hend, -⟩ := hend
        cases hend
        unfold staleSchedulingJobs at hstale
        rw [Bool.and_eq_true, hjs] at hstale
        exact Or.inl ⟨⟨scheduling, hs, hgate, Or.inr ⟨hready, hstale.2, hall⟩⟩, rfl⟩
      · exact Or.inr (requeue_of_reconcileJobs hrest)
  · unfold reconcileScheduling at hresources
    rw [if_pos (by simpa using hconf)] at hresources
    obtain ⟨rfl, -⟩ := hresources
    simp only [Bool.not_true, Bool.false_eq_true, if_false] at hrest
    rw [if_neg (by simp [staleSchedulingJobs, hconf])] at hrest
    exact Or.inr (requeue_of_reconcileJobs hrest)

/-- The reconcile may wait without a write. -/
theorem reconcileRunning_waits {owned : ChildJobs} {statuses : List ReplicatedJobStatus}
    {requeueAfter : ℤ} {p : Pass} (hp : StatusOnly js p) (hsusp : jobSetSuspended js = false)
    (hw : w.wrote = false) (h : WaitsForDeletion env lib js w.objects owned.active) :
    Reaches (attends env lib js) w (reconcileRunning env owned statuses requeueAfter p) (p, 0) w := by
  obtain ⟨status, hjs⟩ := hp
  obtain ⟨scheduling, hs, hgate, hwaits⟩ := h
  have hsusp' : jobSetSuspended p.js = false := by
    rw [hjs]
    exact hsusp
  have hconf : schedulingConfigured env p.js = true := by
    rw [schedulingConfigured_iff, hjs]
    exact ⟨hgate, scheduling, hs⟩
  have hresources (goOn : Bool)
      (hready : objectsAtRest env.platform lib js w.objects scheduling = some goOn) :
      Reaches (attends env lib js) w (reconcileResources env p.js) goOn w :=
    (attended_reconcileResources hw).mpr
      ((attended_reconcileScheduling hs hconf hsusp' hw).mpr ⟨hw, hready, rfl⟩)
  unfold reconcileRunning
  rcases hwaits with hready | ⟨hready, hstale, hall⟩
  · exact reaches_bind.mpr ⟨false, w, hresources false hready, rfl, rfl⟩
  · have hstale' : staleSchedulingJobs env p.js owned.active = true := by
      unfold staleSchedulingJobs
      rw [hconf, hsusp', hjs]
      exact hstale
    refine reaches_bind.mpr ⟨true, w, hresources true hready, ?_⟩
    simp only [Bool.not_true, Bool.false_eq_true, if_false, hstale', if_true]
    exact reaches_bind.mpr ⟨(), w, (attended_deleteJobs hw).mpr ⟨hall, rfl⟩, rfl, rfl⟩

/-- In an uneventful reconcile the pass comes to the scheduling objects as it was read. -/
theorem Uneventful.pass {jobs : List Job} {owned : ChildJobs} (h : Uneventful env js jobs owned)
    (now : Time) : clearRestarting (calculateReplicatedJobStatuses env.gates js owned) now
      (entryPass env js owned) = entryPass env js owned :=
  clearRestarting_unchanged (h.reported now) now

theorem syncActiveDeadlineStartTime_started {gates : FeatureGates} {now : Time} {p : Pass}
    (hgate : gates.jobSetActiveDeadlineSeconds = true) (hsusp : jobSetSuspended p.js = false)
    (hstart : p.js.status.startTime ≠ none) : syncActiveDeadlineStartTime gates now p = p := by
  unfold syncActiveDeadlineStartTime
  rw [if_neg (by simp [hgate, hsusp]), if_neg hstart]

theorem entryPass_unfinished (env : Env) (owned : ChildJobs) (h : jobSetFinished js = false) :
    jobSetFinished (entryPass env js owned).js = false := by
  rw [entryPass_js]
  exact h

theorem clearRestarting_unfinished (statuses : List ReplicatedJobStatus) (now : Time) {p : Pass}
    (h : jobSetFinished p.js = false) :
    jobSetFinished (clearRestarting statuses now p).js = false := by
  unfold clearRestarting
  split_ifs
  · rw [← Bool.not_eq_true, jobSetFinished_iff] at h ⊢
    unfold setRestartingConditionFalse
    rw [setCondition_js]
    dsimp only
    rwa [updateCondition_other now _ _ (Or.inl rfl) (by simp [conditionOpts]),
      updateCondition_other now _ _ (Or.inr rfl) (by simp [conditionOpts])]
  · exact h

/-- The pass with its conditions cleared, as it comes to the deadline. -/
theorem clearedPass_js {owned : ChildJobs} (now : Time) :
    ∃ conditions, (clearRestarting (calculateReplicatedJobStatuses env.gates js owned) now
      (entryPass env js owned)).js = { js with status := { js.status with
        conditions := conditions
        replicatedJobsStatus := sortStatuses
          (calculateReplicatedJobStatuses env.gates js owned) } } := by
  obtain ⟨conditions, hjs⟩ := clearRestarting_js
    (calculateReplicatedJobStatuses env.gates js owned) now (entryPass env js owned)
  refine ⟨conditions, ?_⟩
  rw [hjs, entryPass_js]

theorem attended_executeSuccessPolicy {successful : List Job} {p : Pass} :
    Reaches (attends env lib js) w (executeSuccessPolicy successful p) none w' ↔
      (successful = [] ∨ successPolicyMet p.js successful = .ok false) ∧ w' = w := by
  unfold executeSuccessPolicy
  split_ifs with hnone
  · simp [hnone]
  · simp only [hnone, false_or]
    constructor
    · intro h
      obtain ⟨completed, mid, hlift, hrest⟩ := reaches_bind.mp h
      obtain ⟨hmet, rfl⟩ := attended_liftExcept.mp hlift
      cases completed with
      | false => exact ⟨hmet, hrest.2⟩
      | true =>
        obtain ⟨now, mid', -, hend, -⟩ := hrest
        cases hend
    · rintro ⟨hmet, rfl⟩
      exact reaches_bind.mpr ⟨false, w', attended_liftExcept.mpr ⟨hmet, rfl⟩, rfl, rfl⟩

/-- A completed JobSet has a status to write. -/
theorem update_of_executeSuccessPolicy {successful : List Job} {p p' : Pass}
    (hp : jobSetFinished p.js = false)
    (h : Reaches (attends env lib js) w (executeSuccessPolicy successful p) (some p') w') :
    p'.opts.shouldUpdate = true := by
  have hcompleted : ¬ CondTrue p.js.status.conditions .jobSetCompleted := by
    intro htrue
    rw [← Bool.not_eq_true, jobSetFinished_iff] at hp
    exact hp (Or.inl htrue)
  unfold executeSuccessPolicy at h
  split_ifs at h
  · cases h.1
  · obtain ⟨completed, mid, -, hrest⟩ := reaches_bind.mp h
    cases completed with
    | false => cases hrest.1
    | true =>
      obtain ⟨now, mid', -, hend, -⟩ := hrest
      cases hend
      exact setCondition_shouldUpdate (setCondition_update rfl hcompleted)

/-- An uneventful reconcile that has to wait returns without a write and without a requeue. -/
theorem reaches_waiting {jobs : List Job} {owned : ChildJobs} {objects : SchedulingStore}
    {start : Time} (hahead : DeadlineAhead env start js) (hu : Uneventful env js jobs owned)
    (hwaits : WaitsForDeletion env lib js objects owned.active) :
    Reaches (attends env lib js) ⟨start, js, objects, false⟩ (reconcileRequest env js jobs) 0
      ⟨start, js, objects, false⟩ := by
  obtain ⟨hfinished, deadline, hlt, harmed⟩ := deadlineAhead_iff.mp hahead
  have hjs := entryPass_js env js owned
  set pass := entryPass env js owned
  set statuses := calculateReplicatedJobStatuses env.gates js owned
  set w₀ : Watched := ⟨start, js, objects, false⟩
  have hcleared : clearRestarting statuses start pass = pass := hu.pass start
  have hsync : syncActiveDeadlineStartTime env.gates start pass = pass := by
    apply syncActiveDeadlineStartTime_started harmed.gate
    · rw [hjs]
      exact harmed.running
    · rw [hjs]
      exact harmed.started
  have hremaining : activeDeadlineRemaining env.gates start pass.js =
      some (timeSub deadline start) := harmed.remaining _ (by rw [hjs]) (by rw [hjs]) start
  have hsuccess : Reaches (attends env lib js) w₀ (executeSuccessPolicy owned.successful pass)
      none w₀ := by
    refine attended_executeSuccessPolicy.mpr ⟨?_, rfl⟩
    rw [hjs]
    exact hu.successful
  have hpolicies : Reaches (attends env lib js) w₀
      (reconcilePolicies env owned statuses (timeSub deadline start) pass) (pass, 0) w₀ := by
    unfold reconcilePolicies
    rw [if_neg (by simp [hu.failed])]
    exact reaches_bind.mpr ⟨none, w₀, hsuccess,
      reconcileRunning_waits ⟨_, hjs⟩ harmed.running rfl hwaits⟩
  have hunfinished : Reaches (attends env lib js) w₀ (reconcileUnfinished env owned statuses pass)
      (pass, 0) w₀ := by
    unfold reconcileUnfinished
    refine reaches_bind.mpr ⟨(), w₀, (attended_deleteJobs rfl).mpr ⟨hu.previous, rfl⟩, ?_⟩
    refine attended_readClock.mpr ⟨start, le_rfl, ?_⟩
    refine attended_readClock.mpr ⟨start, le_rfl, ?_⟩
    refine attended_readClock.mpr ⟨start, le_rfl, ?_⟩
    simp only [hcleared, hsync, hremaining]
    rw [if_neg (not_le.mpr ((timeSub_pos deadline start).mpr hlt))]
    exact hpolicies
  have hreconcile : Reaches (attends env lib js) w₀ (reconcile env js jobs) (pass, 0) w₀ := by
    unfold reconcile
    rw [if_neg (by simp [harmed.internal])]
    refine reaches_bind.mpr ⟨owned, w₀, attended_liftExcept.mpr ⟨hu.sorted, rfl⟩, ?_⟩
    have hfinished' : jobSetFinished pass.js = false := entryPass_unfinished env owned hfinished
    change Reaches _ w₀ (if jobSetFinished pass.js then _ else _) _ w₀
    rw [if_neg (by simp [hfinished'])]
    exact hunfinished
  have hstatus : pass.opts.shouldUpdate = false := by
    rw [← hcleared]
    exact hu.reported start
  unfold reconcileRequest
  rw [if_neg (by simp [harmed.present])]
  refine reaches_bind.mpr ⟨(pass, 0), w₀, hreconcile, ?_⟩
  exact reaches_bind.mpr ⟨(), w₀, (attended_updateJobSetStatus rfl).mpr ⟨hstatus, rfl⟩, rfl, rfl⟩

/-- A pass that has no status to write waits at the scheduling objects or is requeued. -/
theorem waits_of_reconcilePolicies {owned : ChildJobs} {statuses : List ReplicatedJobStatus}
    {requeueAfter result : ℤ} {p p' : Pass} (hp : StatusOnly js p)
    (hfinished : jobSetFinished p.js = false) (hsusp : jobSetSuspended js = false)
    (hw : w'.wrote = false) (hupdate : p'.opts.shouldUpdate = false)
    (h : Reaches (attends env lib js) w (reconcilePolicies env owned statuses requeueAfter p)
      (p', result) w') :
    (owned.failed = [] ∧ (owned.successful = [] ∨ successPolicyMet js owned.successful = .ok false) ∧
      WaitsForDeletion env lib js w.objects owned.active ∧ p' = p) ∨ result = requeueAfter := by
  unfold reconcilePolicies at h
  by_cases hfailed : owned.failed = []
  · rw [if_neg (not_not.mpr hfailed)] at h
    obtain ⟨completed, mid, hsuccess, hrest⟩ := reaches_bind.mp h
    cases completed with
    | some q =>
      obtain ⟨hend, -⟩ := hrest
      cases hend
      rw [update_of_executeSuccessPolicy hfinished hsuccess] at hupdate
      cases hupdate
    | none =>
      obtain ⟨hmet, rfl⟩ := attended_executeSuccessPolicy.mp hsuccess
      refine (waits_of_reconcileRunning hp hsusp hw hrest).imp (fun hwaits => ?_) id
      obtain ⟨status, hjs⟩ := hp
      rw [hjs] at hmet
      exact ⟨hfailed, hmet, hwaits⟩
  · rw [if_pos hfailed] at h
    obtain ⟨now, -, hrest⟩ := attended_readClock.mp h
    obtain ⟨q, mid, hlift, hclock⟩ := reaches_bind.mp hrest
    obtain ⟨hpolicy, -⟩ := attended_liftExcept.mp hlift
    obtain ⟨now', -, hend, -⟩ := attended_readClock.mp hclock
    cases hend
    have hq := executeFailurePolicy_update hfinished hpolicy
    obtain ⟨st, u, hreset⟩ := resetStartTimeOnGlobalRestart_retimed env.gates now'
      p.js.status.restarts q
    rw [hreset] at hupdate
    cases (Bool.or_eq_false_iff.mp hupdate).1.symm.trans hq

/-- An unfinished JobSet whose deadline is ahead waits at the scheduling objects, or it is
requeued for the time that is left. -/
theorem waits_of_reconcileUnfinished {jobs : List Job} {owned : ChildJobs} {result : ℤ} {p' : Pass}
    {deadline : Time} (harmed : ArmedAt env js deadline) (hlt : w'.clock < deadline)
    (hsorted : getChildJobs env.gates js jobs = .ok owned) (hfinished : jobSetFinished js = false)
    (hw : w'.wrote = false) (hupdate : p'.opts.shouldUpdate = false)
    (h : Reaches (attends env lib js) w (reconcileUnfinished env owned
      (calculateReplicatedJobStatuses env.gates js owned) (entryPass env js owned)) (p', result) w') :
    (Uneventful env js jobs owned ∧ WaitsForDeletion env lib js w.objects owned.active) ∨
      ∃ instant, w.clock ≤ instant ∧ instant ≤ w'.clock ∧ result = timeSub deadline instant := by
  unfold reconcileUnfinished at h
  obtain ⟨_, mid, hmid, hdelete, hclear⟩ := (attended_bind hw).mp h
  obtain ⟨hprevious, rfl⟩ := (attended_deleteJobs hmid).mp hdelete
  obtain ⟨now₁, hle₁, hsync⟩ := attended_readClock.mp hclear
  obtain ⟨now₂, hle₂, hcheck⟩ := attended_readClock.mp hsync
  obtain ⟨now₃, hle₃, hdecide⟩ := attended_readClock.mp hcheck
  have hlater := (later_of_reaches hdecide).clock
  obtain ⟨conditions, hjs⟩ := @clearedPass_js env js owned now₁
  have hopen := clearRestarting_unfinished (calculateReplicatedJobStatuses env.gates js owned) now₁
    (entryPass_unfinished env owned hfinished)
  have hunchanged := @clearRestarting_unchanged
    (calculateReplicatedJobStatuses env.gates js owned) now₁ (entryPass env js owned)
  set p := clearRestarting (calculateReplicatedJobStatuses env.gates js owned) now₁
    (entryPass env js owned)
  have hstarted : syncActiveDeadlineStartTime env.gates now₂ p = p := by
    apply syncActiveDeadlineStartTime_started harmed.gate
    · rw [hjs]
      exact harmed.running
    · rw [hjs]
      exact harmed.started
  simp only [hstarted, harmed.remaining p.js (by rw [hjs]) (by rw [hjs]) now₃] at hdecide
  have hpos : 0 < timeSub deadline now₃ := (timeSub_pos deadline now₃).mpr (hlater.trans_lt hlt)
  rw [if_neg (not_le.mpr hpos)] at hdecide
  rcases waits_of_reconcilePolicies ⟨_, hjs⟩ hopen harmed.running hw hupdate hdecide with
    ⟨hfailed, hsuccessful, hwaits, rfl⟩ | hresult
  · refine Or.inl ⟨⟨hsorted, hprevious, fun now => ?_, hfailed, hsuccessful⟩, hwaits⟩
    rw [hunchanged hupdate now, ← hunchanged hupdate now₁]
    exact hupdate
  · exact Or.inr ⟨now₃, (hle₁.trans hle₂).trans hle₃, hlater, hresult⟩

/-- A reconcile that loses the wake-up is uneventful and waits. -/
theorem waiting_of_reaches {jobs : List Job} {objects : SchedulingStore} {start now : Time}
    {requeueAfter : ℤ}
    (h : Reaches (attends env lib js) ⟨start, js, objects, false⟩ (reconcileRequest env js jobs)
      requeueAfter w) (hw : w.wrote = false) (hnow : w.clock ≤ now)
    (hahead : DeadlineAhead env now w.saved)
    (hlost : ¬ (0 < requeueAfter ∧ ∃ instant, start ≤ instant ∧ instant ≤ w.clock ∧
      enforcedRemaining env instant w.saved = some requeueAfter)) :
    DeadlineAhead env start js ∧ ∃ owned, Uneventful env js jobs owned ∧
      WaitsForDeletion env lib js objects owned.active := by
  have hlater := later_of_reaches h
  rw [(hlater.unwritten hw).2] at hahead hlost
  obtain ⟨hfinished, deadline, hlt, harmed⟩ := deadlineAhead_iff.mp hahead
  have hend : w.clock < deadline := hnow.trans_lt hlt
  refine ⟨deadlineAhead_iff.mpr ⟨hfinished, deadline, hlater.clock.trans_lt hend, harmed⟩, ?_⟩
  unfold reconcileRequest at h
  rw [if_neg (by simp [harmed.present])] at h
  obtain ⟨⟨p, result⟩, mid, hmid, hreconcile, hwrite⟩ := (attended_bind hw).mp h
  obtain ⟨_, mid', hmid', hstatus, hreturn⟩ := (attended_bind hw).mp hwrite
  obtain ⟨hupdate, rfl⟩ := (attended_updateJobSetStatus hmid').mp hstatus
  obtain ⟨rfl, rfl⟩ := hreturn
  unfold reconcile at hreconcile
  rw [if_neg (by simp [harmed.internal])] at hreconcile
  obtain ⟨owned, mid, hlift, hsnapshot⟩ := reaches_bind.mp hreconcile
  obtain ⟨hsorted, rfl⟩ := attended_liftExcept.mp hlift
  have hfinished' : jobSetFinished (entryPass env js owned).js = false :=
    entryPass_unfinished env owned hfinished
  change Reaches _ _ (if jobSetFinished (entryPass env js owned).js then _ else _) _ _ at hsnapshot
  rw [if_neg (by simp [hfinished'])] at hsnapshot
  rcases waits_of_reconcileUnfinished harmed hend hsorted hfinished hw hupdate hsnapshot with
    hwaits | ⟨instant, hle, hle', rfl⟩
  · exact ⟨owned, hwaits⟩
  · refine (hlost ⟨?_, instant, hle, hle', harmed.enforced instant⟩).elim
    exact (timeSub_pos deadline instant).mpr (hle'.trans_lt hend)

/-- A reconcile keeps the wake-up unless it comes to the scheduling objects without a write
and waits there for objects that are being deleted. -/
theorem wakeUp_kept_iff {jobs : List Job} {objects : SchedulingStore} {start : Time} :
    KeepsWakeUp env lib js jobs objects start ↔
      ¬ (DeadlineAhead env start js ∧ ∃ owned, Uneventful env js jobs owned ∧
        WaitsForDeletion env lib js objects owned.active) := by
  constructor
  · rintro hkeeps ⟨hahead, owned, hu, hwaits⟩
    obtain ⟨t, hrun⟩ := reaches_iff_runs.mp (reaches_waiting hahead hu hwaits)
    rcases hkeeps t 0 _ hrun start le_rfl hahead with hwrote | ⟨hpos, -⟩
    · cases hwrote
    · exact (lt_irrefl 0 hpos).elim
  · intro hnot t requeueAfter w hrun now hnow hahead
    by_contra hlost
    rw [not_or] at hlost
    exact hnot (waiting_of_reaches (reaches_iff_runs.mpr ⟨t, hrun⟩) (by simpa using hlost.1) hnow
      hahead hlost.2)

end Lost

/-! ## A Workload that is still being deleted -/

/-- The gates of the scheduling API and of the deadline. -/
def deadlineEnv : Env :=
  ⟨trainDigests, { schedulingGates with jobSetActiveDeadlineSeconds := true }⟩

/-- The JobSet `train` with an hour to run; its counts have been reported. -/
def deadlineTrain : JobSet :=
  let js := defaultJobSet schedulingGates (trainSet 3)
  let js : JobSet := { js with spec := { js.spec with activeDeadlineSeconds := some 3600 } }
  { js with status := { js.status with
      startTime := some 0
      replicatedJobsStatus := sortStatuses
        (calculateReplicatedJobStatuses deadlineEnv.gates js ⟨[], [], [], []⟩) } }

/-- A finalizer holds the Workload of the run before. -/
def terminatingStore : SchedulingStore :=
  ⟨fun _ => some ⟨⟨"5f3c", []⟩, true, some 1⟩, fun _ => none⟩

/-- A reconcile that finds a Workload being deleted asks for no requeue. -/
theorem wakeUp_lost : ¬ ∀ (env : Env) (lib : BuilderLibrary) (js : JobSet) (jobs : List Job)
    (objects : SchedulingStore) (start : Time), KeepsWakeUp env lib js jobs objects start := by
  intro h
  have hahead : DeadlineAhead deadlineEnv 2 deadlineTrain :=
    ⟨by decide, 3599999999998, by decide, by decide⟩
  have hu : Uneventful deadlineEnv deadlineTrain [] ⟨[], [], [], []⟩ := by
    refine ⟨rfl, by simp, fun now => ?_, rfl, Or.inl rfl⟩
    have hready : ¬ (!jobSetSuspended (entryPass deadlineEnv deadlineTrain ⟨[], [], [], []⟩).js ∧
        allJobsReady (entryPass deadlineEnv deadlineTrain ⟨[], [], [], []⟩).js
          (calculateReplicatedJobStatuses deadlineEnv.gates deadlineTrain ⟨[], [], [], []⟩)) := by
      decide
    unfold clearRestarting
    rw [if_neg hready]
    decide
  have hwaits : WaitsForDeletion deadlineEnv copyingLibrary deadlineTrain terminatingStore [] :=
    ⟨trainGang, rfl, rfl, Or.inl (by decide +kernel)⟩
  obtain ⟨t, hrun⟩ := reaches_iff_runs.mp (reaches_waiting hahead hu hwaits)
  rcases h deadlineEnv copyingLibrary deadlineTrain [] terminatingStore 2 t 0 _ hrun 2 le_rfl
    hahead with hwrote | ⟨hpos, -⟩
  · cases hwrote
  · exact (lt_irrefl 0 hpos).elim

end JobSetOperator
