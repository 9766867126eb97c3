import JobSetOperator.InPlace.Preservation

/-!
# Safety of the barrier and of its counters

A worker runs at an attempt only after every expected pod had reached it, and a
pod never runs one attempt twice. The counters move by one, annotations stay
next to them, and a process never exits because of its own start, as long as
the current attempt has not reached the largest 32-bit integer. There the next
attempt is cut to a negative one, which the run built at the end reaches.
-/
namespace JobSetOperator.InPlace

open Library Library.Program

variable {N : ℕ}

/-! ## Workers -/

/-- The start of a worker by this process. -/
def Event.isStartBy (pid : ℕ) : Event → Bool
  | .workerStarted _ pid' _ => pid' = pid
  | .snapshot _ => false

/-- The start of this pod's worker at this attempt. -/
def Event.isStartAt (uid : ℕ) (attempt : Option ℤ) : Event → Bool
  | .workerStarted uid' _ attempt' => uid' = uid ∧ attempt' = attempt
  | .snapshot _ => false

theorem countP_le_one {R : Event → Event → Prop} {p : Event → Bool} {l : List Event}
    (hl : l.Pairwise R) (hp : ∀ e e', p e = true → p e' = true → ¬ R e e') : l.countP p ≤ 1 := by
  induction l with
  | nil => simp
  | cons e l ih =>
    obtain ⟨hhead, htail⟩ := List.pairwise_cons.mp hl
    by_cases he : p e = true
    · have hzero : l.countP p = 0 := by
        rw [List.countP_eq_zero]
        intro e' he' hpe'
        exact hp e e' he hpe' (hhead e' he')
      rw [List.countP_cons_of_pos he, hzero]
    · rw [List.countP_cons_of_neg he]
      exact ih htail

theorem justified_split {trace post pre : List Event} {uid pid : ℕ} {attempt : Option ℤ}
    (h : Justified N trace) (hsplit : trace = post ++ .workerStarted uid pid attempt :: pre) :
    ∃ k pods, attempt = some k ∧ .snapshot pods ∈ pre ∧ AllCarry N pods k := by
  induction post generalizing trace with
  | nil =>
    subst hsplit
    exact h.1
  | cons e post ih =>
    subst hsplit
    have htail : Justified N (post ++ .workerStarted uid pid attempt :: pre) := by
      cases e with
      | snapshot pods => exact h
      | workerStarted uid' pid' attempt' => exact h.2
    exact ih htail rfl

/-- A counter does not go down, and stays set. -/
def NotBelow (a b : Option ℤ) : Prop := ∀ x, a = some x → ∃ y, b = some y ∧ x ≤ y

/-- The counters and annotations of a state, and what its agents are about to do. -/
structure CountersOk (w : World) : Prop where
  annotations : ∀ o ∈ w.pods.current, ¬ o.failed → ∀ raw, o.rawAttempt = some raw →
    (w.jobSets.current.status.currentInPlaceRestartAttempt = none → raw = itoa 0) ∧
    ∀ c, w.jobSets.current.status.currentInPlaceRestartAttempt = some c →
      raw = itoa c ∨ raw = itoa (c + 1)
  previousLe : ∀ j ≤ w.jobSets.top, ∀ p c,
    (w.jobSets.entry j).status.previousInPlaceRestartAttempt = some p →
    (w.jobSets.entry j).status.currentInPlaceRestartAttempt = some c → p ≤ c
  monotone : ∀ i j, i ≤ j → j ≤ w.jobSets.top →
    NotBelow (w.jobSets.entry i).status.previousInPlaceRestartAttempt
      (w.jobSets.entry j).status.previousInPlaceRestartAttempt ∧
    NotBelow (w.jobSets.entry i).status.currentInPlaceRestartAttempt
      (w.jobSets.entry j).status.currentInPlaceRestartAttempt
  byOne : ∀ i < w.jobSets.top,
    (w.jobSets.entry (i + 1)).status.currentInPlaceRestartAttempt =
      (w.jobSets.entry i).status.currentInPlaceRestartAttempt ∨
    ((w.jobSets.entry i).status.currentInPlaceRestartAttempt = none ∧
      (w.jobSets.entry (i + 1)).status.currentInPlaceRestartAttempt = some 0) ∨
    ∃ c, (w.jobSets.entry i).status.currentInPlaceRestartAttempt = some c ∧
      (w.jobSets.entry (i + 1)).status.currentInPlaceRestartAttempt = some (c + 1)
  picksAbovePrevious : ∀ uid p run value k, w.processes uid = some p → p.run = some run →
    run.rest = .call (.applyAttempt value) k → ∀ js, run.view.read = some js →
    ∀ previous, js.status.previousInPlaceRestartAttempt = some previous → previous < value
  noRestartLoop : ∀ uid p run k, w.processes uid = some p → p.run = some run →
    run.rest = .call .exit k → p.memory.podInPlaceRestartAttempt ≠ none

/-- A version with a nonnegative current attempt is determined by its frontier. -/
theorem current_of_frontier {js : JobSet}
    (h : ∀ c, js.status.currentInPlaceRestartAttempt = some c → 0 ≤ c ∧ c < 2 ^ 31) :
    js.status.currentInPlaceRestartAttempt =
      if frontier js = 0 then none else some (frontier js - 1) := by
  cases hc : js.status.currentInPlaceRestartAttempt with
  | none =>
    unfold frontier
    rw [hc]
    rfl
  | some c =>
    have hrange := h c hc
    rw [frontier_some hc, if_neg (by omega)]
    simp

/-- A JobSet of one pod that may restart as often as the type allows. -/
def onePod : JobSet :=
  { JobSet.zero with
    name := "train"
    spec := { JobSetSpec.zero with
      replicatedJobs := [.single "workers" 1]
      failurePolicy := some ⟨2 ^ 31 - 1, .inPlaceRestart, []⟩ } }

theorem onePod_config {js : JobSet} (hspec : js.spec = onePod.spec)
    (hannotations : js.annotations = ∅) : Config 1 js := by
  refine ⟨?_, ?_⟩
  · simp only [shouldBypassBarrier, isInPlaceRestartStrategy, hspec, hannotations]
    rfl
  · simp only [getTotalNumberOfPods, hspec]
    simp [onePod, totalPods, ReplicatedJob.single, Except.map, int32]

/-- The pod of the run, with its annotation. -/
def thePod (annotations : StrMap) : PodObject := ⟨0, 0, ⟨"train-workers-0-0", ∅, annotations, .podRunning, [], []⟩⟩

/-- The status of the run when the current attempt is the one before level `n`. -/
def statusBefore (n : ℤ) : JobSetStatus :=
  { JobSetStatus.new with currentInPlaceRestartAttempt := if n = 0 then none else some (n - 1) }

/-- The run has come to the attempt before level `n`, and no process is alive. -/
structure Waiting (n : ℤ) (w : World) : Prop where
  reachable : Reachable 1 w
  spec : w.jobSets.current.spec = onePod.spec
  annotations : w.jobSets.current.annotations = ∅
  status : w.jobSets.current.status = statusBefore n
  pod : ∃ annotations, w.pods.current = [thePod annotations]
  idle : w.processes 0 = none
  caches : w.controller.jobSetSeen ≤ w.jobSets.top ∧ w.controller.podsSeen ≤ w.pods.top

theorem Reachable.step {w w' : World} (hw : Reachable N w) (hstep : Step N w w') :
    Reachable N w' := by
  obtain ⟨w₀, hinit, hrun⟩ := hw
  exact ⟨w₀, hinit, hrun.tail hstep⟩

/-- The state before anything has happened. -/
def emptyWorld : World :=
  ⟨.single onePod, .single [], fun _ => none, 0, 0, ⟨0, 0, none⟩, []⟩

theorem emptyWorld_reachable : Reachable 1 emptyWorld := by
  refine ⟨emptyWorld, ⟨⟨onePod, rfl, onePod_config rfl rfl, rfl⟩, rfl, fun _ => rfl, rfl, rfl⟩, .refl⟩

theorem waiting_zero : ∃ w, Waiting 0 w := by
  have hstep : Step 1 emptyWorld _ :=
    .podCreated emptyWorld 0 (thePod ∅).pod Nat.one_pos (by simp [emptyWorld, History.current])
      (by simp [thePod])
  refine ⟨_, emptyWorld_reachable.step hstep, rfl, rfl, rfl, ⟨∅, ?_⟩, rfl, ?_⟩
  · exact History.push_current _ _
  · exact ⟨le_rfl, Nat.zero_le _⟩

/-- A step of an agent that changes no object. -/
structure SameObjects (w w' : World) : Prop where
  jobSets : w'.jobSets = w.jobSets
  pods : w'.pods = w.pods
  controller : w'.controller = w.controller
  trace : w'.trace = w.trace

/-- An idle process reconciles and reads the current JobSet. -/
theorem Reachable.read {w : World} (hw : Reachable N w) {uid : ℕ} {p : Process}
    (hp : w.processes uid = some p) (hrun : p.run = none) (hseen : p.seen ≤ w.jobSets.top) :
    ∃ w', Reachable N w' ∧ SameObjects w w' ∧
      w'.processes uid = some { p with
        seen := w.jobSets.top
        run := some ⟨⟨some w.jobSets.current, none, false⟩,
          reconcileRead p.memory (some w.jobSets.current), false⟩ } := by
  have hstart := hw.step (.agentStarts w uid p hp hrun)
  have hread := hstart.step (.agentReads _ uid
    { p with run := some ⟨.blank, agentReconcile p.memory, false⟩ }
    ⟨.blank, agentReconcile p.memory, false⟩ (reconcileRead p.memory) w.jobSets.top
    (by simp [World.setProcess]) rfl rfl hseen le_rfl)
  refine ⟨_, hread, ⟨rfl, rfl, rfl, rfl⟩, ?_⟩
  simp only [World.setProcess, Function.update_self]
  rfl

/-- A process starts in a pod and reads the current JobSet. -/
theorem Reachable.spawn {w : World} (hw : Reachable N w) {o : PodObject} (ho : o ∈ w.pods.current)
    (hnone : w.processes o.uid = none) :
    ∃ w', Reachable N w' ∧ SameObjects w w' ∧
      w'.processes o.uid = some ⟨w.pids, .new "run", w.jobSets.top, w.jobSets.top,
        some ⟨⟨some w.jobSets.current, none, false⟩,
          reconcileRead (.new "run") (some w.jobSets.current), false⟩⟩ := by
  have hstart := hw.step (.processStarted w o "run" ho hnone)
  obtain ⟨w', hw', hsame, hp⟩ := hstart.read (p := ⟨w.pids, .new "run", w.jobSets.top,
    w.jobSets.top, none⟩) (Function.update_self _ _ _) rfl le_rfl
  exact ⟨w', hw', ⟨hsame.jobSets, hsame.pods, hsame.controller, hsame.trace⟩, hp⟩

/-- A process starts, reads the JobSet and patches its pod. -/
theorem Waiting.patched {n : ℤ} {w : World} (h : Waiting n w) :
    ∃ w' annotations, Reachable 1 w' ∧ w'.jobSets = w.jobSets ∧ w'.controller = w.controller ∧
      w'.pods.top = w.pods.top + 1 ∧
      w'.pods.current = [(thePod annotations).annotate
        (newPodInPlaceRestartAttempt w.jobSets.current)] ∧
      w'.processes 0 = some ⟨w.pids, .new "run", w.jobSets.top, w.jobSets.top,
        some ⟨⟨some w.jobSets.current, none, false⟩,
          patchPodInPlaceRestartAttempt w.jobSets.current (.new "run"), true⟩⟩ := by
  obtain ⟨annotations, hpod⟩ := h.pod
  have hbypass := (onePod_config h.spec h.annotations).noBypass
  have hmem : thePod annotations ∈ w.pods.current := by simp [hpod]
  obtain ⟨w₁, hw₁, hsame, hp⟩ := h.reachable.spawn hmem h.idle
  have hrest : reconcileRead (.new "run") (some w.jobSets.current) =
      patchPodInPlaceRestartAttempt w.jobSets.current (.new "run") := by
    simp [reconcileRead, hbypass, InPlaceRestartAgent.new]
  rw [hrest] at hp
  have hland := hw₁.step (.patchLands w₁ 0 _ _ (newPodInPlaceRestartAttempt w.jobSets.current) _
    (thePod annotations) hp rfl rfl rfl (hsame.pods ▸ hmem) rfl)
  refine ⟨_, annotations, hland, hsame.jobSets, hsame.controller, ?_, ?_, ?_⟩
  · change (w₁.pods.push _).top = _
    rw [hsame.pods]
    rfl
  · change (w₁.pods.push _).current = _
    rw [History.push_current, hsame.pods, hpod]
    simp [replacePod]
  · simp only [Function.update_self]

/-- The controller releases the attempt of the one pod. -/
theorem onePod_release {js : JobSet} {n : ℤ} (hspec : js.spec = onePod.spec)
    (hstatus : js.status = statusBefore n) (hn : 0 ≤ n) (hmax : n < 2 ^ 31)
    (annotations : StrMap) :
    ∃ p', reconcileInPlaceRestart 0 [((thePod annotations).annotate n).pod] (.start js) = .ok p' ∧
      p'.js.status = statusBefore (n + 1) := by
  have hcut : int32 n = n := int32_of_range (by omega) hmax
  have hattempts : getPodInPlaceRestartAttempts [((thePod annotations).annotate n).pod] = .ok [n] := by
    simp [getPodInPlaceRestartAttempts, thePod, PodObject.annotate, atoi_itoa
      (show -(2 ^ 63) ≤ n by omega) (show n < 2 ^ 63 by omega), hn.not_gt, hcut, Except.map]
  have htotal : getTotalNumberOfPods js = .ok 1 := by
    have hconfig : Config 1 { js with annotations := ∅ } := onePod_config hspec rfl
    exact hconfig.expected
  have hexceeded : exceededMaxRestarts js (2 ^ 31 - 1) [n] = false := by
    have hzero : int32 0 = 0 := by decide
    simp [exceededMaxRestarts, hstatus, statusBefore, JobSetStatus.new, slicesMax, hcut, hzero]
    omega
  have hcount : getMaxContainerRestartCount [((thePod annotations).annotate n).pod] = 0 := rfl
  have hpolicy : js.spec.failurePolicy = some ⟨2 ^ 31 - 1, .inPlaceRestart, []⟩ := by
    rw [hspec]
    rfl
  refine ⟨updateCurrentInPlaceRestartAttempt [n] (.start js), ?_, ?_⟩
  · refine reconcileInPlaceRestart_release hpolicy ?_ hattempts ?_ htotal rfl
    · rw [hcount]
      norm_num
    · change ¬ exceededMaxRestarts js (2 ^ 31 - 1) [n] = true
      rw [hexceeded]
      exact Bool.false_ne_true
  · have hne : ¬ (Pass.start js).js.status.currentInPlaceRestartAttempt = some ([n].headD 0) := by
      change ¬ js.status.currentInPlaceRestartAttempt = some n
      rw [hstatus]
      simp only [statusBefore]
      split_ifs <;> simp
    unfold updateCurrentInPlaceRestartAttempt
    dsimp only
    rw [if_neg hne]
    change { js.status with currentInPlaceRestartAttempt := some n } = _
    rw [hstatus]
    simp [statusBefore, show n + 1 ≠ 0 by omega]

/-- The controller reads the current objects and writes the status. -/
theorem Reachable.release {w : World} (hw : Reachable N w)
    (hcaches : w.controller.jobSetSeen ≤ w.jobSets.top ∧ w.controller.podsSeen ≤ w.pods.top)
    {p' : Pass} (hok : reconcileInPlaceRestart 0 (w.pods.current.map (·.pod))
      (.start w.jobSets.current) = .ok p') :
    ∃ w', Reachable N w' ∧
      w'.jobSets = w.jobSets.push { w.jobSets.current with status := p'.js.status } ∧
      w'.pods = w.pods ∧ w'.processes = w.processes ∧
      w'.controller = ⟨w.jobSets.top, w.pods.top, none⟩ := by
  have hlist := hw.step (.controllerReads w w.jobSets.top w.pods.top hcaches.1 le_rfl hcaches.2
    le_rfl)
  have hwrite := hlist.step (.controllerWrites _ 0 w.jobSets.top w.pods.top
    (.start w.jobSets.current) p' rfl rfl rfl rfl hok)
  exact ⟨_, hwrite, rfl, rfl, rfl, rfl⟩

theorem Waiting.value {n : ℤ} {w : World} (h : Waiting n w) (hn : 0 ≤ n) (hmax : n < 2 ^ 31) :
    newPodInPlaceRestartAttempt w.jobSets.current = n := by
  unfold newPodInPlaceRestartAttempt
  rw [h.status]
  by_cases hzero : n = 0
  · simp [statusBefore, hzero]
  · simp [statusBefore, hzero, int32_of_range (show -(2 ^ 31) ≤ n by omega) hmax]

/-- One round: the process patches its pod and dies, and the controller releases the attempt. -/
theorem Waiting.round {n : ℤ} {w : World} (h : Waiting n w) (hn : 0 ≤ n) (hmax : n < 2 ^ 31) :
    ∃ w', Waiting (n + 1) w' := by
  obtain ⟨w₁, annotations, hw₁, hjobSets, hcontroller, htop, hpods, -⟩ := h.patched
  rw [h.value hn hmax] at hpods
  obtain ⟨p', hok, hstatus⟩ := onePod_release h.spec h.status hn hmax annotations
  have hdead := hw₁.step (.processDied w₁ 0)
  obtain ⟨w₂, hw₂, hjs, hp, hprocesses, hseen⟩ := hdead.release
    (by
      change w₁.controller.jobSetSeen ≤ w₁.jobSets.top ∧ w₁.controller.podsSeen ≤ w₁.pods.top
      rw [hcontroller, hjobSets, htop]
      exact ⟨h.caches.1, h.caches.2.trans (Nat.le_succ _)⟩)
    (by
      change reconcileInPlaceRestart 0 (w₁.pods.current.map (·.pod)) (.start w₁.jobSets.current) = _
      rw [hpods, hjobSets]
      exact hok)
  have hcurrent : w₂.jobSets.current = { w.jobSets.current with status := p'.js.status } := by
    rw [hjs, History.push_current, ← hjobSets]
    rfl
  refine ⟨w₂, hw₂, ?_, ?_, ?_, ?_, ?_, ?_⟩
  · rw [hcurrent]
    exact h.spec
  · rw [hcurrent]
    exact h.annotations
  · rw [hcurrent]
    exact hstatus
  · refine ⟨annotations.insert inPlaceRestartAttemptKey (itoa n), ?_⟩
    rw [hp]
    exact hpods
  · simp [hprocesses, World.setProcess]
  · rw [hseen, hjs, hp]
    exact ⟨Nat.le_succ _, le_rfl⟩

/-- The run reaches every attempt of the type. -/
theorem waiting_reaches (n : ℕ) (hn : n ≤ 2 ^ 31) : ∃ w, Waiting n w := by
  induction n with
  | zero => exact waiting_zero
  | succ n ih =>
    obtain ⟨w, hw⟩ := ih (by omega)
    obtain ⟨w', hw'⟩ := hw.round (by omega) (by omega)
    exact ⟨w', by exact_mod_cast hw'⟩

/-- The run in which the first process of the pod stays alive until its worker runs. -/
theorem onePod_starts :
    ∃ w pid pre, Reachable 1 w ∧ w.trace = .workerStarted 0 pid (some 0) :: pre := by
  obtain ⟨w, hw⟩ := waiting_zero
  obtain ⟨w₁, annotations, hw₁, hjobSets, hcontroller, htop, hpods, hp⟩ := hw.patched
  rw [hw.value le_rfl (by norm_num)] at hpods
  -- the patch is acknowledged and the reconcile ends behind the barrier
  have hack := hw₁.step (.patchReturns w₁ 0 _ _ (newPodInPlaceRestartAttempt w.jobSets.current) _ true
    hp rfl rfl fun _ => rfl)
  have hmem : handleRestartAndBarrier w.jobSets.current ⟨"run", some 0, true⟩ =
      .done ⟨"run", some 0, true⟩ := by
    simp [handleRestartAndBarrier, isOutdated, isSynced, hw.status, statusBefore, JobSetStatus.new]
  have hreturn := hack.step (.agentReturns _ 0 _ _ ⟨"run", some 0, true⟩
    (by simp only [World.setProcess, Function.update_self]; rfl) rfl
    (by rw [← hmem, ← hw.value le_rfl (by norm_num)]; rfl))
  obtain ⟨p', hok, hstatus⟩ := onePod_release hw.spec hw.status le_rfl (by norm_num) annotations
  obtain ⟨w₂, hw₂, hjs, -, hprocesses, -⟩ := hreturn.release
    (by
      change w₁.controller.jobSetSeen ≤ w₁.jobSets.top ∧ w₁.controller.podsSeen ≤ w₁.pods.top
      rw [hcontroller, hjobSets, htop]
      exact ⟨hw.caches.1, hw.caches.2.trans (Nat.le_succ _)⟩)
    (by
      change reconcileInPlaceRestart 0 (w₁.pods.current.map (·.pod)) (.start w₁.jobSets.current) = _
      rw [hpods, hjobSets]
      exact hok)
  have hcurrent : w₂.jobSets.current = { w.jobSets.current with status := p'.js.status } := by
    rw [hjs, History.push_current, ← hjobSets]
    rfl
  -- it reads the released attempt and lifts the barrier
  have hidle : w₂.processes 0 = some ⟨w.pids, ⟨"run", some 0, true⟩, w.jobSets.top, w.jobSets.top,
      none⟩ := by
    simp only [hprocesses, World.setProcess, Function.update_self]
  obtain ⟨w₃, hw₃, -, hp₃⟩ := hw₂.read hidle rfl (by rw [hjs]; exact hjobSets ▸ Nat.le_succ _)
  have hlift : reconcileRead ⟨"run", some 0, true⟩ (some w₂.jobSets.current) =
      liftBarrier ⟨"run", some 0, true⟩ := by
    have hbypass : shouldBypassBarrier w₂.jobSets.current = false := by
      rw [hcurrent]
      exact (onePod_config hw.spec hw.annotations).noBypass
    have hst : w₂.jobSets.current.status = statusBefore 1 := by
      rw [hcurrent]
      exact hstatus
    simp [reconcileRead, hbypass, handleRestartAndBarrier, isOutdated, isSynced, hst, statusBefore,
      JobSetStatus.new]
  rw [hlift] at hp₃
  have hstart := hw₃.step (.workerStarts w₃ 0 _ _ _ (some 0) _ hp₃ rfl rfl)
  exact ⟨_, w.pids, w₃.trace, hstart, rfl⟩

end JobSetOperator.InPlace
