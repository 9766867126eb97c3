import JobSetOperator.InPlace.Barrier
import JobSetOperator.Library.Epochs

/-!
# Turns of the parties

When nothing goes wrong any more, an agent finishes the reconcile it is in, is started
again in place when it has exited, and reconciles once with a fresh read; a pod that is
missing is created anew. The controller reads everything and writes what its reconcile
decides. `memberTurn` and `controllerTurn` are such turns as functions on states. Each is
a run of steps, so the invariant of the barrier holds after it.

A process announces on its pod what it remembers (`Announced`): between two turns the
controller sees the attempt that the process is in.
-/
namespace JobSetOperator.InPlace

open Library Library.Program

/-! ## What a process remembers is on its pod -/

/-- The process is in the attempt, or has patched it in the reconcile under way. -/
def Process.Carries (p : Process) (x : ℤ) : Prop :=
  p.memory.podInPlaceRestartAttempt = some x ∨ ∃ run, p.run = some run ∧
    (run.view.patched = some x ∨
      run.landed = true ∧ ∃ k, run.rest = .call (.applyAttempt x) k)

/-- The pods carry the attempts of their processes, the controller has seen no version of the
JobSet that does not exist, and the outdated attempts are natural numbers. -/
structure Announced (w : World) : Prop where
  carried : ∀ uid p x, w.processes uid = some p → p.Carries x → ∀ o ∈ w.pods.current,
    o.uid = uid → o.rawAttempt = some (itoa x)
  seen : w.controller.jobSetSeen ≤ w.jobSets.top
  natural : ∀ p, w.jobSets.current.status.previousInPlaceRestartAttempt = some p → 0 ≤ p

/-- A process that carries nothing new. -/
theorem Announced.setProcess {w : World} (h : Announced w) {uid : ℕ} {p p' : Process}
    (hp : w.processes uid = some p) (hcarries : ∀ x, p'.Carries x → p.Carries x) :
    Announced (w.setProcess uid (some p')) where
  carried u q x hq hx := by
    rcases process_update_cases hq with ⟨rfl, rfl⟩ | ⟨-, hold⟩
    · exact h.carried u p x hp (hcarries x hx)
    · exact h.carried u q x hold hx
  seen := h.seen
  natural := h.natural

theorem Announced.removeProcess {w : World} (h : Announced w) (uid : ℕ) :
    Announced (w.setProcess uid none) where
  carried u q x hq := by
    by_cases hu : u = uid
    · subst hu
      simp [World.setProcess] at hq
    · exact h.carried u q x (by simpa [World.setProcess, hu] using hq)
  seen := h.seen
  natural := h.natural

/-- New pods, each with the attempt of an old one or without a process. -/
theorem Announced.pushPods {w : World} (h : Announced w) {l : List PodObject} {uids : ℕ}
    (hpods : ∀ o ∈ l, w.processes o.uid = none ∨
      ∃ o' ∈ w.pods.current, o'.uid = o.uid ∧ o'.rawAttempt = o.rawAttempt) :
    Announced { w with pods := w.pods.push l, uids := uids } where
  carried u p x hp hx o ho huid := by
    change o ∈ (w.pods.push l).current at ho
    rw [History.push_current] at ho
    rcases hpods o ho with hnone | ⟨o', ho', huid', hraw⟩
    · rw [huid] at hnone
      rw [hnone] at hp
      cases hp
    · rw [← hraw]
      exact h.carried u p x hp hx o' ho' (huid'.trans huid)
  seen := h.seen
  natural := h.natural

theorem carries_answer {p : Process} {run : AgentRun} {r : AgentRequest}
    {k : r.Response → AgentProgram} {x : r.Response} {seen : ℕ}
    (hpatched : ∀ y, (run.view.next r x).patched = some y → p.Carries y) {y : ℤ}
    (h : Process.Carries { p with seen := seen, run := some (run.answer r k x) } y) :
    p.Carries y := by
  rcases h with hmemory | ⟨run', hrun', hy⟩
  · exact Or.inl hmemory
  · cases hrun'
    rcases hy with hy | ⟨hlanded, -⟩
    · exact hpatched y hy
    · cases hlanded

/-- The controller only counts attempts below a natural number as outdated. -/
theorem Announced.natural_write {w : World} (h : Announced w) (hinv : Inv N w) {now : Time}
    {version s : ℕ} {p p' : Pass} (hreading : w.controller.reading = some (version, s))
    (hcounters : p.js.status.inPlaceCounters = w.jobSets.current.status.inPlaceCounters)
    (hok : reconcileInPlaceRestart now ((w.pods.entry s).map (·.pod)) p = .ok p') (x : ℤ)
    (hx : p'.js.status.previousInPlaceRestartAttempt = some x) : 0 ≤ x := by
  have hprev := congrArg Prod.fst hcounters
  obtain ⟨hs, -⟩ := hinv.log.reading version s hreading
  have hstop : s ≤ w.pods.top := hs ▸ hinv.log.seen
  rcases reconcileInPlaceRestart_cases hok with hsame | ⟨_, _, -, -, -, -, hset⟩ |
    ⟨attempts, hattempts, hnil, hne, -, hset⟩
  · exact h.natural x (((congrArg Prod.fst hsame).trans hprev).symm.trans hx)
  · exact h.natural x (((congrArg Prod.fst hset).trans hprev).symm.trans hx)
  · have hrange := hinv.pods.attempts_levels hstop hattempts (slicesMax_mem hnil)
    rw [int32_of_range (n := slicesMax attempts - 1) (by omega) (by omega)] at hset
    have hvalue : some (slicesMax attempts - 1) = some x := (congrArg Prod.fst hset).symm.trans hx
    have := Option.some.inj hvalue
    omega

theorem step_announced {w w' : World} (hinv : Inv N w) (h : Announced w) (hstep : Step N w w') :
    Announced w' := by
  have hfresh : w.processes w.uids = none := by
    cases hp : w.processes w.uids with
    | none => rfl
    | some p => exact absurd (hinv.processes.ok _ p hp).2.1 (lt_irrefl _)
  cases hstep with
  | podCreated index pod hindex hfree hnew =>
    apply h.pushPods
    intro o ho
    rcases List.mem_cons.mp ho with rfl | ho
    · exact Or.inl hfresh
    · exact Or.inr ⟨o, ho, rfl, rfl⟩
  | podChanged o o' ho huid hindex hann hfailed =>
    apply h.pushPods
    intro x hx
    rcases mem_replacePod hx with rfl | ⟨hold, -⟩
    · exact Or.inr ⟨o, ho, huid.symm, hann.symm⟩
    · exact Or.inr ⟨x, hold, rfl, rfl⟩
  | podRemoved uid =>
    apply h.pushPods
    exact fun o ho => Or.inr ⟨o, (List.mem_filter.mp ho).1, rfl, rfl⟩
  | processStarted o workerCommand ho hnone =>
    refine ⟨fun u p x hp hx => ?_, h.seen, h.natural⟩
    rcases process_update_cases hp with ⟨rfl, rfl⟩ | ⟨-, hold⟩
    · rcases hx with hx | ⟨run, hrun, -⟩
      · cases hx
      · cases hrun
    · exact h.carried u p x hold hx
  | processDied uid => exact h.removeProcess uid
  | agentStarts uid p hp hrun =>
    apply h.setProcess hp
    rintro x (hx | ⟨run, hr, hx⟩)
    · exact Or.inl hx
    · cases hr
      rcases hx with hx | ⟨hlanded, -⟩
      · cases hx
      · cases hlanded
  | agentReads uid p run k version hp hrun hrest hseen htop =>
    apply h.setProcess hp
    intro x
    apply carries_answer (r := .getJobSet)
    exact fun y hy => Or.inr ⟨run, hrun, Or.inl hy⟩
  | agentReadFails uid p run k hp hrun hrest =>
    apply h.setProcess hp
    intro x
    apply carries_answer (r := .getJobSet)
    exact fun y hy => Or.inr ⟨run, hrun, Or.inl hy⟩
  | patchLands uid p run value k o hp hrun hrest hlanded ho huid =>
    subst huid
    obtain ⟨hview, hmemory, -⟩ := hinv.patchValue hp hrun hrest
    refine ⟨fun u q x hq hx o' ho' huid => ?_, h.seen, h.natural⟩
    change o' ∈ (w.pods.push _).current at ho'
    rw [History.push_current] at ho'
    rcases process_update_cases hq with ⟨rfl, rfl⟩ | ⟨hne, hold⟩
    · -- the process whose patch has landed carries the value of the patch and nothing else
      have hvalue : x = value := by
        rcases hx with hx | ⟨run', hrun', hx | ⟨-, k', hx⟩⟩
        · exact absurd (hmemory.symm.trans hx) (by simp)
        · cases hrun'
          rw [hview] at hx
          cases hx
        · cases hrun'
          rw [hrest] at hx
          cases hx
          rfl
      rcases mem_replacePod ho' with rfl | ⟨-, hother⟩
      · rw [PodObject.annotate_rawAttempt, hvalue]
      · exact absurd huid hother
    · rcases mem_replacePod ho' with rfl | ⟨hmem, -⟩
      · exact absurd huid.symm hne
      · exact h.carried u q x hold hx o' hmem huid
  | patchReturns uid p run value k ok hp hrun hrest hok =>
    obtain ⟨hview, -, -⟩ := hinv.patchValue hp hrun hrest
    apply h.setProcess hp
    intro x
    apply carries_answer (r := .applyAttempt value)
    intro y hy
    rw [hview] at hy
    cases ok with
    | false => cases hy
    | true =>
      obtain rfl : value = y := Option.some.inj hy
      exact Or.inr ⟨run, hrun, Or.inr ⟨hok rfl, k, hrest⟩⟩
  | workerStarts uid p run sidecar attempt k hp hrun hrest =>
    have hcarries : ∀ x, Process.Carries
        { p with run := some (run.answer (.startWorker sidecar attempt) k ()) } x → p.Carries x :=
      fun x => carries_answer (r := .startWorker sidecar attempt) fun y hy =>
        Or.inr ⟨run, hrun, Or.inl hy⟩
    have hset := h.setProcess hp hcarries
    exact ⟨hset.carried, hset.seen, hset.natural⟩
  | agentExits uid p run k hp hrun hrest => exact h.removeProcess uid
  | agentReturns uid p run r hp hrun hrest =>
    apply h.setProcess hp
    rintro x (hx | ⟨run', hr, -⟩)
    · have hreturns := ((hinv.processes.ok uid p hp).1.run run hrun).1
      rw [hrest, follows_done] at hreturns
      rcases AgentView.attempt_cases (hreturns.1.symm.trans hx) with hx | hx
      · exact Or.inl hx
      · exact Or.inr ⟨run, hrun, Or.inl hx⟩
    · cases hr
  | controllerReads version position hversion hvtop hposition hptop =>
    exact ⟨h.carried, hvtop, h.natural⟩
  | controllerWrites now version position p p' hreading hcurrent hspec hcounters hok =>
    refine ⟨h.carried, h.seen.trans (Nat.le_succ _), fun q hq => ?_⟩
    rw [History.push_current] at hq
    exact h.natural_write hinv hreading hcounters hok q hq
  | jobSetChanged js hconfig hcounters =>
    refine ⟨h.carried, h.seen.trans (Nat.le_succ _), fun q hq => ?_⟩
    rw [History.push_current] at hq
    exact h.natural q ((congrArg Prod.fst hcounters).symm.trans hq)

theorem reachable_announced {w : World} (hw : Reachable N w) : Announced w := by
  obtain ⟨w₀, hinit, hrun⟩ := hw
  have hstart : Inv N w₀ ∧ Announced w₀ := by
    obtain ⟨js, hjs, -, hstatus⟩ := hinit.jobSets
    refine ⟨init_inv hinit, fun uid p x hp => ?_, ?_, fun q hq => ?_⟩
    · rw [hinit.processes uid] at hp
      cases hp
    · rw [hinit.controller]
      exact Nat.zero_le _
    · rw [hjs, History.single_current, hstatus] at hq
      cases hq
  have hboth : Inv N w ∧ Announced w := by
    induction hrun with
    | refl => exact hstart
    | tail _ hstep ih => exact ⟨step_inv ih.1 hstep, step_announced ih.1 ih.2 hstep⟩
  exact hboth.2

/-! ## Turns -/

/-- The pod of an index that has not failed. -/
def podAt (index : ℕ) (pods : List PodObject) : Option PodObject :=
  pods.find? fun o => o.index = index ∧ ¬ o.failed

/-- The pod with a uid. -/
def podOf (uid : ℕ) (pods : List PodObject) : Option PodObject := pods.find? fun o => o.uid = uid

/-- The patch of the annotation takes effect on the pod if it is still there. -/
def World.land (uid : ℕ) (value : ℤ) (w : World) : World :=
  match podOf uid w.pods.current with
  | some o => { w with pods := w.pods.push (replacePod (o.annotate value) w.pods.current) }
  | none => w

/-- The process goes on with its reconcile, each call being answered as it should: reads are
fresh and patches take effect. -/
def World.drive (uid : ℕ) : AgentProgram → Process → AgentView → Bool → World → World
  | .done r, p, _, _, w => w.setProcess uid (some { p with memory := r, run := none })
  | .fail e, _, _, _, _ => e.elim
  | .call .getJobSet k, p, view, _, w =>
    let js := w.jobSets.current
    let p := { p with seen := w.jobSets.top }
    World.drive uid (k (some js)) p (view.next .getJobSet (some js)) false
      (w.setProcess uid (some { p with run := some ⟨view.next .getJobSet (some js), k (some js), false⟩ }))
  | .call (.applyAttempt value) k, p, view, landed, w =>
    let ok := landed || (podOf uid w.pods.current).isSome
    World.drive uid (k ok) p (view.next (.applyAttempt value) ok) false
      ((if landed then w else w.land uid value).setProcess uid
        (some { p with run := some ⟨view.next (.applyAttempt value) ok, k ok, false⟩ }))
  | .call (.startWorker sidecar attempt) k, p, view, _, w =>
    World.drive uid (k ()) p (view.next (.startWorker sidecar attempt) ()) false
      { w with
        processes := Function.update w.processes uid (some { p with
          run := some ⟨view.next (.startWorker sidecar attempt) (), k (), false⟩ })
        trace := .workerStarted uid p.id attempt :: w.trace }
  | .call .exit _, _, _, _, w => w.setProcess uid none

/-- The process finishes the reconcile it is in. -/
def World.finish (uid : ℕ) (w : World) : World :=
  match w.processes uid with
  | some p =>
    match p.run with
    | some run => w.drive uid run.rest p run.view run.landed
    | none => w
  | none => w

/-- The kubelet starts a process in a pod that has none. -/
def World.ensureProcess (uid : ℕ) (workerCommand : String) (w : World) : World :=
  match w.processes uid with
  | some _ => w
  | none =>
    { w with
      processes := Function.update w.processes uid
        (some ⟨w.pids, .new workerCommand, w.jobSets.top, w.jobSets.top, none⟩)
      pids := w.pids + 1 }

/-- One whole reconcile of the process. -/
def World.reconcile (uid : ℕ) (w : World) : World :=
  match w.processes uid with
  | some p =>
    World.drive uid (agentReconcile p.memory) p .blank false
      (w.setProcess uid (some { p with run := some ⟨.blank, agentReconcile p.memory, false⟩ }))
  | none => w

/-- A missing pod is created, without the annotation. -/
def World.ensurePod (index : ℕ) (pod : Pod) (w : World) : World :=
  match podAt index w.pods.current with
  | some _ => w
  | none =>
    { w with
      pods := w.pods.push (⟨w.uids, index, { pod with
        annotations := pod.annotations.erase inPlaceRestartAttemptKey
        phase := .podPending }⟩ :: w.pods.current)
      uids := w.uids + 1 }

/-- The turn of the agent of one index. -/
def World.memberTurn (index : ℕ) (pod : Pod) (workerCommand : String) (w : World) : World :=
  match podAt index (w.ensurePod index pod).pods.current with
  | some o =>
    (((w.ensurePod index pod).finish o.uid).ensureProcess o.uid workerCommand).reconcile o.uid
  | none => w

/-- The controller reads everything. -/
def World.read (w : World) : World :=
  { w with
    controller := ⟨w.jobSets.top, w.pods.top, some (w.jobSets.top, w.pods.top)⟩
    trace := .snapshot w.pods.current :: w.trace }

/-- The turn of the controller. A JobSet that has finished is left alone. -/
def World.controllerTurn (now : Time) (w : World) : World :=
  if jobSetFinished w.jobSets.current then w.read
  else
    match reconcileInPlaceRestart now (w.pods.current.map (·.pod)) (.start w.jobSets.current) with
    | .error _ => w.read
    | .ok p =>
      if p.opts.shouldUpdate then
        { w.read with
          jobSets := w.jobSets.push { w.jobSets.current with status := p.js.status }
          controller := ⟨w.jobSets.top, w.pods.top, none⟩ }
      else w.read

/-- The kubelet reports on a pod that runs, for one how often its containers have restarted. -/
def World.reportTurn (o' : PodObject) (w : World) : World :=
  match podOf o'.uid w.pods.current with
  | some o =>
    if o'.index = o.index ∧ o'.rawAttempt = o.rawAttempt ∧ ¬ o.failed ∧ ¬ o'.failed then
      { w with pods := w.pods.push (replacePod o' w.pods.current) }
    else w
  | none => w

/-- A turn, with everything that the party does not choose. -/
inductive Turn
  | agent (index : ℕ) (pod : Pod) (workerCommand : String)
  | controller (now : Time)
  | kubelet (report : PodObject)

def World.turn (N : ℕ) (w : World) : Turn → World
  | .agent index pod workerCommand =>
    if index < N then w.memberTurn index pod workerCommand else w
  | .controller now => w.controllerTurn now
  | .kubelet report => w.reportTurn report

/-! ## Turns are runs of steps -/

section Runs

variable {N : ℕ} {w : World} {uid : ℕ}

theorem podAt_some {index : ℕ} {pods : List PodObject} {o : PodObject}
    (h : podAt index pods = some o) : o ∈ pods ∧ o.index = index ∧ ¬ o.failed := by
  have hprop := List.find?_some h
  exact ⟨List.mem_of_find?_eq_some h, by simpa using hprop⟩

theorem podAt_isSome {index : ℕ} {pods : List PodObject} {o : PodObject} (ho : o ∈ pods)
    (hindex : o.index = index) (hf : ¬ o.failed) : (podAt index pods).isSome = true := by
  unfold podAt
  rw [List.find?_isSome]
  exact ⟨o, ho, by simp [hindex, hf]⟩

theorem podOf_some {pods : List PodObject} {o : PodObject} (h : podOf uid pods = some o) :
    o ∈ pods ∧ o.uid = uid := by
  have hprop := List.find?_some h
  exact ⟨List.mem_of_find?_eq_some h, by simpa using hprop⟩

theorem podOf_of_mem {pods : List PodObject} (hpods : Distinct pods) {o : PodObject}
    (ho : o ∈ pods) : podOf o.uid pods = some o := by
  cases hfind : podOf o.uid pods with
  | none =>
    unfold podOf at hfind
    rw [List.find?_eq_none] at hfind
    exact absurd (hfind o ho) (by simp)
  | some o' =>
    obtain ⟨ho', huid⟩ := podOf_some hfind
    by_contra hne
    exact (hpods.apart ho' ho fun he => hne (congrArg some he)).1 huid

/-- The rest of a reconcile is a run of steps. -/
theorem Reachable.drive (prog : AgentProgram) : ∀ {w : World} {p : Process} {view : AgentView}
    {landed : Bool}, Reachable N w → p.seen ≤ w.jobSets.top →
    w.processes uid = some { p with run := some ⟨view, prog, landed⟩ } →
    Reachable N (w.drive uid prog p view landed) := by
  induction prog with
  | done r =>
    intro w p view landed hw hseen hp
    exact hw.step (.agentReturns w uid { p with run := some ⟨view, .done r, landed⟩ } _ r hp rfl rfl)
  | fail e => exact e.elim
  | call r k ih =>
    intro w p view landed hw hseen hp
    cases r with
    | getJobSet =>
      have hstep := hw.step (.agentReads w uid _ _ k w.jobSets.top hp rfl rfl hseen le_rfl)
      exact ih _ hstep le_rfl (Function.update_self _ _ _)
    | applyAttempt value =>
      cases landed with
      | true =>
        have hstep := hw.step (.patchReturns w uid _ _ value k true hp rfl rfl fun _ => rfl)
        exact ih _ hstep hseen (Function.update_self _ _ _)
      | false =>
        cases hpod : podOf uid w.pods.current with
        | none =>
          have hstep := hw.step (.patchReturns w uid _ _ value k false hp rfl rfl (by simp))
          have hrest := ih _ hstep hseen (Function.update_self _ _ _)
          unfold World.drive
          simpa [World.land, hpod, AgentRun.answer] using hrest
        | some o =>
          obtain ⟨ho, huid⟩ := podOf_some hpod
          have hland := hw.step (.patchLands w uid _ _ value k o hp rfl rfl rfl ho huid)
          have hstep := hland.step (.patchReturns _ uid _ _ value k true
            (Function.update_self _ _ _) rfl rfl fun _ => rfl)
          have hrest := ih _ hstep hseen (Function.update_self _ _ _)
          unfold World.drive
          simpa [World.land, hpod, World.setProcess, AgentRun.answer] using hrest
    | startWorker sidecar attempt =>
      have hstep := hw.step (.workerStarts w uid _ _ sidecar attempt k hp rfl rfl)
      exact ih _ hstep hseen (Function.update_self _ _ _)
    | exit => exact hw.step (.agentExits w uid _ _ k hp rfl rfl)

theorem Reachable.finish (hw : Reachable N w) (uid : ℕ) : Reachable N (w.finish uid) := by
  unfold World.finish
  cases hp : w.processes uid with
  | none => exact hw
  | some p =>
    cases hrun : p.run with
    | none =>
      dsimp only
      rw [hrun]
      exact hw
    | some run =>
      dsimp only
      rw [hrun]
      apply hw.drive
      · exact ((reachable_inv hw).processes.ok uid p hp).1.seen
      · rw [hp, ← hrun]

theorem Reachable.ensureProcess (hw : Reachable N w) {o : PodObject} (ho : o ∈ w.pods.current)
    (workerCommand : String) : Reachable N (w.ensureProcess o.uid workerCommand) := by
  unfold World.ensureProcess
  cases hp : w.processes o.uid with
  | some p => exact hw
  | none => exact hw.step (.processStarted w o workerCommand ho hp)

theorem Reachable.reconcile (hw : Reachable N w) (hidle : ∀ p, w.processes uid = some p →
    p.run = none) : Reachable N (w.reconcile uid) := by
  unfold World.reconcile
  cases hp : w.processes uid with
  | none => exact hw
  | some p =>
    have hstart := hw.step (.agentStarts w uid p hp (hidle p hp))
    apply hstart.drive
    · exact ((reachable_inv hw).processes.ok uid p hp).1.seen
    · exact Function.update_self _ _ _

theorem Reachable.ensurePod (hw : Reachable N w) {index : ℕ} (hindex : index < N) (pod : Pod) :
    Reachable N (w.ensurePod index pod) := by
  unfold World.ensurePod
  cases hpod : podAt index w.pods.current with
  | some o => exact hw
  | none =>
    apply hw.step
    apply Step.podCreated w index _ hindex
    · intro o ho hi
      by_contra hf
      have hsome := podAt_isSome ho hi hf
      rw [hpod] at hsome
      cases hsome
    · exact Finmap.lookup_erase _ _

/-! ## What an agent's turn leaves alone -/

/-- At most the process of one pod and the annotation of the pod have changed. -/
structure Own (uid : ℕ) (w w' : World) : Prop where
  jobSets : w'.jobSets = w.jobSets
  processes : ∀ u, u ≠ uid → w'.processes u = w.processes u
  others : ∀ o ∈ w.pods.current, o.uid ≠ uid → o ∈ w'.pods.current
  pod : ∀ o ∈ w.pods.current, o.uid = uid → ∃ o' ∈ w'.pods.current, o'.uid = uid ∧
    o'.index = o.index ∧ (o'.failed ↔ o.failed)

theorem Own.refl (uid : ℕ) (w : World) : Own uid w w :=
  ⟨rfl, fun _ _ => rfl, fun _ ho _ => ho, fun o ho huid => ⟨o, ho, huid, rfl, Iff.rfl⟩⟩

theorem Own.trans {w₁ w₂ w₃ : World} (h : Own uid w₁ w₂) (h' : Own uid w₂ w₃) : Own uid w₁ w₃ where
  jobSets := h'.jobSets.trans h.jobSets
  processes u hu := (h'.processes u hu).trans (h.processes u hu)
  others o ho hu := h'.others o (h.others o ho hu) hu
  pod o ho hu := by
    obtain ⟨o₂, ho₂, hu₂, hindex₂, hfailed₂⟩ := h.pod o ho hu
    obtain ⟨o₃, ho₃, hu₃, hindex₃, hfailed₃⟩ := h'.pod o₂ ho₂ hu₂
    exact ⟨o₃, ho₃, hu₃, hindex₃.trans hindex₂, hfailed₃.trans hfailed₂⟩

/-- Only the process changes. -/
theorem Own.process {w w' : World} (hjobSets : w'.jobSets = w.jobSets) (hpods : w'.pods = w.pods)
    (hprocesses : ∀ u, u ≠ uid → w'.processes u = w.processes u) : Own uid w w' where
  jobSets := hjobSets
  processes := hprocesses
  others _ ho _ := hpods ▸ ho
  pod o ho hu := ⟨o, hpods ▸ ho, hu, rfl, Iff.rfl⟩

@[simp] theorem setProcess_self (uid : ℕ) (p : Option Process) (w : World) :
    (w.setProcess uid p).processes uid = p := Function.update_self _ _ _

theorem own_setProcess (uid : ℕ) (p : Option Process) (w : World) : Own uid w (w.setProcess uid p) :=
  Own.process rfl rfl fun _ hu => Function.update_of_ne hu _ _

theorem replacePod_mem (o' : PodObject) {pods : List PodObject} {o : PodObject} (ho : o ∈ pods) :
    (o.uid = o'.uid ∧ o' ∈ replacePod o' pods) ∨ (o.uid ≠ o'.uid ∧ o ∈ replacePod o' pods) := by
  unfold replacePod
  by_cases hu : o.uid = o'.uid
  · exact Or.inl ⟨hu, List.mem_map.mpr ⟨o, ho, if_pos hu⟩⟩
  · exact Or.inr ⟨hu, List.mem_map.mpr ⟨o, ho, if_neg hu⟩⟩

theorem own_land (uid : ℕ) (value : ℤ) {w : World} (hpods : Distinct w.pods.current) :
    Own uid w (w.land uid value) := by
  unfold World.land
  split
  · next o hfind =>
    refine ⟨rfl, fun _ _ => rfl, fun x hx hu => ?_, fun x hx hu => ?_⟩
    · change x ∈ (w.pods.push _).current
      rw [History.push_current]
      rcases replacePod_mem (o.annotate value) hx with ⟨hsame, -⟩ | ⟨-, hmem⟩
      · exact absurd (hsame.trans (podOf_some hfind).2) hu
      · exact hmem
    · have hxo : x = o := Option.some.inj ((podOf_of_mem hpods hx).symm.trans (hu ▸ hfind))
      subst hxo
      refine ⟨x.annotate value, ?_, hu, rfl, Iff.rfl⟩
      change _ ∈ (w.pods.push _).current
      rw [History.push_current]
      rcases replacePod_mem (x.annotate value) hx with ⟨-, hmem⟩ | ⟨hne, -⟩
      · exact hmem
      · exact absurd rfl hne
  · exact Own.refl uid w

theorem land_distinct {value : ℤ} (hpods : Distinct w.pods.current) :
    Distinct (w.land uid value).pods.current := by
  unfold World.land
  split
  · next o hfind =>
    change Distinct (w.pods.push _).current
    rw [History.push_current]
    exact distinct_replacePod hpods (podOf_some hfind).1 rfl rfl id
  · exact hpods

/-- Nothing else has changed, and the process is idle or gone. -/
def Finishes (uid : ℕ) (w w' : World) : Prop :=
  Own uid w w' ∧ ∀ p, w'.processes uid = some p → p.run = none

theorem Finishes.after {w₁ w₂ w₃ : World} (h : Finishes uid w₂ w₃) (h' : Own uid w₁ w₂) :
    Finishes uid w₁ w₃ := ⟨h'.trans h.1, h.2⟩

theorem finishes_setProcess {q : Option Process} (hq : ∀ p, q = some p → p.run = none) :
    Finishes uid w (w.setProcess uid q) := by
  refine ⟨own_setProcess uid q w, fun p hp => hq p ?_⟩
  rwa [setProcess_self] at hp

theorem drive_finishes (prog : AgentProgram) : ∀ {w : World} {p : Process} {view : AgentView}
    {landed : Bool}, Distinct w.pods.current →
    Finishes uid w (w.drive uid prog p view landed) := by
  induction prog with
  | done r =>
    intro w p view landed hpods
    apply finishes_setProcess
    rintro q ⟨⟩
    rfl
  | fail e => exact e.elim
  | call r k ih =>
    intro w p view landed hpods
    cases r with
    | getJobSet =>
      apply Finishes.after
      · exact ih _ hpods
      · exact own_setProcess uid _ w
    | applyAttempt value =>
      have hland : Own uid w (if landed then w else w.land uid value) ∧
          Distinct (if landed then w else w.land uid value).pods.current := by
        split_ifs
        · exact ⟨Own.refl uid w, hpods⟩
        · exact ⟨own_land uid value hpods, land_distinct hpods⟩
      apply Finishes.after
      · exact ih _ hland.2
      · exact hland.1.trans (own_setProcess uid _ _)
    | startWorker sidecar attempt =>
      apply Finishes.after
      · exact ih _ hpods
      · exact Own.process rfl rfl fun u hu => Function.update_of_ne hu _ _
    | exit =>
      apply finishes_setProcess
      rintro q ⟨⟩

theorem finish_finishes (uid : ℕ) (hpods : Distinct w.pods.current) :
    Finishes uid w (w.finish uid) := by
  unfold World.finish
  cases hp : w.processes uid with
  | none =>
    refine ⟨Own.refl uid w, fun q hq => ?_⟩
    rw [hp] at hq
    cases hq
  | some p =>
    cases hrun : p.run with
    | none =>
      dsimp only
      rw [hrun]
      refine ⟨Own.refl uid w, fun q hq => ?_⟩
      rw [hp, Option.some.injEq] at hq
      exact hq ▸ hrun
    | some run =>
      dsimp only
      rw [hrun]
      exact drive_finishes run.rest hpods

/-- A process runs in the pod, and it is idle. -/
theorem ensureProcess_idle (hidle : ∀ p, w.processes uid = some p → p.run = none)
    (workerCommand : String) :
    Own uid w (w.ensureProcess uid workerCommand) ∧ ∃ p,
      (w.ensureProcess uid workerCommand).processes uid = some p ∧ p.run = none := by
  unfold World.ensureProcess
  cases hp : w.processes uid with
  | some p => exact ⟨Own.refl uid w, p, hp, hidle p hp⟩
  | none =>
    refine ⟨Own.process rfl rfl fun u hu => Function.update_of_ne hu _ _, _,
      Function.update_self _ _ _, ?_⟩
    rfl

/-! ## The turn of an agent -/

theorem podAt_of_mem {index : ℕ} {pods : List PodObject} (hpods : Distinct pods) {o : PodObject}
    (ho : o ∈ pods) (hindex : o.index = index) (hf : ¬ o.failed) : podAt index pods = some o := by
  cases hfind : podAt index pods with
  | none =>
    have hsome := podAt_isSome ho hindex hf
    rw [hfind] at hsome
    cases hsome
  | some o' =>
    obtain ⟨ho', hindex', hf'⟩ := podAt_some hfind
    by_contra hne
    rcases (hpods.apart ho ho' fun he => hne (congrArg some he.symm)).2
      (hindex.trans hindex'.symm) with h | h
    · exact hf h
    · exact hf' h

theorem ensurePod_pod (index : ℕ) (pod : Pod) (w : World) :
    (∃ o, podAt index (w.ensurePod index pod).pods.current = some o) ∧
      (w.ensurePod index pod).jobSets = w.jobSets ∧
      (w.ensurePod index pod).processes = w.processes ∧
      ∀ o ∈ w.pods.current, o ∈ (w.ensurePod index pod).pods.current := by
  unfold World.ensurePod
  cases hpod : podAt index w.pods.current with
  | some o => exact ⟨⟨o, hpod⟩, rfl, rfl, fun _ ho => ho⟩
  | none =>
    refine ⟨?_, rfl, rfl, fun o ho => ?_⟩
    · apply Option.isSome_iff_exists.mp
      apply podAt_isSome
      · rw [History.push_current]
        exact List.mem_cons_self
      · rfl
      · intro hf
        cases hf
    · rw [History.push_current]
      exact List.mem_cons_of_mem _ ho

/-- Before the reconcile of a turn: the pod is there and its process is idle, and the other
pods are as they were. -/
structure Ready (N index uid : ℕ) (w w' : World) : Prop where
  reachable : Reachable N w'
  jobSets : w'.jobSets = w.jobSets
  pod : ∃ o ∈ w'.pods.current, o.uid = uid ∧ o.index = index ∧ ¬ o.failed
  process : ∃ p, w'.processes uid = some p ∧ p.run = none
  others : ∀ o ∈ w.pods.current, o.index ≠ index → ¬ o.failed →
    o ∈ w'.pods.current ∧ w'.processes o.uid = w.processes o.uid ∧ o.uid ≠ uid

theorem memberTurn_ready (hw : Reachable N w) {index : ℕ} (hindex : index < N) (pod : Pod)
    (workerCommand : String) : ∃ uid w', w.memberTurn index pod workerCommand = w'.reconcile uid ∧
      Ready N index uid w w' := by
  obtain ⟨⟨o, ho⟩, hjobSets, hprocesses, hpods⟩ := ensurePod_pod index pod w
  have hw₁ := hw.ensurePod hindex pod
  have hdistinct := (reachable_inv hw₁).pods.distinct.current
  have hfinish := finish_finishes o.uid hdistinct
  have hw₂ := hw₁.finish o.uid
  obtain ⟨hmem, hoindex, hf⟩ := podAt_some ho
  obtain ⟨o', ho', huid', hindex', hf'⟩ := hfinish.1.pod o hmem rfl
  have hw₃ := hw₂.ensureProcess ho' workerCommand
  obtain ⟨hown, hidle⟩ := ensureProcess_idle hfinish.2 workerCommand
  have hboth := hfinish.1.trans hown
  rw [huid'] at hw₃
  refine ⟨o.uid, _, ?_, hw₃, hboth.jobSets.trans hjobSets, ?_, hidle, fun x hx hne hxf => ?_⟩
  · unfold World.memberTurn
    rw [ho]
  · obtain ⟨o₃, ho₃, huid₃, hindex₃, hf₃⟩ := hboth.pod o hmem rfl
    exact ⟨o₃, ho₃, huid₃, hindex₃.trans hoindex, fun h => hf (hf₃.mp h)⟩
  · have hx₁ := hpods x hx
    have hu : x.uid ≠ o.uid := fun hu => by
      have hsame : x = o :=
        Option.some.inj ((podOf_of_mem hdistinct hx₁).symm.trans (hu ▸ podOf_of_mem hdistinct hmem))
      exact hne (hsame ▸ hoindex)
    exact ⟨hboth.others x hx₁ hu, (hboth.processes _ hu).trans (congrFun hprocesses _), hu⟩

theorem Reachable.memberTurn (hw : Reachable N w) {index : ℕ} (hindex : index < N) (pod : Pod)
    (workerCommand : String) : Reachable N (w.memberTurn index pod workerCommand) := by
  obtain ⟨uid, w', heq, hready⟩ := memberTurn_ready hw hindex pod workerCommand
  obtain ⟨p, hp, hidle⟩ := hready.process
  rw [heq]
  apply hready.reachable.reconcile
  intro q hq
  rw [hp, Option.some.injEq] at hq
  exact hq ▸ hidle

/-- What is left in memory when the reconcile is past the announcement, and nothing if the
process has exited. -/
def afterReconcile (js : JobSet) (p : Process) (r : InPlaceRestartAgent) : Option Process :=
  if isOutdated r js then none
  else some { p with
    memory := if r.isBarrierActive && isSynced r js then { r with isBarrierActive := false } else r
    run := none }

theorem land_pods {value : ℤ} {o : PodObject} (ho : podOf uid w.pods.current = some o) :
    (w.land uid value).pods.current = replacePod (o.annotate value) w.pods.current := by
  unfold World.land
  rw [ho]
  exact History.push_current _ _

theorem drive_handle (js : JobSet) (p : Process) (r : InPlaceRestartAgent) (view : AgentView)
    (landed : Bool) (w : World) :
    (w.drive uid (handleRestartAndBarrier js r) p view landed).pods = w.pods ∧
      (w.drive uid (handleRestartAndBarrier js r) p view landed).processes uid =
        afterReconcile js p r := by
  unfold handleRestartAndBarrier afterReconcile
  split_ifs
  · exact ⟨rfl, setProcess_self _ _ _⟩
  · exact ⟨rfl, Function.update_self _ _ _⟩
  · exact ⟨rfl, setProcess_self _ _ _⟩

theorem drive_patch (js : JobSet) (p : Process) (r : InPlaceRestartAgent) (view : AgentView)
    {w : World} {o : PodObject} (ho : podOf uid w.pods.current = some o) :
    (w.drive uid (patchPodInPlaceRestartAttempt js r) p view false).pods.current =
        replacePod (o.annotate (newPodInPlaceRestartAttempt js)) w.pods.current ∧
      (w.drive uid (patchPodInPlaceRestartAttempt js r) p view false).processes uid =
        afterReconcile js p
          { r with podInPlaceRestartAttempt := some (newPodInPlaceRestartAttempt js) } := by
  unfold patchPodInPlaceRestartAttempt
  unfold World.drive
  simp only [ho, Option.isSome_some, Bool.or_true, if_true, Bool.false_eq_true, if_false]
  rw [(drive_handle _ _ _ _ _ _).1, (drive_handle _ _ _ _ _ _).2]
  exact ⟨land_pods ho, rfl⟩

/-- A process that has announced its attempt handles the counters. -/
theorem reconcile_joined {p : Process} (hp : w.processes uid = some p)
    (hbypass : shouldBypassBarrier w.jobSets.current = false) {x : ℤ}
    (hx : p.memory.podInPlaceRestartAttempt = some x) :
    (w.reconcile uid).pods = w.pods ∧ (w.reconcile uid).processes uid =
      afterReconcile w.jobSets.current { p with seen := w.jobSets.top } p.memory := by
  have hread : reconcileRead p.memory (some w.jobSets.current) =
      handleRestartAndBarrier w.jobSets.current p.memory := by
    simp [reconcileRead, hbypass, hx]
  unfold World.reconcile
  rw [hp]
  change (World.drive uid (reconcileRead p.memory (some w.jobSets.current))
      { p with seen := w.jobSets.top } _ false _).pods = w.pods ∧
    (World.drive uid (reconcileRead p.memory (some w.jobSets.current))
      { p with seen := w.jobSets.top } _ false _).processes uid = _
  rw [hread]
  apply drive_handle

/-- A process that has not announced an attempt picks one, announces it and handles the
counters. -/
theorem reconcile_joins {p : Process} (hp : w.processes uid = some p)
    (hbypass : shouldBypassBarrier w.jobSets.current = false)
    (hnone : p.memory.podInPlaceRestartAttempt = none) {o : PodObject}
    (ho : podOf uid w.pods.current = some o) :
    (w.reconcile uid).pods.current =
      replacePod (o.annotate (newPodInPlaceRestartAttempt w.jobSets.current)) w.pods.current ∧
    (w.reconcile uid).processes uid =
      afterReconcile w.jobSets.current { p with seen := w.jobSets.top }
        { p.memory with
          podInPlaceRestartAttempt := some (newPodInPlaceRestartAttempt w.jobSets.current) } := by
  have hread : reconcileRead p.memory (some w.jobSets.current) =
      patchPodInPlaceRestartAttempt w.jobSets.current p.memory := by
    simp [reconcileRead, hbypass, hnone]
  unfold World.reconcile
  rw [hp]
  change (World.drive uid (reconcileRead p.memory (some w.jobSets.current))
      { p with seen := w.jobSets.top } _ false _).pods.current = _ ∧
    (World.drive uid (reconcileRead p.memory (some w.jobSets.current))
      { p with seen := w.jobSets.top } _ false _).processes uid = _
  rw [hread]
  apply drive_patch
  exact ho

theorem Reachable.controllerTurn (hw : Reachable N w) (now : Time) :
    Reachable N (w.controllerTurn now) := by
  have hread : Reachable N w.read := hw.step (.controllerReads w w.jobSets.top w.pods.top
    (reachable_announced hw).seen le_rfl (reachable_inv hw).log.seen le_rfl)
  unfold World.controllerTurn
  split_ifs with hfinished
  · exact hread
  · split
    · exact hread
    · next p hok =>
      split_ifs
      · exact hread.step (.controllerWrites w.read now w.jobSets.top w.pods.top
          (.start w.jobSets.current) p rfl rfl rfl rfl hok)
      · exact hread

theorem Reachable.reportTurn (hw : Reachable N w) (o' : PodObject) :
    Reachable N (w.reportTurn o') := by
  unfold World.reportTurn
  split
  · next o hfind =>
    split_ifs with hvalid
    · obtain ⟨ho, huid⟩ := podOf_some hfind
      exact hw.step (.podChanged w o o' ho huid.symm hvalid.1 hvalid.2.1
        fun hf => absurd hf hvalid.2.2.1)
    · exact hw
  · exact hw

theorem Reachable.turn (hw : Reachable N w) (t : Turn) : Reachable N (w.turn N t) := by
  cases t with
  | agent index pod workerCommand =>
    change Reachable N (if index < N then w.memberTurn index pod workerCommand else w)
    split_ifs with hindex
    · exact hw.memberTurn hindex pod workerCommand
    · exact hw
  | controller now => exact hw.controllerTurn now
  | kubelet report => exact hw.reportTurn report

end Runs

end JobSetOperator.InPlace
