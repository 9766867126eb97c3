import JobSetOperator.Controller.InPlaceArithmetic
import JobSetOperator.Controller.Writes
import JobSetOperator.InPlace.Turns

/-!
# The barrier recovers

Whatever has happened to the pods, the agents and the caches, once nothing more goes wrong
the workers of all expected pods come to run in one attempt. After one round of turns each
process remembers what its pod carries, or has exited from an outdated attempt
(`leadsTo_normal`). From then on the system does what the barrier over epochs does
(`turn_shows`), which converges.
-/
namespace JobSetOperator.InPlace

open Library

variable {N : ℕ}

/-- The party whose turn it is. -/
def Turn.party (N : ℕ) : Turn → EpochParty (Fin N)
  | .agent index _ _ => if h : index < N then .member ⟨index, h⟩ else .bystander
  | .controller _ => .coordinator
  | .kubelet _ => .bystander

/-- The JobSet has finished, or its attempts have come to the end of the 32-bit integers. -/
def Over (w : World) : Prop :=
  jobSetFinished w.jobSets.current = true ∨ 2 ^ 31 ≤ frontier w.jobSets.current

/-- The pod of the index carries the attempt, and its process is idle in that attempt, with
its barrier lifted if `lifted` says so, or has exited. -/
def MemberAt (w : World) (index announced : ℕ) (joined lifted : Bool) : Prop :=
  ∃ o ∈ w.pods.current, o.index = index ∧ ¬ o.failed ∧
    o.rawAttempt = some (itoa (announced : ℤ)) ∧
    (joined = true → ∃ p, w.processes o.uid = some p ∧ p.run = none ∧
      p.memory.podInPlaceRestartAttempt = some (announced : ℤ) ∧
      (lifted = true → p.memory.isBarrierActive = false)) ∧
    (joined = false → w.processes o.uid = none)

/-! ## The turn of an agent -/

theorem isOutdated_iff {r : InPlaceRestartAgent} {js : JobSet} {x : ℤ}
    (hx : r.podInPlaceRestartAttempt = some x) : isOutdated r js = true ↔
      ∃ p, js.status.previousInPlaceRestartAttempt = some p ∧ x ≤ p := by
  unfold isOutdated
  rw [hx]
  cases js.status.previousInPlaceRestartAttempt <;> simp

theorem isSynced_iff {r : InPlaceRestartAgent} {js : JobSet} {x : ℤ}
    (hx : r.podInPlaceRestartAttempt = some x) : isSynced r js = true ↔
      js.status.currentInPlaceRestartAttempt = some x := by
  unfold isSynced
  rw [hx]
  cases js.status.currentInPlaceRestartAttempt <;> simp [eq_comm]

theorem afterReconcile_outdated {js : JobSet} {p : Process} {r : InPlaceRestartAgent}
    (h : isOutdated r js = true) : afterReconcile js p r = none := by
  unfold afterReconcile
  rw [if_pos h]

theorem afterReconcile_stays {js : JobSet} {p : Process} {r : InPlaceRestartAgent}
    (h : isOutdated r js = false) : ∃ q, afterReconcile js p r = some q ∧ q.run = none ∧
      q.memory.podInPlaceRestartAttempt = r.podInPlaceRestartAttempt ∧
      (r.isBarrierActive = false ∨ isSynced r js = true → q.memory.isBarrierActive = false) := by
  unfold afterReconcile
  rw [if_neg (by simp [h])]
  refine ⟨_, rfl, rfl, ?_, fun hlift => ?_⟩
  · dsimp only
    split_ifs <;> rfl
  · dsimp only
    split_ifs with hboth
    · rfl
    · rcases hlift with hoff | hsynced
      · exact hoff
      · simpa [hsynced] using hboth

section Agent

variable {w : World} {o : PodObject} {p : Process}

/-- A reconcile of a process that has announced its attempt. -/
theorem reconcile_memberAt (hbypass : shouldBypassBarrier w.jobSets.current = false)
    (ho : o ∈ w.pods.current) (hf : ¬ o.failed) (hp : w.processes o.uid = some p) {n : ℕ}
    (hn : p.memory.podInPlaceRestartAttempt = some (n : ℤ)) (hraw : o.rawAttempt = some (itoa (n : ℤ))) :
    (isOutdated p.memory w.jobSets.current = true →
      MemberAt (w.reconcile o.uid) o.index n false false) ∧
    (isOutdated p.memory w.jobSets.current = false → ∀ lifted : Bool,
      (lifted = true → p.memory.isBarrierActive = false ∨
        isSynced p.memory w.jobSets.current = true) →
      MemberAt (w.reconcile o.uid) o.index n true lifted) := by
  obtain ⟨hpods, hprocess⟩ := reconcile_joined hp hbypass hn
  have ho' : o ∈ (w.reconcile o.uid).pods.current := hpods ▸ ho
  constructor
  · intro hout
    rw [afterReconcile_outdated hout] at hprocess
    exact ⟨o, ho', rfl, hf, hraw, by simp, fun _ => hprocess⟩
  · intro hstays lifted hlifted
    obtain ⟨q, hq, hidle, hmemory, hbarrier⟩ := afterReconcile_stays
      (p := { p with seen := w.jobSets.top }) hstays
    rw [hq] at hprocess
    refine ⟨o, ho', rfl, hf, hraw, fun _ => ⟨q, hprocess, hidle, hmemory.trans hn, ?_⟩, by simp⟩
    exact fun hl => hbarrier (hlifted hl)

/-- A reconcile of a process that has not: it joins the attempt of the frontier, which is not
outdated. -/
theorem reconcile_joins_memberAt (hinv : Inv N w) (ho : o ∈ w.pods.current) (hf : ¬ o.failed)
    (hp : w.processes o.uid = some p) (hnone : p.memory.podInPlaceRestartAttempt = none) {n : ℕ}
    (hfrontier : frontier w.jobSets.current = n) (hsmall : (n : ℤ) < 2 ^ 31) :
    MemberAt (w.reconcile o.uid) o.index n true false := by
  have hbypass := hinv.versions.config.current.noBypass
  have hpick : newPodInPlaceRestartAttempt w.jobSets.current = n := by
    rw [newPodInPlaceRestartAttempt_eq, hfrontier, int32_of_range (by omega) hsmall]
  obtain ⟨hpods, hprocess⟩ := reconcile_joins hp hbypass hnone
    (podOf_of_mem hinv.pods.distinct.current ho)
  rw [hpick] at hpods hprocess
  have hstays : isOutdated { p.memory with podInPlaceRestartAttempt := some (n : ℤ) }
      w.jobSets.current = false := by
    rw [Bool.eq_false_iff]
    intro hout
    obtain ⟨q, hq, hle⟩ := (isOutdated_iff rfl).mp hout
    have hlt := (hinv.versions.previous.current q hq).1
    omega
  obtain ⟨q, hq, hidle, hmemory, -⟩ := afterReconcile_stays
    (p := { p with seen := w.jobSets.top }) hstays
  rw [hq] at hprocess
  refine ⟨o.annotate n, ?_, rfl, hf, PodObject.annotate_rawAttempt o n,
    fun _ => ⟨q, hprocess, hidle, hmemory, by simp⟩, by simp⟩
  rw [hpods]
  rcases replacePod_mem (o.annotate n) ho with ⟨-, hmem⟩ | ⟨hne, -⟩
  · exact hmem
  · exact absurd rfl hne

end Agent

/-! ## The first round -/

/-- The pod of the index carries what its process remembers; a process that has exited was in
an outdated attempt. -/
def NormalAt (w : World) (index : ℕ) : Prop :=
  ∃ n joined, MemberAt w index n joined false ∧ (joined = false →
    ∃ p, w.jobSets.current.status.previousInPlaceRestartAttempt = some p ∧ (n : ℤ) ≤ p)

theorem reconcile_own (uid : ℕ) {w : World} (hpods : Distinct w.pods.current) :
    Own uid w (w.reconcile uid) := by
  unfold World.reconcile
  cases hp : w.processes uid with
  | none => exact Own.refl uid w
  | some p =>
    set w₁ := w.setProcess uid (some { p with
      run := some ⟨.blank, agentReconcile p.memory, false⟩ }) with hw₁
    have hrest : Finishes uid w₁ (w₁.drive uid (agentReconcile p.memory) p .blank false) :=
      drive_finishes _ hpods
    exact (own_setProcess uid _ w).trans hrest.1

/-- The other pods and processes do not see the turn. -/
theorem memberTurn_frame {w : World} (hw : Reachable N w) {index : ℕ} (hindex : index < N)
    (pod : Pod) (workerCommand : String) :
    (w.memberTurn index pod workerCommand).jobSets = w.jobSets ∧
    ∀ o ∈ w.pods.current, o.index ≠ index → ¬ o.failed →
      o ∈ (w.memberTurn index pod workerCommand).pods.current ∧
      (w.memberTurn index pod workerCommand).processes o.uid = w.processes o.uid := by
  obtain ⟨uid, w', heq, hready⟩ := memberTurn_ready hw hindex pod workerCommand
  have hown := reconcile_own uid (reachable_inv hready.reachable).pods.distinct.current
  rw [heq]
  refine ⟨hown.jobSets.trans hready.jobSets, fun o ho hne hf => ?_⟩
  obtain ⟨ho', hprocess, hu⟩ := hready.others o ho hne hf
  exact ⟨hown.others o ho' hu, (hown.processes _ hu).trans hprocess⟩

theorem MemberAt.memberTurn {w : World} {i n : ℕ} {joined lifted : Bool}
    (h : MemberAt w i n joined lifted) (hw : Reachable N w) {index : ℕ} (hindex : index < N)
    (hne : i ≠ index) (pod : Pod) (workerCommand : String) :
    MemberAt (w.memberTurn index pod workerCommand) i n joined lifted := by
  obtain ⟨o, ho, hi, hf, hraw, hjoined, haway⟩ := h
  obtain ⟨ho', hprocess⟩ :=
    (memberTurn_frame hw hindex pod workerCommand).2 o ho (fun he => hne (hi.symm.trans he)) hf
  refine ⟨o, ho', hi, hf, hraw, ?_, ?_⟩
  · rw [hprocess]
    exact hjoined
  · rw [hprocess]
    exact haway

/-- The attempt that a process remembers is a natural number, and its pod carries it. -/
theorem remembered {w : World} (hw : Reachable N w) (hsmall : frontier w.jobSets.current < 2 ^ 31)
    {o : PodObject} (ho : o ∈ w.pods.current) {p : Process} (hp : w.processes o.uid = some p) {x : ℤ}
    (hx : p.memory.podInPlaceRestartAttempt = some x) :
    0 ≤ x ∧ o.rawAttempt = some (itoa x) := by
  have hinv := reachable_inv hw
  have hok := (hinv.processes.ok _ p hp).1
  obtain ⟨j, -, hj, rfl⟩ := hok.memory x hx
  have hlevel := hinv.versions.isLevel (hj.trans hok.seen)
  have hle := hinv.versions.frontierMono.le_current (hj.trans hok.seen)
  unfold IsLevel at hlevel
  refine ⟨?_, (reachable_announced hw).carried _ p _ hp (Or.inl hx) o ho rfl⟩
  rw [int32_of_range (by omega) (by omega)]
  exact hlevel.1

theorem reconcile_normal {w : World} (hw : Reachable N w)
    (hsmall : frontier w.jobSets.current < 2 ^ 31) {o : PodObject} (ho : o ∈ w.pods.current)
    (hf : ¬ o.failed) {p : Process} (hp : w.processes o.uid = some p) :
    NormalAt (w.reconcile o.uid) o.index := by
  have hinv := reachable_inv hw
  have hjobSets := (reconcile_own o.uid hinv.pods.distinct.current).jobSets
  have hlevel : IsLevel (frontier w.jobSets.current) := hinv.versions.isLevel le_rfl
  unfold IsLevel at hlevel
  unfold NormalAt
  rw [hjobSets]
  cases hmemory : p.memory.podInPlaceRestartAttempt with
  | none =>
    have hn : frontier w.jobSets.current = ((frontier w.jobSets.current).toNat : ℤ) :=
      (Int.toNat_of_nonneg hlevel.1).symm
    have hmember := reconcile_joins_memberAt hinv ho hf hp hmemory hn (hn ▸ hsmall)
    exact ⟨_, true, hmember, fun h => absurd h (by simp)⟩
  | some x =>
    obtain ⟨hpos, hraw⟩ := remembered hw hsmall ho hp hmemory
    have hn : x = (x.toNat : ℤ) := (Int.toNat_of_nonneg hpos).symm
    rw [hn] at hmemory hraw
    obtain ⟨hleaves, hstays⟩ := reconcile_memberAt hinv.versions.config.current.noBypass ho hf hp
      hmemory hraw
    cases hout : isOutdated p.memory w.jobSets.current with
    | true => exact ⟨_, false, hleaves hout, fun _ => (isOutdated_iff hmemory).mp hout⟩
    | false =>
      exact ⟨_, true, hstays hout false (fun h => absurd h (by simp)), fun h => absurd h (by simp)⟩

/-- After its turn an agent's pod carries what the agent remembers. -/
theorem memberTurn_normal {w : World} (hw : Reachable N w)
    (hsmall : frontier w.jobSets.current < 2 ^ 31) {index : ℕ} (hindex : index < N) (pod : Pod)
    (workerCommand : String) : NormalAt (w.memberTurn index pod workerCommand) index := by
  obtain ⟨uid, w', heq, hready⟩ := memberTurn_ready hw hindex pod workerCommand
  obtain ⟨o, ho, rfl, rfl, hf⟩ := hready.pod
  obtain ⟨p, hp, -⟩ := hready.process
  rw [heq]
  exact reconcile_normal hready.reachable (hready.jobSets ▸ hsmall) ho hf hp

/-! ## The turns of the others -/

theorem controllerTurn_frame (now : Time) (w : World) :
    (w.controllerTurn now).pods = w.pods ∧ (w.controllerTurn now).processes = w.processes := by
  unfold World.controllerTurn
  split_ifs
  · exact ⟨rfl, rfl⟩
  · split
    · exact ⟨rfl, rfl⟩
    · split_ifs <;> exact ⟨rfl, rfl⟩

theorem MemberAt.controllerTurn {w : World} {i n : ℕ} {joined lifted : Bool}
    (h : MemberAt w i n joined lifted) (now : Time) :
    MemberAt (w.controllerTurn now) i n joined lifted := by
  obtain ⟨hpods, hprocesses⟩ := controllerTurn_frame now w
  unfold MemberAt
  rw [hpods, hprocesses]
  exact h

theorem reportTurn_frame (o' : PodObject) (w : World) :
    (w.reportTurn o').jobSets = w.jobSets ∧ (w.reportTurn o').processes = w.processes := by
  unfold World.reportTurn
  split
  · split_ifs <;> exact ⟨rfl, rfl⟩
  · exact ⟨rfl, rfl⟩

theorem MemberAt.reportTurn {w : World} (hpods : Distinct w.pods.current) {i n : ℕ}
    {joined lifted : Bool} (h : MemberAt w i n joined lifted) (o' : PodObject) :
    MemberAt (w.reportTurn o') i n joined lifted := by
  obtain ⟨o, ho, hi, hf, hraw, hprocess⟩ := h
  unfold World.reportTurn
  split
  · next x hx =>
    split_ifs with hvalid
    · obtain ⟨hindex, hsame, -, hf'⟩ := hvalid
      unfold MemberAt
      dsimp only
      rw [History.push_current]
      rcases replacePod_mem o' ho with ⟨huid, hmem⟩ | ⟨-, hmem⟩
      · -- the report is about this pod
        have hxo : x = o := Option.some.inj (hx.symm.trans (huid ▸ podOf_of_mem hpods ho))
        subst hxo
        exact ⟨o', hmem, hindex.trans hi, hf', hsame.trans hraw, huid ▸ hprocess⟩
      · exact ⟨o, hmem, hi, hf, hraw, hprocess⟩
    · exact ⟨o, ho, hi, hf, hraw, hprocess⟩
  · exact ⟨o, ho, hi, hf, hraw, hprocess⟩

/-! ## Every turn -/

/-- A turn writes at most one version of the JobSet, and only the controller does, of one that
has not finished. -/
theorem turn_jobSets {w : World} (hw : Reachable N w) (t : Turn) :
    (w.turn N t).jobSets = w.jobSets ∨
      jobSetFinished w.jobSets.current = false ∧ ∃ js, (w.turn N t).jobSets = w.jobSets.push js := by
  cases t with
  | agent index pod workerCommand =>
    by_cases hindex : index < N
    · apply Or.inl
      unfold World.turn
      dsimp only
      rw [if_pos hindex]
      exact (memberTurn_frame hw hindex pod workerCommand).1
    · apply Or.inl
      unfold World.turn
      dsimp only
      rw [if_neg hindex]
  | controller now =>
    change (w.controllerTurn now).jobSets = _ ∨ _ ∧ ∃ js, (w.controllerTurn now).jobSets = _
    unfold World.controllerTurn
    split_ifs with hfinished
    · exact Or.inl rfl
    · split
      · exact Or.inl rfl
      · split_ifs
        · exact Or.inr ⟨by simpa using hfinished, _, rfl⟩
        · exact Or.inl rfl
  | kubelet report => exact Or.inl (reportTurn_frame report w).1

/-- The counters do not go down. -/
theorem turn_counters {w : World} (hw : Reachable N w) (t : Turn) :
    frontier w.jobSets.current ≤ frontier (w.turn N t).jobSets.current ∧
    ∀ p, w.jobSets.current.status.previousInPlaceRestartAttempt = some p →
      ∃ p', (w.turn N t).jobSets.current.status.previousInPlaceRestartAttempt = some p' ∧
        p ≤ p' := by
  rcases turn_jobSets hw t with hsame | ⟨-, js, hpush⟩
  · rw [hsame]
    exact ⟨le_rfl, fun p hp => ⟨p, hp, le_rfl⟩⟩
  · have hversions := (reachable_inv (hw.turn t)).versions
    rw [hpush] at hversions ⊢
    have hold := History.push_entry_of_le w.jobSets js (le_refl w.jobSets.top)
    have hmono := hversions.frontierMono w.jobSets.top _ (Nat.le_succ _) le_rfl
    have hprevious := hversions.previousMono w.jobSets.top _ (Nat.le_succ _) le_rfl
    rw [hold] at hmono hprevious
    exact ⟨hmono, hprevious⟩

theorem over_turn {w : World} (hw : Reachable N w) (h : Over w) (t : Turn) :
    Over (w.turn N t) := by
  rcases h with hfinished | hend
  · rcases turn_jobSets hw t with hsame | ⟨hrunning, -⟩
    · exact Or.inl (hsame ▸ hfinished)
    · rw [hfinished] at hrunning
      cases hrunning
  · exact Or.inr (hend.trans (turn_counters hw t).1)

theorem NormalAt.turn {w : World} (hw : Reachable N w) (hrunning : ¬ Over w) {i : ℕ}
    (h : NormalAt w i) (t : Turn) : NormalAt (w.turn N t) i := by
  have hsmall : frontier w.jobSets.current < 2 ^ 31 := not_le.mp fun hle => hrunning (Or.inr hle)
  have hother : ∀ {n : ℕ} {joined : Bool}, MemberAt (w.turn N t) i n joined false →
      (joined = false → ∃ p, w.jobSets.current.status.previousInPlaceRestartAttempt = some p ∧
        (n : ℤ) ≤ p) → NormalAt (w.turn N t) i := by
    intro n joined hmember haway
    refine ⟨n, joined, hmember, fun hj => ?_⟩
    obtain ⟨p, hp, hle⟩ := haway hj
    obtain ⟨p', hp', hle'⟩ := (turn_counters hw t).2 p hp
    exact ⟨p', hp', hle.trans hle'⟩
  obtain ⟨n, joined, hmember, haway⟩ := h
  cases t with
  | agent index pod workerCommand =>
    unfold World.turn at hother ⊢
    dsimp only at hother ⊢
    split_ifs at hother ⊢ with hindex
    · by_cases hi : i = index
      · subst hi
        exact memberTurn_normal hw hsmall hindex pod workerCommand
      · exact hother (hmember.memberTurn hw hindex hi pod workerCommand) haway
    · exact hother hmember haway
  | controller now => exact hother (hmember.controllerTurn now) haway
  | kubelet report =>
    exact hother (hmember.reportTurn (reachable_inv hw).pods.distinct.current report) haway

/-- After one round every agent's pod carries what the agent remembers. -/
theorem leadsTo_normal : LeadsTo (fun t w => w.turn N t) (Turn.party N) Epochs.parties 1
    (Reachable N) fun w => Reachable N w ∧ (Over w ∨ ∀ i < N, NormalAt w i) := by
  have hround : LeadsTo (fun t w => w.turn N t) (Turn.party N) Epochs.parties 1 (Reachable N)
      fun w => Reachable N w ∧ ∀ b ∈ Epochs.parties, ∀ i : Fin N, b = .member i →
        Over w ∨ NormalAt w i := by
    apply LeadsTo.of_turns (fun t w hw => hw.turn t)
    · intro t w _ hw i hparty
      by_cases hover : Over w
      · exact Or.inl (over_turn hw hover t)
      · have hsmall : frontier w.jobSets.current < 2 ^ 31 := not_le.mp fun hle => hover (Or.inr hle)
        cases t with
        | agent index pod workerCommand =>
          unfold Turn.party at hparty
          unfold World.turn
          dsimp only at hparty ⊢
          split_ifs at hparty ⊢ with hindex
          · obtain rfl : (⟨index, hindex⟩ : Fin N) = i := by injection hparty
            exact Or.inr (memberTurn_normal hw hsmall hindex pod workerCommand)
        | controller now => cases hparty
        | kubelet report => cases hparty
    · intro b _ t w hw hshare i hb
      by_cases hover : Over w
      · exact Or.inl (over_turn hw hover t)
      · exact Or.inr (((hshare i hb).resolve_left hover).turn hw hover t)
  refine hround.mono fun w hw => ⟨hw.1, ?_⟩
  by_cases hover : Over w
  · exact Or.inl hover
  · exact Or.inr fun i hi =>
      (hw.2 (.member ⟨i, hi⟩) (Or.inr ⟨_, rfl⟩) ⟨i, hi⟩ rfl).resolve_left hover

/-! ## The barrier over epochs -/

/-- The state shows the epochs: the counters are those of the JobSet, and each member is at
its pod. -/
structure Shows (N : ℕ) (w : World) (s : Epochs (Fin N)) : Prop where
  reachable : Reachable N w
  running : jobSetFinished w.jobSets.current = false
  small : frontier w.jobSets.current < 2 ^ 31
  current : w.jobSets.current.status.currentInPlaceRestartAttempt = s.current.map Nat.cast
  previous : w.jobSets.current.status.previousInPlaceRestartAttempt = s.previous.map Nat.cast
  members : ∀ i : Fin N, MemberAt w i (s.announced i) (s.joined i) (s.lifted i)

section Shows

variable {w : World} {s : Epochs (Fin N)}

theorem Shows.frontier (h : Shows N w s) : frontier w.jobSets.current = (s.frontier : ℤ) := by
  unfold InPlace.frontier Epochs.frontier
  rw [h.current]
  cases s.current with
  | none => rfl
  | some c => simp

theorem outdated_iff_of_shows {js : JobSet} {s : Epochs (Fin N)}
    (hprevious : js.status.previousInPlaceRestartAttempt = s.previous.map Nat.cast) (i : Fin N) :
    s.outdated i = true ↔
      ∃ p, js.status.previousInPlaceRestartAttempt = some p ∧ (s.announced i : ℤ) ≤ p := by
  rw [Epochs.outdated_iff, hprevious]
  constructor
  · rintro ⟨p, hp, hle⟩
    exact ⟨p, by rw [hp]; rfl, by exact_mod_cast hle⟩
  · rintro ⟨p, hp, hle⟩
    obtain ⟨q, hq, rfl⟩ := Option.map_eq_some_iff.mp hp
    exact ⟨q, hq, by exact_mod_cast hle⟩

/-- No pod is ahead of the frontier or behind it by more than one attempt. -/
theorem Shows.bounds (h : Shows N w s) (i : Fin N) :
    s.announced i ≤ s.frontier ∧ s.frontier ≤ s.announced i + 1 := by
  have hinv := reachable_inv h.reachable
  obtain ⟨o, ho, -, hf, hraw, -⟩ := h.members i
  have hfrontier := h.frontier
  have hsmall := h.small
  rcases hinv.pods.upper.current o ho with hnone | ⟨n, hn, hle⟩
  · rw [hraw] at hnone
    cases hnone
  · have hlow := hinv.pods.lower o ho hf n hn
    have hlevel := hn.1
    unfold IsLevel at hlevel
    have hsame : itoa (s.announced i : ℤ) = itoa (int32 n) := Option.some.inj (hraw.symm.trans hn.2)
    rw [int32_of_range (by omega) (by omega)] at hsame
    have := itoa_injective hsame
    omega

/-- A normal state shows sound epochs. -/
theorem shows_of_normal (hw : Reachable N w) (hrunning : ¬ Over w)
    (hnormal : ∀ i < N, NormalAt w i) : ∃ s, Shows N w s ∧ s.Sound := by
  have hinv := reachable_inv hw
  choose n joined hmember haway using fun i : Fin N => hnormal i i.isLt
  have hnatural : ∀ {o : Option ℤ}, (∀ x, o = some x → 0 ≤ x) →
      o = (o.map Int.toNat).map Nat.cast := by
    intro o ho
    cases o with
    | none => rfl
    | some x => simp [Int.toNat_of_nonneg (ho x rfl)]
  have hshows : Shows N w ⟨n, joined, fun _ => false,
      w.jobSets.current.status.previousInPlaceRestartAttempt.map Int.toNat,
      w.jobSets.current.status.currentInPlaceRestartAttempt.map Int.toNat⟩ := by
    refine ⟨hw, ?_, ?_, ?_, ?_, hmember⟩
    · exact Bool.eq_false_iff.mpr fun h => hrunning (Or.inl h)
    · exact not_le.mp fun h => hrunning (Or.inr h)
    · exact hnatural fun x hx => (hinv.versions.current.current x hx).1
    · exact hnatural fun x hx => (reachable_announced hw).natural x hx
  refine ⟨_, hshows, fun i => (hshows.bounds i).1, fun i => (hshows.bounds i).2, ?_, ?_⟩
  · exact fun i hi => (outdated_iff_of_shows hshows.previous i).mpr (haway i hi)
  · intro p hp
    have hprevious := hshows.previous
    rw [hp] at hprevious
    have hlt := (hinv.versions.previous.current _ hprevious).1
    have hfrontier := hshows.frontier
    change _ < _ at hlt
    omega

/-- What a turn that leaves the JobSet alone has to show. -/
theorem Shows.of_members (h : Shows N w s) {t : Turn}
    (hjobSets : (w.turn N t).jobSets = w.jobSets) {s' : Epochs (Fin N)}
    (hprevious : s'.previous = s.previous) (hcurrent : s'.current = s.current)
    (hmembers : ∀ i : Fin N, MemberAt (w.turn N t) i (s'.announced i) (s'.joined i) (s'.lifted i)) :
    Shows N (w.turn N t) s' where
  reachable := h.reachable.turn t
  running := hjobSets ▸ h.running
  small := hjobSets ▸ h.small
  current := by rw [hjobSets, hcurrent, h.current]
  previous := by rw [hjobSets, hprevious, h.previous]
  members := hmembers

/-- The pod of a member that is at its pod takes the turn. -/
theorem memberTurn_of_pod (hpods : Distinct w.pods.current) {o : PodObject}
    (ho : o ∈ w.pods.current) (hf : ¬ o.failed) (pod : Pod) (workerCommand : String) :
    w.memberTurn o.index pod workerCommand =
      ((w.finish o.uid).ensureProcess o.uid workerCommand).reconcile o.uid := by
  have hat := podAt_of_mem hpods ho rfl hf
  have hensure : w.ensurePod o.index pod = w := by
    unfold World.ensurePod
    rw [hat]
  unfold World.memberTurn
  rw [hensure, hat]

theorem finish_idle {uid : ℕ} (hidle : ∀ p, w.processes uid = some p → p.run = none) :
    w.finish uid = w := by
  unfold World.finish
  cases hp : w.processes uid with
  | none => rfl
  | some p =>
    dsimp only
    rw [hidle p hp]

/-- The turn of a member that has joined. -/
theorem Shows.joined_turn (h : Shows N w s) (i : Fin N) (hjoined : s.joined i = true) (pod : Pod)
    (workerCommand : String) :
    (s.outdated i = true → MemberAt (w.memberTurn i pod workerCommand) i (s.announced i) false
      (s.lifted i)) ∧
    (s.outdated i = false → ∀ lifted : Bool,
      (lifted = true → s.lifted i = true ∨ s.current = some (s.announced i)) →
      MemberAt (w.memberTurn i pod workerCommand) i (s.announced i) true lifted) := by
  have hinv := reachable_inv h.reachable
  obtain ⟨o, ho, hi, hf, hraw, hmember, -⟩ := h.members i
  obtain ⟨p, hp, hidle, hmemory, hbarrier⟩ := hmember hjoined
  have hturn : w.memberTurn i pod workerCommand = w.reconcile o.uid := by
    rw [← hi, memberTurn_of_pod hinv.pods.distinct.current ho hf, finish_idle]
    · unfold World.ensureProcess
      rw [hp]
    · intro q hq
      rw [hp, Option.some.injEq] at hq
      exact hq ▸ hidle
  obtain ⟨hleaves, hstays⟩ := reconcile_memberAt hinv.versions.config.current.noBypass ho hf hp
    hmemory hraw
  have hout : s.outdated i = true ↔ isOutdated p.memory w.jobSets.current = true :=
    (outdated_iff_of_shows h.previous i).trans (isOutdated_iff hmemory).symm
  rw [hturn, ← hi]
  constructor
  · intro hs
    obtain ⟨o', ho', hi', hf', hraw', -, haway⟩ := hleaves (hout.mp hs)
    exact ⟨o', ho', hi', hf', hraw', by simp, haway⟩
  · intro hs lifted hlifted
    apply hstays
    · rw [← Bool.not_eq_true, ← hout, hs]
      simp
    · intro hl
      rcases hlifted hl with hold | hsynced
      · exact Or.inl (hbarrier hold)
      · refine Or.inr ((isSynced_iff hmemory).mpr ?_)
        rw [h.current, hsynced]
        rfl

/-- The turn of a member that is away. -/
theorem Shows.away_turn (h : Shows N w s) (i : Fin N) (haway : s.joined i = false) (pod : Pod)
    (workerCommand : String) :
    MemberAt (w.memberTurn i pod workerCommand) i s.frontier true false := by
  obtain ⟨o, ho, hi, hf, -, -, hmember⟩ := h.members i
  have hnone := hmember haway
  have hpods := (reachable_inv h.reachable).pods.distinct.current
  have hstarted := h.reachable.ensureProcess ho workerCommand
  have hturn : w.memberTurn i pod workerCommand =
      (w.ensureProcess o.uid workerCommand).reconcile o.uid := by
    rw [← hi, memberTurn_of_pod hpods ho hf, finish_idle]
    intro q hq
    rw [hnone] at hq
    cases hq
  have hworld : w.ensureProcess o.uid workerCommand = { w with
      processes := Function.update w.processes o.uid
        (some ⟨w.pids, .new workerCommand, w.jobSets.top, w.jobSets.top, none⟩)
      pids := w.pids + 1 } := by
    unfold World.ensureProcess
    rw [hnone]
  rw [hturn, hworld, ← hi]
  rw [hworld] at hstarted
  have hfrontier := h.frontier
  have hsmall := h.small
  apply reconcile_joins_memberAt (reachable_inv hstarted) ho hf (Function.update_self _ _ _) rfl
    hfrontier
  omega

theorem Shows.member_turn (h : Shows N w s) (i : Fin N) (pod : Pod) (workerCommand : String) :
    Shows N (w.turn N (.agent i pod workerCommand)) (Epochs.memberTurn i s) := by
  have hturn : w.turn N (.agent i pod workerCommand) = w.memberTurn i pod workerCommand :=
    if_pos i.isLt
  have hjobSets := (memberTurn_frame h.reachable i.isLt pod workerCommand).1
  apply h.of_members (hturn ▸ hjobSets) (Epochs.memberTurn_previous i)
  · unfold Epochs.memberTurn
    split_ifs <;> rfl
  · intro j
    rw [hturn]
    by_cases hij : j = i
    · subst hij
      unfold Epochs.memberTurn
      split_ifs with hjoined hout hcurrent
      · have hleft := (h.joined_turn j hjoined pod workerCommand).1 hout
        simpa using hleft
      · have hstays := (h.joined_turn j hjoined pod workerCommand).2 (by simpa using hout) true
          fun _ => Or.inr hcurrent
        simpa [hjoined] using hstays
      · have hstays := (h.joined_turn j hjoined pod workerCommand).2 (by simpa using hout)
          (s.lifted j) Or.inl
        simpa [hjoined] using hstays
      · have haway := h.away_turn j (by simpa using hjoined) pod workerCommand
        simpa using haway
    · obtain ⟨hannounced, hjoined, hlifted⟩ := Epochs.memberTurn_other (s := s) i hij
      rw [hannounced, hjoined, hlifted]
      exact (h.members j).memberTurn h.reachable i.isLt (fun he => hij (Fin.ext he)) pod
        workerCommand

end Shows

/-! ## The turn of the controller -/

theorem collects {pods : List Pod}
    (h : ∀ pod ∈ pods, pod.annotated = true → ∃ n, pod.attempt = some n ∧ 0 ≤ n) :
    ∃ attempts, getPodInPlaceRestartAttempts pods = .ok attempts := by
  induction pods with
  | nil => exact ⟨[], rfl⟩
  | cons pod rest ih =>
    obtain ⟨attempts, hattempts⟩ := ih fun pod' hmem => h pod' (List.mem_cons_of_mem _ hmem)
    unfold getPodInPlaceRestartAttempts
    split_ifs with hfailed
    · exact ⟨attempts, hattempts⟩
    · cases hraw : pod.annotations.lookup inPlaceRestartAttemptKey with
      | none => exact ⟨attempts, hattempts⟩
      | some raw =>
        obtain ⟨n, hn, hpos⟩ := h pod List.mem_cons_self (by simp [Pod.annotated, hfailed, hraw])
        have hatoi : atoi raw = some n := by simpa [Pod.attempt, hraw] using hn
        dsimp only
        rw [hatoi, hattempts]
        dsimp only
        rw [if_neg (not_lt.mpr hpos)]
        exact ⟨_, rfl⟩

/-- With one attempt from each expected pod the controller fails the JobSet, releases the
attempt or raises the last outdated one. -/
theorem reconcileInPlaceRestart_outcome (now : Time) {pods : List Pod} {p : Pass}
    {fp : FailurePolicy} {attempts : List ℤ} (hpolicy : p.js.spec.failurePolicy = some fp)
    (hattempts : getPodInPlaceRestartAttempts pods = .ok attempts)
    (htotal : getTotalNumberOfPods p.js = .ok (attempts.length : ℤ)) :
    reconcileInPlaceRestart now pods p = .ok (reachedMaxRestartsInPlace now p) ∨
    reconcileInPlaceRestart now pods p = .ok (
      if allEqual attempts then updateCurrentInPlaceRestartAttempt attempts p
      else if attempts = [] ∨ slicesMax attempts = 0 then p
      else updatePreviousInPlaceRestartAttempt attempts p) := by
  unfold reconcileInPlaceRestart
  rw [hpolicy]
  dsimp only
  by_cases hcount : getMaxContainerRestartCount pods > fp.maxRestarts
  · rw [if_pos hcount]
    exact Or.inl rfl
  · rw [if_neg hcount, hattempts, except_ok_bind]
    by_cases hexceeded : exceededMaxRestarts p.js fp.maxRestarts attempts = true
    · rw [if_pos hexceeded]
      exact Or.inl rfl
    · rw [if_neg hexceeded, htotal, except_ok_bind]
      apply Or.inr
      by_cases hall : allEqual attempts = true
      · rw [if_pos ⟨rfl, hall⟩, if_pos hall]
        rfl
      · rw [if_neg (fun h => hall h.2), if_neg hall]
        split_ifs <;> rfl

/-- The status after the controller's turn, as the reconcile leaves it. -/
theorem controllerTurn_status {w : World} {now : Time} {p : Pass}
    (hrunning : jobSetFinished w.jobSets.current = false)
    (hok : reconcileInPlaceRestart now (w.pods.current.map (·.pod)) (.start w.jobSets.current) = .ok p)
    (hupdate : p.opts.shouldUpdate = false → p.js = w.jobSets.current) :
    (w.controllerTurn now).jobSets.current.status = p.js.status := by
  unfold World.controllerTurn
  rw [if_neg (by simp [hrunning]), hok]
  dsimp only
  split_ifs with hwrite
  · rw [History.push_current]
  · rw [hupdate (by simpa using hwrite)]
    rfl

theorem updateCurrent_status (attempts : List ℤ) (js : JobSet) :
    let p := updateCurrentInPlaceRestartAttempt attempts (.start js)
    (p.opts.shouldUpdate = false → p.js = js) ∧
    p.js.status.currentInPlaceRestartAttempt = some (attempts.headD 0) ∧
    p.js.status.previousInPlaceRestartAttempt = js.status.previousInPlaceRestartAttempt := by
  unfold updateCurrentInPlaceRestartAttempt
  dsimp only
  split_ifs with hsame
  · exact ⟨fun _ => rfl, hsame, rfl⟩
  · exact ⟨fun h => absurd h (by simp), rfl, rfl⟩

theorem updatePrevious_status {attempts : List ℤ} (hne : attempts ≠ []) (js : JobSet) :
    let p := updatePreviousInPlaceRestartAttempt attempts (.start js)
    (p.opts.shouldUpdate = false → p.js = js) ∧
    p.js.status.currentInPlaceRestartAttempt = js.status.currentInPlaceRestartAttempt ∧
    p.js.status.previousInPlaceRestartAttempt =
      if js.status.previousInPlaceRestartAttempt.any (int32 (slicesMax attempts - 1) ≤ ·) then
        js.status.previousInPlaceRestartAttempt
      else some (int32 (slicesMax attempts - 1)) := by
  unfold updatePreviousInPlaceRestartAttempt
  rw [if_neg hne]
  dsimp only
  split_ifs with hskip hskip' hskip'
  · exact ⟨fun _ => rfl, rfl, rfl⟩
  · exact absurd hskip hskip'
  · exact absurd hskip' hskip
  · exact ⟨fun h => absurd h (by simp), rfl, rfl⟩

/-- A JobSet that has failed is finished, and the failure is written. -/
theorem reachedMaxRestarts_status (now : Time) {js : JobSet} (hrunning : jobSetFinished js = false) :
    let p := reachedMaxRestartsInPlace now (.start js)
    p.opts.shouldUpdate = true ∧
      ∀ js' : JobSet, js'.status = p.js.status → jobSetFinished js' = true := by
  have hends := ends_setJobSetFailedCondition now "ReachedMaxRestarts"
    "jobset failed due to reaching max number of restarts" (.start js)
  constructor
  · have hnot : ¬ CondTrue (Pass.start js).js.status.conditions .jobSetFailed := fun hc => by
      rw [(jobSetFinished_iff js).mpr (Or.inr hc)] at hrunning
      cases hrunning
    have hfirst : (setCondition now (conditionOpts eventTypeWarning .jobSetFailed .conditionTrue
        "ReachedMaxRestarts" "jobset failed due to reaching max number of restarts")
        (.start js)).opts.shouldUpdate = true := setCondition_update rfl hnot
    exact setCondition_shouldUpdate hfirst
  · intro js' hstatus
    rw [jobSetFinished_iff, hstatus]
    exact Or.inr hends.isTrue

section Controller

variable {w : World} {s : Epochs (Fin N)}

/-- The controller collects one attempt from each member. -/
theorem Shows.attempts (h : Shows N w s) : ∃ attempts,
    getPodInPlaceRestartAttempts (w.pods.current.map (·.pod)) = .ok attempts ∧
    attempts.length = N ∧ ∀ x, x ∈ attempts ↔ ∃ i : Fin N, x = s.announced i := by
  have hinv := reachable_inv h.reachable
  have hpods := hinv.pods.distinct.current
  have hfrontier := h.frontier
  have hsmall := h.small
  have hrange : ∀ i, (s.announced i : ℤ) < 2 ^ 31 := fun i => by
    have := (h.bounds i).1
    omega
  -- a pod whose attempt is collected is the one of a member
  have hmember : ∀ o ∈ w.pods.current, o.pod.annotated = true →
      ∃ i : Fin N, o.index = i ∧ o.pod.attempt = some (s.announced i : ℤ) := by
    intro o ho hann
    have hf : ¬ o.failed := fun hf => by
      unfold PodObject.failed at hf
      simp [Pod.annotated, hf] at hann
    let i : Fin N := ⟨o.index, (hinv.pods.bounded.current o ho).1⟩
    obtain ⟨o', ho', hindex, hf', hraw, -⟩ := h.members i
    have hsame : o' = o := Option.some.inj
      ((podAt_of_mem hpods ho' hindex hf').symm.trans (podAt_of_mem hpods ho rfl hf))
    subst hsame
    refine ⟨i, rfl, ?_⟩
    unfold Pod.attempt
    rw [show o'.pod.annotations.lookup inPlaceRestartAttemptKey = _ from hraw]
    exact atoi_itoa (by omega) (lt_trans (hrange i) (by norm_num))
  have hcollect : ∀ pod ∈ w.pods.current.map (·.pod), pod.annotated = true →
      ∃ n, pod.attempt = some n ∧ 0 ≤ n := by
    intro pod hpod hann
    obtain ⟨o, ho, rfl⟩ := List.mem_map.mp hpod
    obtain ⟨i, -, hattempt⟩ := hmember o ho hann
    exact ⟨_, hattempt, Int.natCast_nonneg _⟩
  obtain ⟨attempts, hattempts⟩ := collects hcollect
  obtain ⟨-, heq⟩ := getPodInPlaceRestartAttempts_ok hattempts
  set counted := w.pods.current.filter fun o => o.pod.annotated with hcounted
  have hfilter : (w.pods.current.map (·.pod)).filter Pod.annotated = counted.map (·.pod) := by
    rw [List.filter_map]
    rfl
  have hvalue : ∀ o ∈ counted, ∃ i : Fin N, o.index = i ∧
      int32 (o.pod.attempt.getD 0) = (s.announced i : ℤ) := fun o ho => by
    obtain ⟨hin, hann⟩ := List.mem_filter.mp ho
    obtain ⟨i, hi, hattempt⟩ := hmember o hin hann
    refine ⟨i, hi, ?_⟩
    rw [hattempt, Option.getD_some, int32_of_range (by omega) (hrange i)]
  have hcover : ∀ i : Fin N, ∃ o ∈ counted, o.index = i := fun i => by
    obtain ⟨o, ho, hi, hf, hraw, -⟩ := h.members i
    have hann : o.pod.annotated = true := by
      have hphase : o.pod.phase ≠ .podFailed := hf
      have hsome : o.pod.annotations.lookup inPlaceRestartAttemptKey = _ := hraw
      simp [Pod.annotated, hphase, hsome]
    exact ⟨o, List.mem_filter.mpr ⟨ho, hann⟩, hi⟩
  refine ⟨attempts, hattempts, ?_, fun x => ?_⟩
  · have hnodup : (counted.map (·.index)).Nodup := by
      rw [List.nodup_iff_pairwise_ne, List.pairwise_map]
      apply List.Pairwise.imp_of_mem _ (List.Pairwise.filter _ hpods)
      intro o o' ho ho' happart hi
      have hf : ∀ x ∈ counted, ¬ x.failed := fun x hx hfx => by
        unfold PodObject.failed at hfx
        have hann := (List.mem_filter.mp hx).2
        simp [Pod.annotated, hfx] at hann
      exact (happart.2 hi).elim (hf o ho) (hf o' ho')
    have hrangeN : (counted.map (·.index)).toFinset = Finset.range N := by
      ext i
      rw [List.mem_toFinset, List.mem_map, Finset.mem_range]
      constructor
      · rintro ⟨o, ho, rfl⟩
        exact (hinv.pods.bounded.current o (List.mem_filter.mp ho).1).1
      · exact fun hi => hcover ⟨i, hi⟩
    have hcard := List.toFinset_card_of_nodup hnodup
    rw [hrangeN, Finset.card_range, List.length_map] at hcard
    rw [heq, hfilter, List.length_map, List.length_map, ← hcard]
  · rw [heq, hfilter, List.map_map, List.mem_map]
    constructor
    · rintro ⟨o, ho, rfl⟩
      obtain ⟨i, -, hi⟩ := hvalue o ho
      exact ⟨i, hi⟩
    · rintro ⟨i, rfl⟩
      obtain ⟨o, ho, hi⟩ := hcover i
      obtain ⟨j, hj, hv⟩ := hvalue o ho
      have hij : j = i := Fin.ext (hj.symm.trans hi)
      exact ⟨o, ho, hij ▸ hv⟩

/-- The controller fails the JobSet, or does what the coordinator of the epochs does. -/
theorem Shows.controller_turn (h : Shows N w s) (hN : 0 < N) (now : Time) :
    Over (w.controllerTurn now) ∨ Shows N (w.controllerTurn now) (Epochs.coordinatorTurn s) := by
  have : Nonempty (Fin N) := ⟨⟨0, hN⟩⟩
  have hconfig := (reachable_inv h.reachable).versions.config.current
  have hfrontier := h.frontier
  have hsmall := h.small
  obtain ⟨attempts, hattempts, hlength, hmem⟩ := h.attempts
  obtain ⟨fp, hpolicy⟩ : ∃ fp, w.jobSets.current.spec.failurePolicy = some fp := by
    have hbypass := hconfig.noBypass
    unfold shouldBypassBarrier isInPlaceRestartStrategy at hbypass
    cases hfp : w.jobSets.current.spec.failurePolicy with
    | none => simp [hfp] at hbypass
    | some fp => exact ⟨fp, rfl⟩
  have htotal : getTotalNumberOfPods (Pass.start w.jobSets.current).js =
      .ok (attempts.length : ℤ) := hlength ▸ hconfig.expected
  have hne : attempts ≠ [] := fun hnil => by
    rw [hnil] at hlength
    exact hN.ne hlength
  by_cases hover : Over (w.controllerTurn now)
  · exact Or.inl hover
  · refine Or.inr ?_
    have hshows : ∀ s' : Epochs (Fin N),
        (w.controllerTurn now).jobSets.current.status.currentInPlaceRestartAttempt =
          s'.current.map Nat.cast →
        (w.controllerTurn now).jobSets.current.status.previousInPlaceRestartAttempt =
          s'.previous.map Nat.cast →
        s'.announced = s.announced → s'.joined = s.joined → s'.lifted = s.lifted →
        Shows N (w.controllerTurn now) s' := by
      intro s' hcurrent hprevious hannounced hjoined hlifted
      refine ⟨h.reachable.controllerTurn now, ?_, ?_, hcurrent, hprevious, fun i => ?_⟩
      · exact Bool.eq_false_iff.mpr fun hf => hover (Or.inl hf)
      · exact not_le.mp fun hle => hover (Or.inr hle)
      · rw [hannounced, hjoined, hlifted]
        exact (h.members i).controllerTurn now
    have hlast : slicesMax attempts = (s.last : ℤ) := by
      obtain ⟨i, hi⟩ := (hmem _).mp (slicesMax_mem hne)
      obtain ⟨j, hj⟩ := s.exists_last
      have hle := s.announced_le_last i
      have hge := le_slicesMax ((hmem _).mpr ⟨j, rfl⟩)
      omega
    have hhead : ∃ i, attempts.headD 0 = (s.announced i : ℤ) := by
      obtain ⟨a, rest, hcons⟩ := List.exists_cons_of_ne_nil hne
      rw [hcons]
      exact (hmem a).mp (hcons ▸ List.mem_cons_self)
    have hequal : allEqual attempts = true ↔ ∀ i, s.announced i = s.last := by
      rw [allEqual_iff]
      obtain ⟨j, hj⟩ := s.exists_last
      constructor
      · rintro ⟨-, hall⟩ i
        have hi := hall _ ((hmem _).mpr ⟨i, rfl⟩)
        have hl := hall _ ((hmem _).mpr ⟨j, rfl⟩)
        omega
      · intro hall
        refine ⟨hne, fun a ha => ?_⟩
        obtain ⟨i, rfl⟩ := (hmem a).mp ha
        obtain ⟨k, hk⟩ := hhead
        rw [hk, hall i, hall k]
    rcases reconcileInPlaceRestart_outcome (p := .start w.jobSets.current) now hpolicy
      hattempts htotal with hfail | hok
    · -- the controller has failed the JobSet
      obtain ⟨hupdate, hfinished⟩ := reachedMaxRestarts_status now h.running
      have hstatus := controllerTurn_status h.running hfail fun hnot => by
        rw [hupdate] at hnot
        cases hnot
      exact absurd (Or.inl (hfinished _ hstatus)) hover
    · by_cases hall : ∀ i, s.announced i = s.last
      · rw [if_pos (hequal.mpr hall)] at hok
        obtain ⟨hupdate, hcurrent, hprevious⟩ := updateCurrent_status attempts w.jobSets.current
        have hstatus := controllerTurn_status h.running hok hupdate
        obtain ⟨k, hk⟩ := hhead
        unfold Epochs.coordinatorTurn
        rw [if_pos hall]
        apply hshows
        · rw [hstatus, hcurrent, hk, hall k]
          rfl
        · rw [hstatus, hprevious, h.previous]
        · exact rfl
        · exact rfl
        · exact rfl
      · have hpositive : s.last ≠ 0 := fun hzero => hall fun i => by
          have := s.announced_le_last i
          omega
        have hraise : ¬ (attempts = [] ∨ slicesMax attempts = 0) := by
          rw [hlast]
          exact fun hor => hor.elim hne fun hzero => hpositive (by omega)
        rw [if_neg (fun he => hall (hequal.mp he)), if_neg hraise] at hok
        obtain ⟨hupdate, hcurrent, hprevious⟩ := updatePrevious_status hne w.jobSets.current
        have hstatus := controllerTurn_status h.running hok hupdate
        have hbound : s.last ≤ s.frontier := by
          obtain ⟨j, hj⟩ := s.exists_last
          exact hj ▸ (h.bounds j).1
        have hcut : int32 (slicesMax attempts - 1) = ((s.last - 1 : ℕ) : ℤ) := by
          rw [hlast, int32_of_range (by omega) (by omega)]
          omega
        have hskip : w.jobSets.current.status.previousInPlaceRestartAttempt.any
            (((s.last - 1 : ℕ) : ℤ) ≤ ·) = s.previous.any (s.last - 1 ≤ ·) := by
          rw [h.previous]
          cases s.previous <;> simp
        rw [hcut, hskip] at hprevious
        unfold Epochs.coordinatorTurn
        rw [if_neg hall]
        split_ifs with hany
        · rw [if_pos hany] at hprevious
          apply hshows
          · rw [hstatus, hcurrent, h.current]
          · rw [hstatus, hprevious, h.previous]
          · exact rfl
          · exact rfl
          · exact rfl
        · rw [if_neg hany] at hprevious
          apply hshows
          · rw [hstatus, hcurrent, h.current]
          · rw [hstatus, hprevious]
            rfl
          · exact rfl
          · exact rfl
          · exact rfl

end Controller

/-! ## Recovery -/

/-- Each turn is one of the barrier over epochs, as long as the JobSet is not over. -/
theorem turn_shows (hN : 0 < N) (t : Turn) (w : World) (s : Epochs (Fin N)) (h : Shows N w s) :
    (Reachable N (w.turn N t) ∧ Over (w.turn N t)) ∨
      Shows N (w.turn N t) (Epochs.turn (t.party N) s) := by
  cases t with
  | agent index pod workerCommand =>
    apply Or.inr
    unfold Turn.party
    dsimp only
    split_ifs with hindex
    · exact h.member_turn ⟨index, hindex⟩ pod workerCommand
    · have hidle : w.turn N (.agent index pod workerCommand) = w := if_neg hindex
      rw [hidle]
      exact h
  | controller now =>
    rcases h.controller_turn hN now with hover | hshows
    · exact Or.inl ⟨h.reachable.controllerTurn now, hover⟩
    · exact Or.inr hshows
  | kubelet report =>
    apply Or.inr
    have hjobSets : (w.turn N (.kubelet report)).jobSets = w.jobSets :=
      (reportTurn_frame report w).1
    apply h.of_members hjobSets rfl rfl
    exact fun i => (h.members i).reportTurn (reachable_inv h.reachable).pods.distinct.current report

/-- The worker of every expected pod runs, all of them in the attempt that was released. -/
def Released (N : ℕ) (w : World) : Prop :=
  ∃ attempt, w.jobSets.current.status.currentInPlaceRestartAttempt = some attempt ∧
    ∀ i < N, ∃ o ∈ w.pods.current, o.index = i ∧ ¬ o.failed ∧
      o.rawAttempt = some (itoa attempt) ∧ ∃ p, w.processes o.uid = some p ∧ p.run = none ∧
      p.memory.podInPlaceRestartAttempt = some attempt ∧ p.memory.isBarrierActive = false

theorem Shows.released {w : World} {s : Epochs (Fin N)} (h : Shows N w s) (hN : 0 < N)
    (hs : s.Aligned) : Released N w := by
  have hcurrent := Epochs.current_of_frontier (hs.announced ⟨0, hN⟩).symm
  refine ⟨s.announced ⟨0, hN⟩, by rw [h.current, hcurrent]; rfl, fun i hi => ?_⟩
  have hsame : s.announced ⟨i, hi⟩ = s.announced ⟨0, hN⟩ := by
    have hi' := hs.announced ⟨i, hi⟩
    have h0 := hs.announced ⟨0, hN⟩
    omega
  obtain ⟨o, ho, hindex, hf, hraw, hjoined, -⟩ := h.members ⟨i, hi⟩
  obtain ⟨p, hp, hidle, hmemory, hlifted⟩ := hjoined (hs.joined _)
  rw [hsame] at hraw hmemory
  exact ⟨o, ho, hindex, hf, hraw, p, hp, hidle, hmemory, hlifted (hs.lifted _)⟩

/-- **The barrier does not block.** From every state that a run can come to, six rounds of
turns, in whatever order the turns fall, bring the workers of all expected pods to run in the
released attempt, unless the JobSet finishes or its attempts come to the end of the 32-bit
integers. -/
theorem barrier_recovers (hN : 0 < N) {w : World} (hw : Reachable N w) {turns : List Turn}
    (hturns : Rounds (Turn.party N) Epochs.parties 6 turns) :
    let w' := runTurns (fun t w => w.turn N t) turns w
    Reachable N w' ∧ (jobSetFinished w'.jobSets.current = true ∨
      w'.jobSets.current.status.currentInPlaceRestartAttempt = some (2 ^ 31 - 1) ∨
      Released N w') := by
  have : Nonempty (Fin N) := ⟨⟨0, hN⟩⟩
  have hstable : Stable (fun t w => w.turn N t) fun w => Reachable N w ∧ Over w :=
    fun t w h => ⟨h.1.turn t, over_turn h.1 h.2 t⟩
  have hfirst : LeadsTo (fun t w => w.turn N t) (Turn.party N) Epochs.parties 1 (Reachable N)
      fun w => (Reachable N w ∧ Over w) ∨ ∃ s, Shows N w s ∧ s.Sound := by
    refine leadsTo_normal.mono fun w h => ?_
    by_cases hover : Over w
    · exact Or.inl ⟨h.1, hover⟩
    · exact Or.inr (shows_of_normal h.1 hover (h.2.resolve_left hover))
  have hrest : LeadsTo (fun t w => w.turn N t) (Turn.party N) Epochs.parties 5
      (fun w => (Reachable N w ∧ Over w) ∨ ∃ s, Shows N w s ∧ s.Sound)
      fun w => (Reachable N w ∧ Over w) ∨ ∃ s, Shows N w s ∧ s.Aligned :=
    LeadsTo.of_simulation Epochs.sound_stable hstable (fun t w s h _ => turn_shows hN t w s h)
      Epochs.converges
  have hreach : Stable (fun t w => w.turn N t) (Reachable N) := fun t w h => h.turn t
  refine ⟨hreach.run turns hw, ?_⟩
  rcases (hfirst.trans hrest) w hw turns hturns with ⟨hw', hfinished | hend⟩ | ⟨s, hshows, haligned⟩
  · exact Or.inl hfinished
  · apply Or.inr
    apply Or.inl
    generalize runTurns (fun t w => w.turn N t) turns w = w' at hw' hend ⊢
    unfold frontier at hend
    cases hc : w'.jobSets.current.status.currentInPlaceRestartAttempt with
    | none => simp [hc] at hend
    | some c =>
      have hlt := ((reachable_inv hw').versions.current.current c hc).2
      simp only [hc] at hend
      congr 1
      omega
  · exact Or.inr (Or.inr (hshows.released hN haligned))

/-- The turns of the agent of the only pod and of the controller. -/
def onePodRound : List Turn := [.agent 0 (thePod ∅).pod "run", .controller 0]

/-- From nothing, the only pod is created and its worker comes to run in attempt 0. -/
theorem barrier_recovers_onePod : ∃ w, Reachable 1 w ∧
    w.jobSets.current.status.currentInPlaceRestartAttempt = some 0 ∧ Released 1 w := by
  have hround : ∀ b ∈ Epochs.parties, ∃ a ∈ onePodRound, Turn.party 1 a = b := by
    rintro b (rfl | ⟨i, rfl⟩)
    · exact ⟨.controller 0, by simp [onePodRound], rfl⟩
    · refine ⟨.agent 0 (thePod ∅).pod "run", by simp [onePodRound], ?_⟩
      rw [Subsingleton.elim i ⟨0, Nat.one_pos⟩]
      rfl
  obtain ⟨hreach, hend⟩ := barrier_recovers Nat.one_pos emptyWorld_reachable
    (rounds_replicate hround 6)
  have hfinished : jobSetFinished (runTurns (fun t w => w.turn 1 t)
      (List.replicate 6 onePodRound).flatten emptyWorld).jobSets.current = false := by
    decide +kernel
  have hcurrent : (runTurns (fun t w => w.turn 1 t) (List.replicate 6 onePodRound).flatten
      emptyWorld).jobSets.current.status.currentInPlaceRestartAttempt = some 0 := by
    decide +kernel
  refine ⟨_, hreach, hcurrent, ?_⟩
  rcases hend with hf | hlast | hreleased
  · rw [hfinished] at hf
    cases hf
  · rw [hcurrent] at hlast
    cases hlast
  · exact hreleased

end JobSetOperator.InPlace
