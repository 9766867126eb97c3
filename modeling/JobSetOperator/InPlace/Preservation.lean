import JobSetOperator.InPlace.Invariant

/-!
# Every step keeps the invariant of the barrier

The parts of the invariant are extended separately: a new JobSet version, a new
state of the pods, a changed process and a new event each have one lemma, and
the cases of `step_inv` combine them.
-/
namespace JobSetOperator.InPlace

open Library Library.Program

variable {N : ℕ}

/-! ## Versions of the JobSet -/

theorem frontier_eq_of_counters {js js' : JobSet}
    (h : js.status.inPlaceCounters = js'.status.inPlaceCounters) : frontier js = frontier js' := by
  have hc : js.status.currentInPlaceRestartAttempt = js'.status.currentInPlaceRestartAttempt :=
    congrArg Prod.snd h
  unfold frontier
  rw [hc]

theorem frontier_some {js : JobSet} {c : ℤ}
    (h : js.status.currentInPlaceRestartAttempt = some c) : frontier js = c + 1 := by
  unfold frontier
  rw [h]

theorem Versions.isLevel {jobSets : History JobSet} (h : Versions N jobSets) {j : ℕ}
    (hj : j ≤ jobSets.top) : IsLevel (frontier (jobSets.entry j)) := by
  cases hc : (jobSets.entry j).status.currentInPlaceRestartAttempt with
  | none =>
    unfold frontier IsLevel
    rw [hc]
    exact ⟨le_rfl, by norm_num⟩
  | some c =>
    have hrange := h.current j hj c hc
    rw [frontier_some hc]
    unfold IsLevel
    omega

/-- A new version that keeps the configuration and moves the counters as the
controller may. -/
theorem Versions.push {jobSets : History JobSet} (h : Versions N jobSets) {js : JobSet}
    (hconfig : Config N js)
    (hcurrent : ∀ c, js.status.currentInPlaceRestartAttempt = some c → 0 ≤ c ∧ c < 2 ^ 31)
    (hprevious : ∀ p, js.status.previousInPlaceRestartAttempt = some p →
      p < frontier js ∧ js.status.currentInPlaceRestartAttempt ≠ none)
    (hle : frontier jobSets.current ≤ frontier js)
    (hunit : frontier js ≤ frontier jobSets.current + 1)
    (hmono : ∀ p, jobSets.current.status.previousInPlaceRestartAttempt = some p →
      ∃ p', js.status.previousInPlaceRestartAttempt = some p' ∧ p ≤ p') :
    Versions N (jobSets.push js) where
  config := h.config.push hconfig
  current := h.current.push hcurrent
  previous := h.previous.push hprevious
  frontierMono := by
    refine h.frontierMono.push ?_ ?_ hle
    · intro a
      exact le_rfl
    · intro a b c hab hbc
      exact hab.trans hbc
  previousMono := by
    refine h.previousMono.push ?_ ?_ hmono
    · intro js p hp
      exact ⟨p, hp, le_rfl⟩
    · intro a b c hab hbc p hp
      obtain ⟨q, hq, hpq⟩ := hab p hp
      obtain ⟨r, hr, hqr⟩ := hbc q hq
      exact ⟨r, hr, hpq.trans hqr⟩
  unit := by
    intro i hi
    rcases Nat.lt_or_ge i jobSets.top with hlt | hge
    · rw [History.push_entry_of_le _ _ hlt, History.push_entry_of_le _ _ hlt.le]
      exact h.unit i hlt
    · have he : i = jobSets.top := by simp at hi; omega
      subst he
      rw [History.push_entry_top, History.push_entry_of_le _ _ le_rfl]
      exact hunit

/-- A version with the same counters. -/
theorem Versions.push_same {jobSets : History JobSet} (h : Versions N jobSets) {js : JobSet}
    (hconfig : Config N js)
    (hcounters : js.status.inPlaceCounters = jobSets.current.status.inPlaceCounters) :
    Versions N (jobSets.push js) := by
  have hf := frontier_eq_of_counters hcounters
  have hp : js.status.previousInPlaceRestartAttempt =
      jobSets.current.status.previousInPlaceRestartAttempt := congrArg Prod.fst hcounters
  have hc : js.status.currentInPlaceRestartAttempt =
      jobSets.current.status.currentInPlaceRestartAttempt := congrArg Prod.snd hcounters
  refine h.push hconfig ?_ ?_ hf.ge (by omega) ?_
  · rw [hc]
    exact h.current.current
  · rw [hc, hp, hf]
    exact h.previous.current
  · intro p hprev
    exact ⟨p, hp.trans hprev, le_rfl⟩

/-! ## States of the pods -/

theorem Floor.mono {pods : History (List PodObject)} {index : ℕ} {b b' : ℤ}
    (h : Floor pods index b) (hb : b ≤ b') : Floor pods index b' := by
  intro t ht o ho hi hf n hn
  exact (h t ht o ho hi hf n hn).trans hb

instance : Std.Symm PodObject.Apart where
  symm _ _ h := ⟨h.1.symm, fun he => (h.2 he.symm).symm⟩

theorem Distinct.apart {pods : List PodObject} (h : Distinct pods) {o o' : PodObject}
    (ho : o ∈ pods) (ho' : o' ∈ pods) (hne : o ≠ o') : o.Apart o' :=
  List.Pairwise.forall h ho ho' hne

theorem Distinct.eq_of_index {pods : List PodObject} (h : Distinct pods) {o o' : PodObject}
    (ho : o ∈ pods) (ho' : o' ∈ pods) (hf : ¬ o.failed) (hf' : ¬ o'.failed)
    (hi : o.index = o'.index) : o = o' := by
  by_contra hne
  rcases (h.apart ho ho' hne).2 hi with hfail | hfail
  · exact hf hfail
  · exact hf' hfail

/-- What a pod of the next state may look like: its annotation has not moved
below the earlier ones of its index. -/
structure Admissible (N : ℕ) (pods : History (List PodObject)) (uids : ℕ) (js : JobSet)
    (o : PodObject) : Prop where
  index : o.index < N
  uid : o.uid < uids
  level : o.rawAttempt = none ∨ ∃ n, o.At n ∧ n ≤ frontier js ∧
    (¬ o.failed → frontier js ≤ n + 1 ∧ Floor pods o.index n)

theorem Pods.push {pods : History (List PodObject)} {uids uids' : ℕ} {js : JobSet}
    (h : Pods N pods uids js) {l : List PodObject} (hdistinct : Distinct l)
    (hl : ∀ o ∈ l, Admissible N pods uids' js o) (huids : uids ≤ uids') :
    Pods N (pods.push l) uids' js where
  distinct := h.distinct.push hdistinct
  bounded := by
    refine (h.bounded.mono ?_).push fun o ho => ⟨(hl o ho).index, (hl o ho).uid⟩
    intro l' hl' o ho
    exact ⟨(hl' o ho).1, (hl' o ho).2.trans_le huids⟩
  upper := by
    refine h.upper.push fun o ho => ?_
    rcases (hl o ho).level with hnone | ⟨n, hn, hle, -⟩
    · exact Or.inl hnone
    · exact Or.inr ⟨n, hn, hle⟩
  lower := by
    intro o ho hf n hn
    rw [History.push_current] at ho
    rcases (hl o ho).level with hnone | ⟨m, hm, -, hlow⟩
    · rw [hn.2] at hnone
      cases hnone
    · rw [hn.unique hm]
      exact (hlow hf).1
  climb := by
    intro t ht o ho hf n hn s hs o' ho' hi hf' m hm
    rcases History.push_entry_cases pods l ht with ⟨htop, he⟩ | ⟨rfl, he⟩
    · rw [he] at ho
      rw [History.push_entry_of_le _ _ (hs.trans htop)] at ho'
      exact h.climb t htop o ho hf n hn s hs o' ho' hi hf' m hm
    · rw [he] at ho
      rcases (hl o ho).level with hnone | ⟨n', hn', -, hlow⟩
      · rw [hn.2] at hnone
        cases hnone
      · rw [hn.unique hn']
        rcases History.push_entry_cases pods l (hs.trans ht) with ⟨hstop, he'⟩ | ⟨rfl, he'⟩
        · rw [he'] at ho'
          exact (hlow hf).2 s hstop o' ho' hi hf' m hm
        · rw [he'] at ho'
          have heq := hdistinct.eq_of_index ho' ho hf' hf hi
          subst heq
          exact (hm.unique hn').le

/-- A pod that keeps its identity and its annotation stays admissible. -/
theorem Pods.admissible_of_same {pods : History (List PodObject)} {uids uids' : ℕ} {js : JobSet}
    (h : Pods N pods uids js) (huids : uids ≤ uids') {o o' : PodObject} (ho : o ∈ pods.current)
    (huid : o'.uid = o.uid) (hindex : o'.index = o.index) (hann : o'.rawAttempt = o.rawAttempt)
    (hfailed : o.failed → o'.failed) : Admissible N pods uids' js o' where
  index := hindex ▸ (h.bounded.current o ho).1
  uid := huid ▸ ((h.bounded.current o ho).2.trans_le huids)
  level := by
    rcases h.upper.current o ho with hnone | ⟨n, hn, hle⟩
    · exact Or.inl (hann.trans hnone)
    · refine Or.inr ⟨n, ⟨hn.1, hann.trans hn.2⟩, hle, fun hf => ?_⟩
      have hof : ¬ o.failed := fun hfail => hf (hfailed hfail)
      refine ⟨h.lower o ho hof n hn, ?_⟩
      intro t ht o'' ho'' hi hf'' m hm
      exact h.climb pods.top le_rfl o ho hof n hn t ht o'' ho'' (hi.trans hindex) hf'' m hm

theorem distinct_replacePod {pods : List PodObject} (h : Distinct pods) {o o' : PodObject}
    (ho : o ∈ pods) (huid : o'.uid = o.uid) (hindex : o'.index = o.index)
    (hfailed : o.failed → o'.failed) : Distinct (replacePod o' pods) := by
  unfold Distinct replacePod
  rw [List.pairwise_map]
  refine List.Pairwise.imp_of_mem ?_ h
  intro a b ha hb hab
  -- an entry with the uid of `o` is `o` itself
  have hsame : ∀ x ∈ pods, x.uid = o'.uid → x = o := by
    intro x hx hxu
    by_contra hne
    exact (h.apart hx ho hne).1 (hxu.trans huid)
  split_ifs with h1 h2 h2
  · exact absurd (h1.trans h2.symm) hab.1
  · have hao := hsame a ha h1
    subst hao
    refine ⟨Ne.symm h2, fun hi => ?_⟩
    exact (hab.2 (hindex.symm.trans hi)).imp_left hfailed
  · have hbo := hsame b hb h2
    subst hbo
    refine ⟨h1, fun hi => ?_⟩
    exact (hab.2 (hi.trans hindex)).imp_right hfailed
  · exact hab

theorem mem_replacePod {pods : List PodObject} {o' x : PodObject} (hx : x ∈ replacePod o' pods) :
    x = o' ∨ (x ∈ pods ∧ x.uid ≠ o'.uid) := by
  unfold replacePod at hx
  obtain ⟨y, hy, rfl⟩ := List.mem_map.mp hx
  split_ifs with h
  · exact Or.inl rfl
  · exact Or.inr ⟨hy, h⟩

theorem Pods.congr {pods : History (List PodObject)} {uids : ℕ} {js js' : JobSet}
    (h : Pods N pods uids js) (hf : frontier js = frontier js') : Pods N pods uids js' where
  distinct := h.distinct
  bounded := h.bounded
  upper := hf ▸ h.upper
  lower := hf ▸ h.lower
  climb := h.climb

/-! ## Processes -/

/-- A new version does not change what a process has read. -/
theorem ProcessOk.push {jobSets : History JobSet} {p : Process} (h : ProcessOk jobSets p)
    (js : JobSet) : ProcessOk (jobSets.push js) p where
  born := h.born
  seen := h.seen.trans (Nat.le_succ _)
  memory := by
    intro x hx
    obtain ⟨j, hborn, hseen, hj⟩ := h.memory x hx
    refine ⟨j, hborn, hseen, ?_⟩
    rw [History.push_entry_of_le _ _ (hseen.trans h.seen)]
    exact hj
  run := by
    intro run hrun
    rw [History.push_entry_of_le _ _ h.seen]
    exact h.run run hrun

theorem process_update_cases {f : ℕ → Option Process} {uid u : ℕ} {p q : Process}
    (hq : Function.update f uid (some p) u = some q) :
    (u = uid ∧ q = p) ∨ (u ≠ uid ∧ f u = some q) := by
  by_cases hu : u = uid
  · subst hu
    rw [Function.update_self, Option.some.injEq] at hq
    exact Or.inl ⟨rfl, hq.symm⟩
  · rw [Function.update_of_ne hu] at hq
    exact Or.inr ⟨hu, hq⟩

/-- One process takes a step of its own. -/
theorem Inv.setProcess {w : World} (h : Inv N w) {uid : ℕ} {p p' : Process}
    (hp : w.processes uid = some p) (hid : p'.id = p.id) (hborn : p'.born = p.born)
    (hseen : p.seen ≤ p'.seen) (hok : ProcessOk w.jobSets p') (hlifted : p.lifted → p'.lifted) :
    Inv N (w.setProcess uid (some p')) where
  versions := h.versions
  pods := h.pods
  processes := by
    have hold := h.processes.ok uid p hp
    refine ⟨?_, ?_, ?_⟩
    · intro u q hq
      rcases process_update_cases hq with ⟨rfl, rfl⟩ | ⟨-, hqold⟩
      · exact ⟨hok, hold.2.1, hid ▸ hold.2.2⟩
      · exact h.processes.ok u q hqold
    · intro u u' q q' hq hq' hids
      rcases process_update_cases hq with ⟨rfl, rfl⟩ | ⟨-, hqold⟩
      · rcases process_update_cases hq' with ⟨rfl, rfl⟩ | ⟨-, hqold'⟩
        · rfl
        · exact h.processes.ids u u' p q' hp hqold' (hid ▸ hids)
      · rcases process_update_cases hq' with ⟨rfl, rfl⟩ | ⟨-, hqold'⟩
        · exact h.processes.ids u u' q p hqold hp (hids.trans hid)
        · exact h.processes.ids u u' q q' hqold hqold' hids
    · intro u q hq o ho hou hf
      rcases process_update_cases hq with ⟨rfl, rfl⟩ | ⟨-, hqold⟩
      · exact (h.processes.floor u p hp o ho hou hf).mono
          (h.versions.frontierMono p.seen q.seen hseen hok.seen)
      · exact h.processes.floor u q hqold o ho hou hf
  log := by
    refine ⟨h.log.seen, h.log.reading, h.log.backed, ?_, h.log.justified, h.log.differ⟩
    intro u pid attempt hmem
    obtain ⟨hpid, x, hx, hlevel, hlt, hall⟩ := h.log.starts u pid attempt hmem
    refine ⟨hpid, x, hx, hlevel, hlt, fun u' q hq => ?_⟩
    rcases process_update_cases hq with ⟨rfl, rfl⟩ | ⟨-, hqold⟩
    · obtain ⟨hsame, hother⟩ := hall u' p hp
      rw [hid, hborn]
      exact ⟨fun he => ⟨(hsame he).1, hlifted (hsame he).2⟩, hother⟩
    · exact hall u' q hqold

/-- A process ends. -/
theorem Inv.removeProcess {w : World} (h : Inv N w) (uid : ℕ) : Inv N (w.setProcess uid none) := by
  have hold : ∀ u q, (w.setProcess uid none).processes u = some q → w.processes u = some q := by
    intro u q hq
    by_cases hu : u = uid
    · subst hu
      simp [World.setProcess] at hq
    · simpa only [World.setProcess, Function.update_of_ne hu] using hq
  refine ⟨h.versions, h.pods, ⟨?_, ?_, ?_⟩,
    ⟨h.log.seen, h.log.reading, h.log.backed, ?_, h.log.justified, h.log.differ⟩⟩
  · intro u q hq
    exact h.processes.ok u q (hold u q hq)
  · intro u u' q q' hq hq' hids
    exact h.processes.ids u u' q q' (hold u q hq) (hold u' q' hq') hids
  · intro u q hq
    exact h.processes.floor u q (hold u q hq)
  · intro u pid attempt hmem
    obtain ⟨hpid, x, hx, hlevel, hlt, hall⟩ := h.log.starts u pid attempt hmem
    exact ⟨hpid, x, hx, hlevel, hlt, fun u' q hq => hall u' q (hold u' q hq)⟩

/-- A process starts in a pod that has none. -/
theorem Inv.startProcess {w : World} (h : Inv N w) {o : PodObject} (ho : o ∈ w.pods.current)
    (workerCommand : String) :
    Inv N { w with
      processes := Function.update w.processes o.uid
        (some ⟨w.pids, .new workerCommand, w.jobSets.top, w.jobSets.top, none⟩)
      pids := w.pids + 1 } := by
  set p : Process := ⟨w.pids, .new workerCommand, w.jobSets.top, w.jobSets.top, none⟩ with hp
  have hok : ProcessOk w.jobSets p := by
    refine ⟨le_rfl, le_rfl, ?_, ?_⟩
    · intro x hx
      cases hx
    · intro run hrun
      cases hrun
  refine ⟨h.versions, h.pods, ⟨?_, ?_, ?_⟩,
    ⟨h.log.seen, h.log.reading, h.log.backed, ?_, h.log.justified, h.log.differ⟩⟩
  · intro u q hq
    rcases process_update_cases hq with ⟨rfl, rfl⟩ | ⟨-, hqold⟩
    · exact ⟨hok, (h.pods.bounded.current o ho).2, Nat.lt_succ_self _⟩
    · obtain ⟨hq1, hq2, hq3⟩ := h.processes.ok u q hqold
      exact ⟨hq1, hq2, hq3.trans (Nat.lt_succ_self _)⟩
  · intro u u' q q' hq hq' hids
    rcases process_update_cases hq with ⟨rfl, rfl⟩ | ⟨-, hqold⟩
    · rcases process_update_cases hq' with ⟨rfl, rfl⟩ | ⟨-, hqold'⟩
      · rfl
      · exact absurd hids (h.processes.ok u' q' hqold').2.2.ne'
    · rcases process_update_cases hq' with ⟨rfl, rfl⟩ | ⟨-, hqold'⟩
      · exact absurd hids (h.processes.ok u q hqold).2.2.ne
      · exact h.processes.ids u u' q q' hqold hqold' hids
  · intro u q hq o' ho' hou hf
    rcases process_update_cases hq with ⟨rfl, rfl⟩ | ⟨-, hqold⟩
    · -- every annotation so far is at most the frontier the process starts from
      intro t ht o'' ho'' hi hf'' n hn
      rcases h.pods.upper t ht o'' ho'' with hnone' | ⟨m, hm, hle⟩
      · rw [hn.2] at hnone'
        cases hnone'
      · rw [hn.unique hm]
        exact hle
    · exact h.processes.floor u q hqold o' ho' hou hf
  · intro u pid attempt hmem
    obtain ⟨hpid, x, hx, hlevel, hlt, hall⟩ := h.log.starts u pid attempt hmem
    refine ⟨hpid.trans (Nat.lt_succ_self _), x, hx, hlevel, hlt, fun u' q hq => ?_⟩
    rcases process_update_cases hq with ⟨rfl, rfl⟩ | ⟨-, hqold⟩
    · exact ⟨fun he => absurd he hpid.ne', fun _ _ => hlt⟩
    · exact hall u' q hqold

/-! ## New states of the pods -/

/-- The pods change. A pod with a process is one that was there before, at a
level its process allows. -/
theorem Inv.pushPods {w : World} (h : Inv N w) {l : List PodObject} {uids : ℕ}
    (hdistinct : Distinct l) (hl : ∀ o ∈ l, Admissible N w.pods uids w.jobSets.current o)
    (huids : w.uids ≤ uids)
    (horigin : ∀ o' ∈ l, ∀ p, w.processes o'.uid = some p → ∃ o ∈ w.pods.current,
      o.uid = o'.uid ∧ o.index = o'.index ∧ (o.failed → o'.failed) ∧
      (¬ o'.failed → ∀ n, o'.At n → n ≤ frontier (w.jobSets.entry p.seen))) :
    Inv N { w with pods := w.pods.push l, uids := uids } where
  versions := h.versions
  pods := h.pods.push hdistinct hl huids
  processes := by
    refine ⟨?_, h.processes.ids, ?_⟩
    · intro u q hq
      obtain ⟨hq1, hq2, hq3⟩ := h.processes.ok u q hq
      exact ⟨hq1, hq2.trans_le huids, hq3⟩
    · intro u q hq o' ho' hou hf
      change o' ∈ (w.pods.push l).current at ho'
      rw [History.push_current] at ho'
      subst hou
      obtain ⟨o, ho, huid, hindex, hfailed, hlevel⟩ := horigin o' ho' q hq
      have hof : ¬ o.failed := fun hfail => hf (hfailed hfail)
      have hfloor := h.processes.floor o'.uid q hq o ho huid hof
      intro t ht o'' ho'' hi hf'' n hn
      rcases History.push_entry_cases w.pods l ht with ⟨htop, he⟩ | ⟨-, he⟩
      · rw [he] at ho''
        exact hfloor t htop o'' ho'' (hi.trans hindex.symm) hf'' n hn
      · rw [he] at ho''
        have heq := hdistinct.eq_of_index ho'' ho' hf'' hf hi
        subst heq
        exact hlevel hf n hn
  log := by
    have hentry : ∀ s ≤ w.controller.podsSeen, (w.pods.push l).entry s = w.pods.entry s :=
      fun s hs => History.push_entry_of_le _ _ (hs.trans h.log.seen)
    refine ⟨h.log.seen.trans (Nat.le_succ _), ?_, ?_, h.log.starts, h.log.justified, h.log.differ⟩
    · intro v s hr
      obtain ⟨hs, hmem⟩ := h.log.reading v s hr
      refine ⟨hs, ?_⟩
      change Event.snapshot ((w.pods.push l).entry s) ∈ w.trace
      rw [hentry s hs.le]
      exact hmem
    · intro j hj c hc
      obtain ⟨hN, s, hs, hcarry, hmem⟩ := h.log.backed j hj c hc
      refine ⟨hN, s, hs, ?_⟩
      change AllCarry N ((w.pods.push l).entry s) c ∧ Event.snapshot ((w.pods.push l).entry s) ∈ w.trace
      rw [hentry s hs]
      exact ⟨hcarry, hmem⟩

/-- A pod with a process that keeps its place and its annotation. -/
theorem Inv.origin_of_same {w : World} (h : Inv N w) {o o' : PodObject}
    (ho : o ∈ w.pods.current) (huid : o'.uid = o.uid) (hindex : o'.index = o.index)
    (hann : o'.rawAttempt = o.rawAttempt) (hfailed : o.failed → o'.failed) :
    ∀ p, w.processes o'.uid = some p → ∃ x ∈ w.pods.current, x.uid = o'.uid ∧
      x.index = o'.index ∧ (x.failed → o'.failed) ∧
      (¬ o'.failed → ∀ n, o'.At n → n ≤ frontier (w.jobSets.entry p.seen)) := by
  intro p hp
  refine ⟨o, ho, huid.symm, hindex.symm, hfailed, fun hf n hn => ?_⟩
  have hof : ¬ o.failed := fun hfail => hf (hfailed hfail)
  exact h.processes.floor o'.uid p hp o ho huid.symm hof w.pods.top le_rfl o ho rfl hof n
    ⟨hn.1, hann ▸ hn.2⟩

theorem Inv.createPod {w : World} (h : Inv N w) {index : ℕ} {pod : Pod} (hindex : index < N)
    (hfree : ∀ o ∈ w.pods.current, o.index = index → o.failed)
    (hnew : pod.annotations.lookup inPlaceRestartAttemptKey = none) :
    Inv N { w with
      pods := w.pods.push (⟨w.uids, index, pod⟩ :: w.pods.current)
      uids := w.uids + 1 } := by
  refine h.pushPods ?_ ?_ (Nat.le_succ _) ?_
  · refine List.pairwise_cons.mpr ⟨fun o ho => ?_, h.pods.distinct.current⟩
    exact ⟨(h.pods.bounded.current o ho).2.ne', fun hi => Or.inr (hfree o ho hi.symm)⟩
  · intro o ho
    rcases List.mem_cons.mp ho with rfl | ho
    · exact ⟨hindex, Nat.lt_succ_self _, Or.inl hnew⟩
    · exact h.pods.admissible_of_same (Nat.le_succ _) ho rfl rfl rfl id
  · intro o ho p hp
    rcases List.mem_cons.mp ho with rfl | ho
    · exact absurd (h.processes.ok _ p hp).2.1 (lt_irrefl _)
    · exact h.origin_of_same ho rfl rfl rfl id p hp

theorem Inv.changePod {w : World} (h : Inv N w) {o o' : PodObject} (ho : o ∈ w.pods.current)
    (huid : o'.uid = o.uid) (hindex : o'.index = o.index)
    (hann : o'.rawAttempt = o.rawAttempt) (hfailed : o.failed → o'.failed) :
    Inv N { w with pods := w.pods.push (replacePod o' w.pods.current) } := by
  refine h.pushPods (distinct_replacePod h.pods.distinct.current ho huid hindex hfailed) ?_
    le_rfl ?_
  · intro x hx
    rcases mem_replacePod hx with rfl | ⟨hx, -⟩
    · exact h.pods.admissible_of_same le_rfl ho huid hindex hann hfailed
    · exact h.pods.admissible_of_same le_rfl hx rfl rfl rfl id
  · intro x hx p hp
    rcases mem_replacePod hx with rfl | ⟨hx, -⟩
    · exact h.origin_of_same ho huid hindex hann hfailed p hp
    · exact h.origin_of_same hx rfl rfl rfl id p hp

theorem Inv.removePod {w : World} (h : Inv N w) (uid : ℕ) :
    Inv N { w with pods := w.pods.push (w.pods.current.filter fun o => o.uid ≠ uid) } := by
  refine h.pushPods (List.Pairwise.filter _ h.pods.distinct.current) ?_ le_rfl ?_
  · intro o ho
    exact h.pods.admissible_of_same le_rfl (List.mem_filter.mp ho).1 rfl rfl rfl id
  · intro o ho p hp
    exact h.origin_of_same (List.mem_filter.mp ho).1 rfl rfl rfl id p hp

/-- The current attempt was carried by the index at a time the controller has seen. -/
theorem Inv.carried {w : World} (h : Inv N w) {index : ℕ} (hindex : index < N) {c : ℤ}
    (hc : w.jobSets.current.status.currentInPlaceRestartAttempt = some c) :
    ∃ s ≤ w.controller.podsSeen, ∃ o ∈ w.pods.entry s, o.index = index ∧ ¬ o.failed ∧ o.At c := by
  obtain ⟨-, s, hs, hcarry, -⟩ := h.log.backed w.jobSets.top le_rfl c hc
  obtain ⟨o, ho, hi, hf, hann⟩ := hcarry index hindex
  obtain ⟨hc0, hc31⟩ := h.versions.current.current c hc
  refine ⟨s, hs, o, ho, hi, hf, ⟨by unfold IsLevel; omega, ?_⟩⟩
  rw [int32_of_range (by omega) hc31]
  exact hann

/-- A level above everything its index has carried is within one of the frontier. -/
theorem Inv.frontier_le_of_floor {w : World} (h : Inv N w) {index : ℕ} (hindex : index < N) {n : ℤ}
    (hn : IsLevel n) (hfloor : Floor w.pods index n) : frontier w.jobSets.current ≤ n + 1 := by
  cases hc : w.jobSets.current.status.currentInPlaceRestartAttempt with
  | none =>
    unfold frontier
    rw [hc]
    unfold IsLevel at hn
    simp only
    omega
  | some c =>
    obtain ⟨s, hs, o, ho, hi, hf, hat⟩ := h.carried hindex hc
    have hle := hfloor s (hs.trans h.log.seen) o ho hi hf c hat
    rw [frontier_some hc]
    omega

/-- A patch takes effect. -/
theorem Inv.landPatch {w : World} (h : Inv N w) {p : Process} {o : PodObject}
    (ho : o ∈ w.pods.current) (hp : w.processes o.uid = some p) {value : ℤ}
    (hvalue : value = int32 (frontier (w.jobSets.entry p.seen))) :
    Inv N { w with pods := w.pods.push (replacePod (o.annotate value) w.pods.current) } := by
  obtain ⟨hok, -, -⟩ := h.processes.ok o.uid p hp
  have hlevel := h.versions.isLevel hok.seen
  have hat : (o.annotate value).At (frontier (w.jobSets.entry p.seen)) := by
    refine ⟨hlevel, ?_⟩
    rw [PodObject.annotate_rawAttempt, hvalue]
  have hbound := h.pods.bounded.current o ho
  refine h.pushPods (distinct_replacePod h.pods.distinct.current ho rfl rfl id) ?_ le_rfl ?_
  · intro x hx
    rcases mem_replacePod hx with rfl | ⟨hx, -⟩
    · refine ⟨hbound.1, hbound.2, Or.inr ⟨_, hat, h.versions.frontierMono.le_current hok.seen, ?_⟩⟩
      intro hf
      have hfloor := h.processes.floor o.uid p hp o ho rfl hf
      exact ⟨h.frontier_le_of_floor hbound.1 hlevel hfloor, hfloor⟩
    · exact h.pods.admissible_of_same le_rfl hx rfl rfl rfl id
  · intro x hx q hq
    rcases mem_replacePod hx with rfl | ⟨hx, -⟩
    · rw [PodObject.annotate_uid, hp, Option.some.injEq] at hq
      subst hq
      exact ⟨o, ho, rfl, rfl, id, fun _ n hn => (hn.unique hat).le⟩
    · exact h.origin_of_same hx rfl rfl rfl id q hq

/-! ## The controller -/

/-- Every attempt the controller collects is the level of a pod that has not failed. -/
theorem Pods.attempt_at {pods : History (List PodObject)} {uids : ℕ} {js : JobSet}
    (h : Pods N pods uids js) {s : ℕ} (hs : s ≤ pods.top) {o : PodObject}
    (ho : o ∈ pods.entry s) {n : ℤ} (hraw : o.pod.attempt = some n) (hn : 0 ≤ n) :
    o.At (int32 n) ∧ int32 n ≤ frontier js ∧ 0 ≤ int32 n ∧ int32 n < 2 ^ 31 := by
  rcases h.upper s hs o ho with hnone | ⟨m, hm, hle⟩
  · simp only [PodObject.rawAttempt] at hnone
    simp [Pod.attempt, hnone] at hraw
  · have hann : o.pod.annotations.lookup inPlaceRestartAttemptKey = some (itoa (int32 m)) := hm.2
    have hatoi : atoi (itoa (int32 m)) = some n := by simpa [Pod.attempt, hann] using hraw
    obtain ⟨hnm, hcut⟩ := level_of_attempt hm.1 hatoi hn
    subst hnm
    rw [hcut]
    refine ⟨hm, hle, hn, ?_⟩
    have hlt := int32_level hm.1
    rw [hcut] at hlt
    have hlevel := hm.1
    unfold IsLevel at hlevel
    split_ifs at hlt <;> omega

theorem Pods.attempts_levels {pods : History (List PodObject)} {uids : ℕ} {js : JobSet}
    (h : Pods N pods uids js) {s : ℕ} (hs : s ≤ pods.top) {attempts : List ℤ}
    (hattempts : getPodInPlaceRestartAttempts ((pods.entry s).map (·.pod)) = .ok attempts)
    {x : ℤ} (hx : x ∈ attempts) : x ≤ frontier js ∧ 0 ≤ x ∧ x < 2 ^ 31 := by
  obtain ⟨hvalid, heq⟩ := getPodInPlaceRestartAttempts_ok hattempts
  rw [heq] at hx
  obtain ⟨pod, hpod, rfl⟩ := List.mem_map.mp hx
  obtain ⟨hmem, hann⟩ := List.mem_filter.mp hpod
  obtain ⟨n, hn, hpos⟩ := hvalid pod hmem hann
  obtain ⟨o, ho, rfl⟩ := List.mem_map.mp hmem
  rw [hn, Option.getD_some]
  exact (h.attempt_at hs ho hn hpos).2

/-- As many equal attempts as pods are expected: every index carries the attempt. -/
theorem Pods.allCarry {pods : History (List PodObject)} {uids : ℕ} {js : JobSet}
    (h : Pods N pods uids js) {s : ℕ} (hs : s ≤ pods.top) {attempts : List ℤ} {a : ℤ}
    (hattempts : getPodInPlaceRestartAttempts ((pods.entry s).map (·.pod)) = .ok attempts)
    (hlength : attempts.length = N) (hall : ∀ x ∈ attempts, x = a) :
    AllCarry N (pods.entry s) a := by
  obtain ⟨hvalid, heq⟩ := getPodInPlaceRestartAttempts_ok hattempts
  set counted := (pods.entry s).filter fun o => o.pod.annotated with hcounted
  have hfilter : ((pods.entry s).map (·.pod)).filter Pod.annotated = counted.map (·.pod) := by
    rw [List.filter_map]
    rfl
  -- the counted pods have distinct indexes below `N` and there are `N` of them
  have hmem : ∀ o ∈ counted, o ∈ pods.entry s ∧ ¬ o.failed := by
    intro o ho
    obtain ⟨hin, hann⟩ := List.mem_filter.mp ho
    refine ⟨hin, fun hf => ?_⟩
    unfold PodObject.failed at hf
    simp [Pod.annotated, hf] at hann
  have hnodup : (counted.map (·.index)).Nodup := by
    rw [List.nodup_iff_pairwise_ne, List.pairwise_map]
    refine List.Pairwise.imp_of_mem ?_ ((h.distinct s hs).filter _)
    intro o o' ho ho' happart hi
    rcases happart.2 hi with hf | hf
    · exact (hmem o ho).2 hf
    · exact (hmem o' ho').2 hf
  have hsub : (counted.map (·.index)).toFinset ⊆ Finset.range N := by
    intro i hi
    obtain ⟨o, ho, rfl⟩ := List.mem_map.mp (List.mem_toFinset.mp hi)
    exact Finset.mem_range.mpr (h.bounded s hs o (hmem o ho).1).1
  have hcard : (counted.map (·.index)).toFinset.card = N := by
    rw [List.toFinset_card_of_nodup hnodup, List.length_map]
    rw [heq, hfilter, List.length_map, List.length_map] at hlength
    exact hlength
  have hcover := Finset.eq_of_subset_of_card_le hsub (by rw [hcard, Finset.card_range])
  intro i hi
  have hin : i ∈ (counted.map (·.index)).toFinset := hcover ▸ Finset.mem_range.mpr hi
  obtain ⟨o, ho, hindex⟩ := List.mem_map.mp (List.mem_toFinset.mp hin)
  obtain ⟨hoin, hof⟩ := hmem o ho
  refine ⟨o, hoin, hindex, hof, ?_⟩
  obtain ⟨n, hn, hpos⟩ := hvalid o.pod (List.mem_map_of_mem hoin) (List.mem_filter.mp ho).2
  have hlevel := h.attempt_at hs hoin hn hpos
  have hx : int32 n ∈ attempts := by
    rw [heq, hfilter]
    refine List.mem_map.mpr ⟨o.pod, List.mem_map_of_mem ho, ?_⟩
    rw [hn, Option.getD_some]
  rw [← hall _ hx, hlevel.1.2, int32_of_range (by omega) hlevel.2.2.2]

/-- A new version of the JobSet. -/
theorem Inv.pushJobSet {w : World} (h : Inv N w) {js : JobSet} {reading : Option (ℕ × ℕ)}
    (hversions : Versions N (w.jobSets.push js)) (hpods : Pods N w.pods w.uids js)
    (hle : frontier w.jobSets.current ≤ frontier js)
    (hreading : reading = w.controller.reading ∨ reading = none)
    (hbacked : ∀ c, js.status.currentInPlaceRestartAttempt = some c →
      0 < N ∧ ∃ s ≤ w.controller.podsSeen, AllCarry N (w.pods.entry s) c ∧
        .snapshot (w.pods.entry s) ∈ w.trace) :
    Inv N { w with
      jobSets := w.jobSets.push js
      controller := { w.controller with reading := reading } } where
  versions := hversions
  pods := by
    change Pods N w.pods w.uids (w.jobSets.push js).current
    rw [History.push_current]
    exact hpods
  processes := by
    refine ⟨?_, h.processes.ids, ?_⟩
    · intro u q hq
      obtain ⟨hq1, hq2, hq3⟩ := h.processes.ok u q hq
      exact ⟨hq1.push js, hq2, hq3⟩
    · intro u q hq o ho hou hf
      change Floor w.pods o.index (frontier ((w.jobSets.push js).entry q.seen))
      rw [History.push_entry_of_le _ _ (h.processes.ok u q hq).1.seen]
      exact h.processes.floor u q hq o ho hou hf
  log := by
    refine ⟨h.log.seen, ?_, ?_, ?_, h.log.justified, h.log.differ⟩
    · intro v s hr
      rcases hreading with rfl | rfl
      · exact h.log.reading v s hr
      · cases hr
    · intro j hj c hc
      change ((w.jobSets.push js).entry j).status.currentInPlaceRestartAttempt = some c at hc
      rcases History.push_entry_cases w.jobSets js hj with ⟨htop, he⟩ | ⟨-, he⟩
      · rw [he] at hc
        exact h.log.backed j htop c hc
      · rw [he] at hc
        exact hbacked c hc
    · intro u pid attempt hmem
      obtain ⟨hpid, x, hx, hlevel, hlt, hall⟩ := h.log.starts u pid attempt hmem
      refine ⟨hpid, x, hx, hlevel, ?_, fun u' q hq => ?_⟩
      · change x < frontier (w.jobSets.push js).current
        rw [History.push_current]
        exact hlt.trans_le hle
      · change (q.id = pid → u' = u ∧ q.lifted) ∧
          (q.id ≠ pid → u' = u → x < frontier ((w.jobSets.push js).entry q.born))
        have hq' := (h.processes.ok u' q hq).1
        rw [History.push_entry_of_le _ _ (hq'.born.trans hq'.seen)]
        exact hall u' q hq

/-- A version that keeps both counters. -/
theorem Inv.pushSame {w : World} (h : Inv N w) {js : JobSet} {reading : Option (ℕ × ℕ)}
    (hconfig : Config N js)
    (hcounters : js.status.inPlaceCounters = w.jobSets.current.status.inPlaceCounters)
    (hreading : reading = w.controller.reading ∨ reading = none) :
    Inv N { w with
      jobSets := w.jobSets.push js
      controller := { w.controller with reading := reading } } := by
  have hf := frontier_eq_of_counters hcounters
  refine h.pushJobSet (h.versions.push_same hconfig hcounters) (h.pods.congr hf.symm) hf.ge
    hreading ?_
  intro c hc
  have hcur : js.status.currentInPlaceRestartAttempt =
      w.jobSets.current.status.currentInPlaceRestartAttempt := congrArg Prod.snd hcounters
  exact h.log.backed w.jobSets.top le_rfl c (hcur ▸ hc)

/-- The controller releases the attempt all expected pods carry. A list it reads
is not older than the one behind the current attempt, so the attempt of any
index is not below the current one. -/
theorem Inv.raiseCurrent {w : World} (h : Inv N w) {js : JobSet} {s : ℕ} {a : ℤ}
    (hs : s = w.controller.podsSeen) (hsnap : .snapshot (w.pods.entry s) ∈ w.trace)
    (hconfig : Config N js) (hN : 0 < N) (hcarry : AllCarry N (w.pods.entry s) a)
    (ha : a ≤ frontier w.jobSets.current ∧ 0 ≤ a ∧ a < 2 ^ 31)
    (hcounters : js.status.inPlaceCounters =
      (w.jobSets.current.status.previousInPlaceRestartAttempt, some a)) :
    Inv N { w with
      jobSets := w.jobSets.push js
      controller := { w.controller with reading := none } } := by
  have hprev : js.status.previousInPlaceRestartAttempt =
      w.jobSets.current.status.previousInPlaceRestartAttempt := congrArg Prod.fst hcounters
  have hcur : js.status.currentInPlaceRestartAttempt = some a := congrArg Prod.snd hcounters
  have hfrontier : frontier js = a + 1 := frontier_some hcur
  have hstop : s ≤ w.pods.top := hs ▸ h.log.seen
  have hat : ∀ o : PodObject, o.rawAttempt = some (itoa a) → o.At a := by
    intro o hann
    refine ⟨by unfold IsLevel; omega, ?_⟩
    rw [int32_of_range (by omega) ha.2.2]
    exact hann
  have hle : frontier w.jobSets.current ≤ frontier js := by
    cases hc : w.jobSets.current.status.currentInPlaceRestartAttempt with
    | none =>
      unfold frontier at hfrontier ⊢
      rw [hc]
      simp only [hcur]
      omega
    | some c =>
      obtain ⟨s₀, hs₀, o₀, ho₀, hi₀, hf₀, hat₀⟩ := h.carried hN hc
      obtain ⟨o, ho, hi, hf, hann⟩ := hcarry 0 hN
      have hca := h.pods.climb s hstop o ho hf a (hat o hann) s₀ (hs ▸ hs₀) o₀ ho₀
        (hi₀.trans hi.symm) hf₀ c hat₀
      rw [frontier_some hc, hfrontier]
      omega
  refine h.pushJobSet ?_ ?_ hle (Or.inr rfl) ?_
  · refine h.versions.push hconfig ?_ ?_ hle (by omega) ?_
    · intro c hc
      rw [hcur, Option.some.injEq] at hc
      subst hc
      exact ha.2
    · intro p hp
      rw [hprev] at hp
      have hold := (h.versions.previous.current p hp).1
      exact ⟨hold.trans_le hle, by simp [hcur]⟩
    · intro p hp
      exact ⟨p, hprev.trans hp, le_rfl⟩
  · refine ⟨h.pods.distinct, h.pods.bounded, ?_, ?_, h.pods.climb⟩
    · refine h.pods.upper.mono fun l hl o ho => ?_
      rcases hl o ho with hnone | ⟨n, hn, hnle⟩
      · exact Or.inl hnone
      · exact Or.inr ⟨n, hn, hnle.trans hle⟩
    · intro o ho hf n hn
      obtain ⟨o', ho', hi', hf', hann'⟩ := hcarry o.index (h.pods.bounded.current o ho).1
      have han := h.pods.climb w.pods.top le_rfl o ho hf n hn s hstop o' ho' hi' hf' a
        (hat o' hann')
      omega
  · intro c hc
    rw [hcur, Option.some.injEq] at hc
    subst hc
    exact ⟨hN, s, hs.le, hcarry, hsnap⟩

/-- The controller marks the attempts below the highest one as outdated. -/
theorem Inv.raisePrevious {w : World} (h : Inv N w) {js : JobSet} {m : ℤ}
    (hconfig : Config N js) (hm : m ≤ frontier w.jobSets.current) (hpos : 0 < m)
    (hmono : ∀ prev, w.jobSets.current.status.previousInPlaceRestartAttempt = some prev →
      prev < m - 1)
    (hcounters : js.status.inPlaceCounters =
      (some (m - 1), w.jobSets.current.status.currentInPlaceRestartAttempt)) :
    Inv N { w with
      jobSets := w.jobSets.push js
      controller := { w.controller with reading := none } } := by
  have hprev : js.status.previousInPlaceRestartAttempt = some (m - 1) := congrArg Prod.fst hcounters
  have hcur : js.status.currentInPlaceRestartAttempt =
      w.jobSets.current.status.currentInPlaceRestartAttempt := congrArg Prod.snd hcounters
  have hf : frontier js = frontier w.jobSets.current := by
    unfold frontier
    rw [hcur]
  refine h.pushJobSet ?_ (h.pods.congr hf.symm) hf.ge (Or.inr rfl) ?_
  · refine h.versions.push hconfig ?_ ?_ hf.ge (by omega) ?_
    · rw [hcur]
      exact h.versions.current.current
    · intro p hp
      rw [hprev, Option.some.injEq] at hp
      have hfpos : 0 < frontier js := by omega
      refine ⟨by omega, fun hnone => ?_⟩
      unfold frontier at hfpos
      rw [hnone] at hfpos
      exact lt_irrefl _ hfpos
    · intro p hp
      exact ⟨m - 1, hprev, (hmono p hp).le⟩
  · intro c hc
    exact h.log.backed w.jobSets.top le_rfl c (hcur ▸ hc)

theorem Config.withStatus {js : JobSet} (h : Config N js) (status : JobSetStatus) :
    Config N { js with status := status } := ⟨h.noBypass, h.expected⟩

/-- A status write of the controller. -/
theorem Inv.controllerWrite {w : World} (h : Inv N w) {now : Time} {version s : ℕ} {p p' : Pass}
    (hreading : w.controller.reading = some (version, s))
    (hspec : p.js.spec = w.jobSets.current.spec)
    (hcounters : p.js.status.inPlaceCounters = w.jobSets.current.status.inPlaceCounters)
    (hok : reconcileInPlaceRestart now ((w.pods.entry s).map (·.pod)) p = .ok p') :
    Inv N { w with
      jobSets := w.jobSets.push { w.jobSets.current with status := p'.js.status }
      controller := { w.controller with reading := none } } := by
  have hconfig := h.versions.config.current
  obtain ⟨hs, hsnap⟩ := h.log.reading version s hreading
  have hstop : s ≤ w.pods.top := hs ▸ h.log.seen
  have hprev : p.js.status.previousInPlaceRestartAttempt =
      w.jobSets.current.status.previousInPlaceRestartAttempt := congrArg Prod.fst hcounters
  have hcur : p.js.status.currentInPlaceRestartAttempt =
      w.jobSets.current.status.currentInPlaceRestartAttempt := congrArg Prod.snd hcounters
  rcases reconcileInPlaceRestart_cases hok with hsame | ⟨attempts, a, hattempts, htotal, hne, hall,
    hset⟩ | ⟨attempts, hattempts, hnil, hne, hmono, hset⟩
  · exact h.pushSame (hconfig.withStatus _) (hsame.trans hcounters) (Or.inr rfl)
  · have hexpected : getTotalNumberOfPods p.js = .ok (N : ℤ) := by
      unfold getTotalNumberOfPods
      rw [hspec]
      exact hconfig.expected
    have hlength : attempts.length = N := by
      rw [htotal] at hexpected
      exact_mod_cast Except.ok.inj hexpected
    obtain ⟨x, hx⟩ := List.exists_mem_of_ne_nil attempts hne
    have hrange := h.pods.attempts_levels hstop hattempts hx
    rw [hall x hx] at hrange
    have hN : 0 < N := hlength ▸ List.length_pos_of_ne_nil hne
    exact h.raiseCurrent hs hsnap (hconfig.withStatus _) hN
      (h.pods.allCarry hstop hattempts hlength hall) hrange (hset.trans (by rw [hprev]))
  · have hrange := h.pods.attempts_levels hstop hattempts (slicesMax_mem hnil)
    rw [int32_of_range (n := slicesMax attempts - 1) (by omega) (by omega)] at hmono hset
    exact h.raisePrevious (hconfig.withStatus _) hrange.1 (by omega)
      (fun prev hp => hmono prev (hprev.trans hp)) (hset.trans (by rw [hcur]))

/-- The controller lists the pods. -/
theorem Inv.controllerRead {w : World} (h : Inv N w) {version s : ℕ}
    (hs : w.controller.podsSeen ≤ s) (hstop : s ≤ w.pods.top) :
    Inv N { w with
      controller := ⟨version, s, some (version, s)⟩
      trace := .snapshot (w.pods.entry s) :: w.trace } where
  versions := h.versions
  pods := h.pods
  processes := ⟨h.processes.ok, h.processes.ids, h.processes.floor⟩
  log := by
    refine ⟨hstop, ?_, ?_, ?_, h.log.justified, ?_⟩
    · intro v s' hr
      cases hr
      exact ⟨rfl, List.mem_cons_self⟩
    · intro j hj c hc
      obtain ⟨hN, s', hs', hcarry, hmem⟩ := h.log.backed j hj c hc
      exact ⟨hN, s', hs'.trans hs, hcarry, List.mem_cons_of_mem _ hmem⟩
    · intro u pid attempt hmem
      rcases List.mem_cons.mp hmem with he | hmem
      · cases he
      · exact h.log.starts u pid attempt hmem
    · refine List.pairwise_cons.mpr ⟨fun e _ => ?_, h.log.differ⟩
      cases e <;> trivial

/-! ## The agents -/

theorem AgentView.next_started {v : AgentView} (h : v.started = true) (r : AgentRequest)
    (x : r.Response) : (v.next r x).started = true := by
  cases r <;> simp [AgentView.next, h]

theorem AgentView.attempt_cases {v : AgentView} {r : InPlaceRestartAgent} {x : ℤ}
    (h : v.attempt r = some x) : r.podInPlaceRestartAttempt = some x ∨ v.patched = some x := by
  unfold AgentView.attempt at h
  cases hr : r.podInPlaceRestartAttempt with
  | none => exact Or.inr (by simpa [hr] using h)
  | some y => exact Or.inl (by simpa [hr] using h)

/-- The attempt a process is in was picked from a version it has read. -/
theorem ProcessOk.attempt {jobSets : History JobSet} {p : Process} (h : ProcessOk jobSets p)
    {run : AgentRun} (hrun : p.run = some run) {x : ℤ} (hx : run.view.attempt p.memory = some x) :
    ∃ j, p.born ≤ j ∧ j ≤ p.seen ∧ x = int32 (frontier (jobSets.entry j)) := by
  rcases AgentView.attempt_cases hx with hx | hx
  · exact h.memory x hx
  · exact ⟨p.seen, h.born, le_rfl, (h.run run hrun).2.2 x hx⟩

/-- An outstanding call is answered; the process has now read version `seen`. -/
theorem Inv.answer {w : World} (h : Inv N w) {uid : ℕ} {p : Process} {run : AgentRun}
    {r : AgentRequest} {k : r.Response → AgentProgram} (hp : w.processes uid = some p)
    (hrun : p.run = some run) (hrest : run.rest = .call r k) (x : r.Response) {seen : ℕ}
    (hseen : p.seen ≤ seen) (htop : seen ≤ w.jobSets.top)
    (hread : ∀ js, (run.view.next r x).read = some js → js = w.jobSets.entry seen)
    (hpatched : ∀ y, (run.view.next r x).patched = some y →
      y = int32 (frontier (w.jobSets.entry seen))) :
    Inv N (w.setProcess uid (some { p with seen := seen, run := some (run.answer r k x) })) := by
  obtain ⟨hok, -, -⟩ := h.processes.ok uid p hp
  refine h.setProcess hp rfl rfl hseen ⟨hok.born.trans hseen, htop, ?_, ?_⟩ ?_
  · intro y hy
    obtain ⟨j, hborn, hj, he⟩ := hok.memory y hy
    exact ⟨j, hborn, hj.trans hseen, he⟩
  · intro run' hrun'
    cases hrun'
    have hfollows := (hok.run run hrun).1
    rw [hrest, follows_call] at hfollows
    exact ⟨hfollows.2 x, hread, hpatched⟩
  · rintro (hbarrier | ⟨run', hrun', hstarted⟩)
    · exact Or.inl hbarrier
    · rw [hrun, Option.some.injEq] at hrun'
      subst hrun'
      exact Or.inr ⟨_, rfl, AgentView.next_started hstarted r x⟩

/-- The condition of the call a process is making. -/
theorem Inv.call {w : World} (h : Inv N w) {uid : ℕ} {p : Process} {run : AgentRun}
    {r : AgentRequest} {k : r.Response → AgentProgram} (hp : w.processes uid = some p)
    (hrun : p.run = some run) (hrest : run.rest = .call r k) : AgentCalls p.memory run.view r := by
  have hfollows := ((h.processes.ok uid p hp).1.run run hrun).1
  rw [hrest, follows_call] at hfollows
  exact hfollows.1

/-- A patch under way carries the attempt of the version its sender has read. -/
theorem Inv.patchValue {w : World} (h : Inv N w) {uid : ℕ} {p : Process} {run : AgentRun}
    {value : ℤ} {k : Bool → AgentProgram} (hp : w.processes uid = some p)
    (hrun : p.run = some run) (hrest : run.rest = .call (.applyAttempt value) k) :
    run.view = ⟨some (w.jobSets.entry p.seen), none, false⟩ ∧
      p.memory.podInPlaceRestartAttempt = none ∧
      value = int32 (frontier (w.jobSets.entry p.seen)) := by
  obtain ⟨js, hview, hnone, hvalue⟩ := h.call hp hrun hrest
  have hjs := ((h.processes.ok uid p hp).1.run run hrun).2.1 js (by rw [hview])
  subst hjs
  exact ⟨hview, hnone, hvalue.trans (newPodInPlaceRestartAttempt_eq _)⟩

/-- A process about to lift its barrier is in the released attempt of the version it has read. -/
theorem Inv.startValue {w : World} (h : Inv N w) {uid : ℕ} {p : Process} {run : AgentRun}
    {sidecar : Bool} {attempt : Option ℤ} {k : Unit → AgentProgram}
    (hp : w.processes uid = some p) (hrun : p.run = some run)
    (hrest : run.rest = .call (.startWorker sidecar attempt) k) :
    ¬ p.lifted ∧ ∃ x, attempt = some x ∧ run.view.attempt p.memory = some x ∧
      (w.jobSets.entry p.seen).status.currentInPlaceRestartAttempt = some x := by
  obtain ⟨hok, -, -⟩ := h.processes.ok uid p hp
  obtain ⟨js, hread, hstarted, hbarrier, hsync⟩ := h.call hp hrun hrest
  have hjs := (hok.run run hrun).2.1 js hread
  subst hjs
  obtain ⟨hattempt, hcurrent, hne⟩ := hsync (h.versions.config p.seen hok.seen).noBypass
  refine ⟨?_, ?_⟩
  · rintro (hl | ⟨run', hrun', hl⟩)
    · rw [hbarrier] at hl
      cases hl
    · rw [hrun, Option.some.injEq] at hrun'
      subst hrun'
      rw [hstarted] at hl
      cases hl
  · obtain ⟨x, hx⟩ := Option.ne_none_iff_exists'.mp hne
    exact ⟨x, hx, hattempt.symm.trans hx, hcurrent.symm.trans hx⟩

/-- An earlier start is by another process, and not of this pod at this attempt. -/
theorem Inv.start_differs {w : World} (h : Inv N w) {uid : ℕ} {p : Process} {run : AgentRun}
    (hp : w.processes uid = some p) (hrun : p.run = some run) (hlifted : ¬ p.lifted) {x : ℤ}
    (hx : run.view.attempt p.memory = some x) {e : Event} (he : e ∈ w.trace) :
    Event.Differ (.workerStarted uid p.id (some x)) e := by
  obtain ⟨hok, -, -⟩ := h.processes.ok uid p hp
  cases e with
  | snapshot pods => trivial
  | workerStarted u pid attempt =>
    obtain ⟨-, y, rfl, hlevel, -, hall⟩ := h.log.starts u pid attempt he
    obtain ⟨hsame, hother⟩ := hall uid p hp
    have hid : p.id ≠ pid := fun hid => hlifted (hsame hid).2
    refine ⟨hid, ?_⟩
    rintro ⟨rfl, hxy⟩
    -- the process has only read versions in which the earlier attempt was over
    obtain ⟨j, hborn, hj, hxj⟩ := hok.attempt hrun hx
    have hlt := hother hid rfl
    have hmono := h.versions.frontierMono p.born j hborn (hj.trans hok.seen)
    have hjlevel := h.versions.isLevel (hj.trans hok.seen)
    have hy : y = frontier (w.jobSets.entry j) := by
      refine int32_level_injective hlevel hjlevel ?_
      rw [← hxj, Option.some.inj hxy, int32_of_range (by unfold IsLevel at hlevel; omega)]
      unfold IsLevel at hjlevel
      omega
    omega

/-- A worker starts. -/
theorem Inv.startWorker {w : World} (h : Inv N w) {uid : ℕ} {p : Process} {run : AgentRun}
    {sidecar : Bool} {attempt : Option ℤ} {k : Unit → AgentProgram}
    (hp : w.processes uid = some p) (hrun : p.run = some run)
    (hrest : run.rest = .call (.startWorker sidecar attempt) k) :
    Inv N { w with
      processes := Function.update w.processes uid
        (some { p with run := some (run.answer (.startWorker sidecar attempt) k ()) })
      trace := .workerStarted uid p.id attempt :: w.trace } := by
  obtain ⟨hok, -, hpid⟩ := h.processes.ok uid p hp
  obtain ⟨hlifted, x, rfl, hx, hcur⟩ := h.startValue hp hrun hrest
  have hrunok := hok.run run hrun
  have hanswer := h.answer hp hrun hrest () le_rfl hok.seen hrunok.2.1 hrunok.2.2
  refine ⟨hanswer.versions, hanswer.pods, ⟨hanswer.processes.ok, hanswer.processes.ids,
    hanswer.processes.floor⟩, ⟨h.log.seen, ?_, ?_, ?_, ?_, ?_⟩⟩
  · intro v s hr
    obtain ⟨hs, hmem⟩ := h.log.reading v s hr
    exact ⟨hs, List.mem_cons_of_mem _ hmem⟩
  · intro j hj c hc
    obtain ⟨hN, s, hs, hcarry, hmem⟩ := h.log.backed j hj c hc
    exact ⟨hN, s, hs, hcarry, List.mem_cons_of_mem _ hmem⟩
  · intro u pid attempt hmem
    rcases List.mem_cons.mp hmem with he | hmem
    · cases he
      have hrange := h.versions.current p.seen hok.seen x hcur
      have hfrontier := h.versions.frontierMono.le_current hok.seen
      rw [frontier_some hcur] at hfrontier
      refine ⟨hpid, x, rfl, by unfold IsLevel; omega, hfrontier, fun u' q hq => ?_⟩
      rcases process_update_cases hq with ⟨rfl, rfl⟩ | ⟨hu, hqold⟩
      · exact ⟨fun _ => ⟨rfl, Or.inr ⟨_, rfl, rfl⟩⟩, fun hne => absurd rfl hne⟩
      · exact ⟨fun hid => absurd (h.processes.ids u' uid q p hqold hp hid) hu,
          fun _ he => absurd he hu⟩
    · exact hanswer.log.starts u pid attempt hmem
  · obtain ⟨hN, s, hs, hcarry, hmem⟩ := h.log.backed p.seen hok.seen x hcur
    exact ⟨⟨x, w.pods.entry s, rfl, hmem, hcarry⟩, h.log.justified⟩
  · exact List.pairwise_cons.mpr
      ⟨fun e he => h.start_differs hp hrun hlifted hx he, h.log.differ⟩

/-- A reconcile of an agent ends. -/
theorem Inv.agentReturn {w : World} (h : Inv N w) {uid : ℕ} {p : Process} {run : AgentRun}
    {r : InPlaceRestartAgent} (hp : w.processes uid = some p) (hrun : p.run = some run)
    (hrest : run.rest = .done r) :
    Inv N (w.setProcess uid (some { p with memory := r, run := none })) := by
  obtain ⟨hok, -, -⟩ := h.processes.ok uid p hp
  have hreturns := (hok.run run hrun).1
  rw [hrest, follows_done] at hreturns
  obtain ⟨hattempt, hbarrier⟩ := hreturns
  refine h.setProcess hp rfl rfl le_rfl ⟨hok.born, hok.seen, ?_, ?_⟩ ?_
  · intro x hx
    exact hok.attempt hrun (hattempt.symm.trans hx)
  · intro run' hrun'
    cases hrun'
  · rintro (hl | ⟨run', hrun', hl⟩)
    · exact Or.inl (by rw [hbarrier, hl]; rfl)
    · rw [hrun, Option.some.injEq] at hrun'
      subst hrun'
      exact Or.inl (by rw [hbarrier, hl]; simp)

/-! ## Runs -/

theorem init_inv {w : World} (hw : Init N w) : Inv N w := by
  obtain ⟨js, hjs, hconfig, hstatus⟩ := hw.jobSets
  have hcur : js.status.currentInPlaceRestartAttempt = none := by rw [hstatus]; rfl
  have hprev : js.status.previousInPlaceRestartAttempt = none := by rw [hstatus]; rfl
  refine ⟨⟨?_, ?_, ?_, ?_, ?_, ?_⟩, ⟨?_, ?_, ?_, ?_, ?_⟩, ⟨?_, ?_, ?_⟩, ⟨?_, ?_, ?_, ?_, ?_, ?_⟩⟩
  all_goals simp [hjs, hw.pods, hw.processes, hw.controller, hw.trace, History.All, History.Ordered, hconfig, hcur, hprev, Justified, Distinct, History.current]

/-- Every step keeps the invariant. -/
theorem step_inv {w w' : World} (h : Inv N w) (hstep : Step N w w') : Inv N w' := by
  cases hstep with
  | podCreated index pod hindex hfree hnew => exact h.createPod hindex hfree hnew
  | podChanged o o' ho huid hindex hann hfailed =>
    exact h.changePod ho huid hindex hann hfailed
  | podRemoved uid => exact h.removePod uid
  | processStarted o workerCommand ho hnone => exact h.startProcess ho workerCommand
  | processDied uid => exact h.removeProcess uid
  | agentStarts uid p hp hrun =>
    obtain ⟨hok, -, -⟩ := h.processes.ok uid p hp
    refine h.setProcess hp rfl rfl le_rfl ⟨hok.born, hok.seen, hok.memory, ?_⟩ ?_
    · intro run hr
      cases hr
      refine ⟨agentReconcile_follows p.memory, ?_, ?_⟩
      · intro js hjs
        cases hjs
      · intro x hx
        cases hx
    · rintro (hl | ⟨run', hrun', -⟩)
      · exact Or.inl hl
      · rw [hrun] at hrun'
        cases hrun'
  | agentReads uid p run k version hp hrun hrest hseen htop =>
    have hblank : run.view = .blank := h.call hp hrun hrest
    refine h.answer (r := .getJobSet) hp hrun hrest (some (w.jobSets.entry version)) hseen htop ?_ ?_
    · intro js hjs
      exact (Option.some.inj hjs).symm
    · intro x hx
      rw [hblank] at hx
      cases hx
  | agentReadFails uid p run k hp hrun hrest =>
    have hblank : run.view = .blank := h.call hp hrun hrest
    obtain ⟨hok, -, -⟩ := h.processes.ok uid p hp
    refine h.answer (r := .getJobSet) hp hrun hrest none le_rfl hok.seen ?_ ?_
    · intro js hjs
      cases hjs
    · intro x hx
      rw [hblank] at hx
      cases hx
  | patchLands uid p run value k o hp hrun hrest hlanded ho huid =>
    subst huid
    obtain ⟨-, -, hvalue⟩ := h.patchValue hp hrun hrest
    have hland := h.landPatch ho hp hvalue
    obtain ⟨hok, -, -⟩ := h.processes.ok o.uid p hp
    refine hland.setProcess hp rfl rfl le_rfl ⟨hok.born, hok.seen, hok.memory, ?_⟩ ?_
    · intro run' hrun'
      cases hrun'
      exact hok.run run hrun
    · rintro (hl | ⟨run', hrun', hl⟩)
      · exact Or.inl hl
      · rw [hrun, Option.some.injEq] at hrun'
        subst hrun'
        exact Or.inr ⟨_, rfl, hl⟩
  | patchReturns uid p run value k ok hp hrun hrest hok =>
    obtain ⟨hview, -, hvalue⟩ := h.patchValue hp hrun hrest
    obtain ⟨hpok, -, -⟩ := h.processes.ok uid p hp
    refine h.answer (r := .applyAttempt value) hp hrun hrest ok le_rfl hpok.seen ?_ ?_
    · intro js hjs
      rw [hview] at hjs
      exact (Option.some.inj hjs).symm
    · intro x hx
      rw [hview] at hx
      cases ok with
      | false => cases hx
      | true => exact (Option.some.inj hx).symm.trans hvalue
  | workerStarts uid p run sidecar attempt k hp hrun hrest => exact h.startWorker hp hrun hrest
  | agentExits uid p run k hp hrun hrest => exact h.removeProcess uid
  | agentReturns uid p run r hp hrun hrest => exact h.agentReturn hp hrun hrest
  | controllerReads version position hversion hvtop hposition hptop =>
    exact h.controllerRead hposition hptop
  | controllerWrites now version position p p' hreading hcurrent hspec hcounters hok =>
    exact h.controllerWrite hreading hspec hcounters hok
  | jobSetChanged js hconfig hcounters => exact h.pushSame hconfig hcounters (Or.inl rfl)

/-- The invariant holds in every state of every run. -/
theorem reachable_inv {w : World} (hw : Reachable N w) : Inv N w := by
  obtain ⟨w₀, hinit, hrun⟩ := hw
  have hstep : ∀ s s', Inv N s → Step N s s' → Inv N s' := fun _ _ => step_inv
  exact invariant_of_run (fun _ => init_inv) hstep hinit hrun

end JobSetOperator.InPlace
