import JobSetOperator.Cluster.Restarts
import JobSetOperator.Controller.StartupOrder

/-!
# BlockingRecreate

With BlockingRecreate a reconcile creates no Job while its snapshot shows a Job of
an earlier attempt. Its snapshot may miss Jobs that an earlier reconcile has created
from an older version of the JobSet. What keeps the attempts apart is the failed Job
of the older attempt: as long as it is there, a reconcile that reads the older
version creates nothing, and one that reads the newer version waits for it to go. So
the failure a restart is counted for must not have been deleted already when the
reconcile that counts it starts.
-/
namespace JobSetOperator.Cluster

open Library

/-- Jobs of different attempts do not overlap: when a Job is created, no Job with a
smaller restart-attempt label exists, and none appears later. -/
def NoOverlap (w : World) : Prop :=
  ∀ k < w.jobs.top, ∀ job ∈ w.jobs.entry (k + 1), (∀ j ∈ w.jobs.entry k, j.uid ≠ job.uid) →
    ∀ m, k ≤ m → m ≤ w.jobs.top → ∀ j ∈ w.jobs.entry m, ∀ r n : ℤ,
      restartLabel job = some r → restartLabel j = some n → r ≤ n

/-- Nobody has deleted the Job. -/
def Unmarked (job : Job) : Prop := job.deletionTimestamp = none

/-- If the reconcile sees failed Jobs, one of them is still on the server and not
marked for deletion. -/
def FailureStands (w : World) (a : Attempt) : Prop :=
  ∀ owned, getChildJobs a.env.gates a.js a.jobs = .ok owned → owned.failed ≠ [] →
    ∃ f ∈ owned.failed, ∃ f' ∈ w.jobs.current, f'.uid = f.uid ∧ Unmarked f'

/-- The setting of BlockingRecreate: the strategy is immutable, and the controller
alone creates and deletes child Jobs. -/
structure BlockingSetting (S : Setting) (gates : FeatureGates) : Prop
    extends FixedGates S gates where
  strategy : ∀ a b, S.admits a b → useBlockingRecreate a = true → useBlockingRecreate b = true
  removable : ∀ job, S.removable job → job.deletionTimestamp.isSome = true

/-! ## Jobs that nobody deletes -/

/-- A Job that is not being deleted stays, unless the reconcile deletes it by its name. -/
theorem Move.stays {S : Setting} {gates : FeatureGates} (hS : BlockingSetting S gates) {w : World}
    {authors : ℕ → Option Reading} {sv' : Server} (h : Move S w authors sv')
    (hok : JobsOk w.toServer) {f : Job} (hf : f ∈ w.jobs.current)
    (hunmarked : Unmarked f)
    (hkept : ∀ a, w.attempt = some a → ¬ Deletes a.env a.js a.jobs f.name) :
    ∃ f' ∈ sv'.jobs.current, f'.uid = f.uid ∧ Unmarked f' := by
  have hnames := hok.names _ le_rfl
  have hput : ∀ {a c : Job}, a ∈ w.jobs.current → c.name = a.name → c.uid = a.uid →
      c.deletionTimestamp = a.deletionTimestamp →
      ∃ f' ∈ (w.toServer.putJob c).jobs.current, f'.uid = f.uid ∧ Unmarked f' := by
    intro a c ha hname huid hdeletion
    simp only [Server.putJob, History.push_current]
    by_cases hsame : f.name = a.name
    · obtain rfl : f = a := List.inj_on_of_nodup_map hnames hf ha hsame
      refine ⟨{ c with resourceVersion := w.nextVersion }, ?_, huid, hdeletion.trans hunmarked⟩
      refine List.mem_map.mpr ⟨f, hf, ?_⟩
      rw [if_pos hname.symm]
    · refine ⟨f, List.mem_map.mpr ⟨f, hf, ?_⟩, rfl, hunmarked⟩
      rw [if_neg]
      exact fun he => hsame (he.trans hname)
  have hadd : ∀ job : Job, ∃ f' ∈ (w.toServer.addJob job).jobs.current,
      f'.uid = f.uid ∧ Unmarked f' := by
    intro job
    refine ⟨f, ?_, rfl, hunmarked⟩
    simp only [Server.addJob, History.push_current]
    exact List.mem_append_left _ hf
  cases h with
  | none => exact ⟨f, hf, rfl, hunmarked⟩
  | updated admitted status => exact ⟨f, hf, rfl, hunmarked⟩
  | marked t => exact ⟨f, hf, rfl, hunmarked⟩
  | wrote busy writes version author => exact ⟨f, hf, rfl, hunmarked⟩
  | created busy creates free => exact hadd _
  | @deleted a busy job mem deletes t =>
    have hne : f.name ≠ job.name := fun he => hkept a busy (he ▸ deletes)
    simp only [Server.putJob, History.push_current]
    refine ⟨f, List.mem_map.mpr ⟨f, hf, ?_⟩, rfl, hunmarked⟩
    rw [if_neg hne]
  | patched busy mem patches name parallelism completions => exact hput mem rfl rfl rfl
  | cleared busy mem resumable => exact hput mem rfl rfl rfl
  | suspended busy mem running off known on => exact hput mem rfl rfl rfl
  | resumed busy mem resumable same =>
    obtain ⟨hname, huid, -, -, hdeletion, -⟩ := resumedJob_same _ _ _
    exact hput mem hname huid hdeletion
  | progressed mem status finished => exact hput mem rfl rfl rfl
  | appeared foreign free => exact hadd _
  | @removed job mem removable =>
    have hmarked := hS.removable job removable
    have hne : f.uid ≠ job.uid := by
      intro he
      have hname := (hok.later _ _ le_rfl le_rfl f hf job mem he).name
      obtain rfl : f = job := List.inj_on_of_nodup_map hnames hf mem hname.symm
      rw [show f.deletionTimestamp = _ from hunmarked] at hmarked
      cases hmarked
    simp only [Server.dropJob, History.push_current]
    exact ⟨f, List.mem_filter.mpr ⟨hf, by simpa using hne⟩, rfl, hunmarked⟩

/-! ## The failure behind a restart -/

theorem classifyJob_succeeds {gates : FeatureGates} {js : JobSet} {a b : Job} (h : Succeeds a b)
    (ha : classifyJob gates js a = .ok .failed) : classifyJob gates js b = .ok .failed := by
  have hfailed := finishedBucket_failed (classifyJob_current ha (by decide)).1
  have hbucket : finishedBucket b = finishedBucket a := by
    unfold finishedBucket
    rw [hfailed, h.finished _ hfailed]
  have hclass : classifyJob gates js b = classifyJob gates js a := by
    unfold classifyJob outdatedIndividually requireLabel
    rw [h.labels, hbucket]
  rw [hclass, ha]

/-- The restarts of a version. -/
def restartsAt (w : World) (v : ℕ) : ℕ := (w.sets.entry v).status.restarts

/-- A failed Job that was read with version `v` from the list at `k` and was still
there at `k'`. While no reconcile has read a later version, nobody deletes it. -/
structure Standing (gates : FeatureGates) (w : World) (v k k' : ℕ) (f : Job) : Prop where
  mem : f ∈ w.jobs.entry k
  failed : classifyJob gates (w.sets.entry v) f = .ok .failed
  lasted : ∃ f' ∈ w.jobs.entry k', f'.uid = f.uid
  read : k ≤ w.seenJobs ∧ k ≤ k' ∧ k' ≤ w.jobs.top ∧ v ≤ w.seenSets
  stands : w.seenSets ≤ v → ∃ f' ∈ w.jobs.current, f'.uid = f.uid ∧ Unmarked f'

/-- A Job with a label below `r` was there at `k` or before. -/
def Settled (w : World) (k r : ℕ) : Prop :=
  ∀ i ≤ w.jobs.top, ∀ j ∈ w.jobs.entry i, ∀ n : ℕ, restartLabel j = some (n : ℤ) → n < r →
    ∃ i' ≤ k, ∃ j' ∈ w.jobs.entry i', j'.uid = j.uid

/-- The invariant of BlockingRecreate. -/
structure BlockingInv (gates : FeatureGates) (w : World) : Prop where
  labels : ∀ k ≤ w.jobs.top, ∀ j ∈ w.jobs.entry k,
    ∃ n : ℕ, restartLabel j = some (n : ℤ) ∧ n ≤ restartsAt w w.seenSets
  counted : ∀ v < w.sets.top, restartsAt w v < restartsAt w (v + 1) →
    ∃ k k' f, Standing gates w v k k' f ∧
      (∃ n : ℕ, restartLabel f = some (n : ℤ) ∧ n < restartsAt w (v + 1)) ∧
      Settled w k' (restartsAt w (v + 1))
  failing : ∀ a, w.attempt = some a → ∀ owned, getChildJobs gates a.js a.jobs = .ok owned →
    owned.failed ≠ [] → ∃ k' f, Standing gates w w.seenSets w.seenJobs k' f ∧
      ∀ r, Settled w k' r
  separate : NoOverlap w

section Snapshot

variable {S : Setting} {gates : FeatureGates} {w : World} {a : Attempt}

/-- A reconcile that has read the version sees the failed Job. -/
theorem Standing.seen {v k k' : ℕ} {f : Job} (h : Standing gates w v k k' f) (hinv : Inv S w)
    (busy : w.attempt = some a) (hv : w.seenSets ≤ v) :
    ∃ g ∈ a.jobs, g.name = f.name ∧ classifyJob gates a.js g = .ok .failed := by
  obtain ⟨f', hf', huid, -⟩ := h.stands hv
  obtain ⟨hk, -, -, hv'⟩ := h.read
  obtain ⟨g, hg, hgu⟩ :=
    hinv.jobs.lasting k w.seenJobs _ hk hinv.seenJobs le_rfl f h.mem f' hf' huid.symm
  have hsucceeds := hinv.jobs.later k w.seenJobs hk hinv.seenJobs f h.mem g hg hgu.symm
  have ha := hinv.attempt a busy
  obtain rfl : v = w.seenSets := by omega
  refine ⟨g, ha.jobs.mem_iff.mpr hg, hsucceeds.name, ?_⟩
  rw [ha.js]
  exact classifyJob_succeeds hsucceeds h.failed

/-- It does not delete the failed Job. -/
theorem Standing.not_deletes {v k k' : ℕ} {f : Job} (h : Standing gates w v k k' f)
    (hinv : Inv S w) (hgates : ∀ env, S.allowed env → env.gates = gates)
    (busy : w.attempt = some a) (hv : w.seenSets ≤ v) : ¬ Deletes a.env a.js a.jobs f.name := by
  rintro ⟨owned, hlive, job, hname, -, hbucket⟩
  obtain ⟨g, hg, hgname, hfailed⟩ := h.seen hinv busy hv
  have ha := hinv.attempt a busy
  have hsorted := hlive.sorted
  rw [hgates a.env ha.allowed] at hsorted
  have hother : ∃ b, b ≠ Bucket.failed ∧ job ∈ owned.jobs b := by
    rcases hbucket with ⟨-, hmem⟩ | ⟨-, hmem⟩ | ⟨_, -, hmem, -⟩
    · exact ⟨.active, by decide, hmem⟩
    · exact ⟨.previous, by decide, hmem⟩
    · exact ⟨.active, by decide, hmem⟩
  obtain ⟨b, hb, hmem⟩ := hother
  obtain ⟨hjob, hclass⟩ := (getChildJobs_mem hsorted).mp hmem
  have hnames := hinv.jobs.names _ hinv.seenJobs
  obtain rfl : job = g := List.inj_on_of_nodup_map hnames (ha.jobs.mem_iff.mp hjob)
    (ha.jobs.mem_iff.mp hg) (hname.trans hgname.symm)
  rw [hfailed] at hclass
  exact hb (Except.ok.inj hclass).symm

/-- It creates no Job. -/
theorem Standing.not_creates {v k k' : ℕ} {f : Job} (h : Standing gates w v k k' f)
    (hinv : Inv S w) (hgates : ∀ env, S.allowed env → env.gates = gates)
    (busy : w.attempt = some a) (hv : w.seenSets ≤ v) (job : Job) :
    ¬ Creates a.env a.js a.jobs a.seen job := by
  rintro ⟨owned, active, p, q, rjob, created, hrunning, -⟩
  obtain ⟨g, hg, -, hfailed⟩ := h.seen hinv busy hv
  have hsorted := hrunning.sorted
  rw [hgates a.env (hinv.attempt a busy).allowed] at hsorted
  have hmem : g ∈ owned.jobs .failed := (getChildJobs_mem hsorted).mpr ⟨hg, hfailed⟩
  rw [show owned.jobs .failed = owned.failed from rfl, hrunning.noFailed] at hmem
  simp at hmem

/-- A reconcile that creates a Job sees no Job of an earlier attempt. -/
theorem creates_snapshot (hinv : Inv S w) (busy : w.attempt = some a)
    (hblocking : useBlockingRecreate a.js = true) {job : Job}
    (hc : Creates a.env a.js a.jobs a.seen job) {g : Job} (hg : g ∈ w.jobs.entry w.seenJobs) {n : ℕ}
    (hn : restartLabel g = some (n : ℤ)) : restartsAt w w.seenSets ≤ n := by
  obtain ⟨owned, active, p, q, rjob, created, hrunning, -, hconstruct, hmem⟩ := hc
  obtain ⟨-, -, -, -, hprevious⟩ := constructJobsFromTemplate_mem hconstruct hmem
  have hq : useBlockingRecreate q.js = true := by
    unfold useBlockingRecreate at hblocking ⊢
    rw [hrunning.spec]
    exact hblocking
  have ha := hinv.attempt a busy
  have hg' : g ∈ a.jobs := ha.jobs.mem_iff.mpr hg
  obtain ⟨b, hb⟩ := getChildJobs_classified hrunning.sorted hg'
  have hne : b ≠ .previous := by
    rintro rfl
    have : g ∈ owned.jobs .previous := (getChildJobs_mem hrunning.sorted).mpr ⟨hg', hb⟩
    rw [show owned.jobs .previous = owned.previous from rfl, hprevious hq] at this
    simp at this
  obtain ⟨-, ⟨r, hr, hle⟩, -⟩ := classifyJob_current hb hne
  obtain rfl : r = n := Option.some.inj (hr.symm.trans hn)
  unfold restartsAt
  rw [← ha.js]
  exact_mod_cast hle

/-- When a Job is created, no Job of an earlier attempt is on the server. -/
theorem BlockingInv.creates_le (h : BlockingInv gates w) (hinv : Inv S w)
    (busy : w.attempt = some a) (hblocking : useBlockingRecreate a.js = true)
    (hmono : ∀ i j, i ≤ j → j ≤ w.sets.top → restartsAt w i ≤ restartsAt w j)
    (hzero : restartsAt w 0 = 0) {job : Job} (hc : Creates a.env a.js a.jobs a.seen job) {j : Job}
    (hj : j ∈ w.jobs.current) {n : ℕ} (hn : restartLabel j = some (n : ℤ)) :
    restartsAt w w.seenSets ≤ n := by
  by_contra hlt
  have hlt : n < restartsAt w w.seenSets := by omega
  obtain ⟨v, hv, hle, hcross⟩ := History.exists_crossing (by omega) hlt
  have hseen := hinv.seenSets
  obtain ⟨k, k', f, hf, ⟨m, hm, hmlt⟩, hsettled⟩ := h.counted v (by omega) (by omega)
  obtain ⟨hk, -, hk', -⟩ := hf.read
  -- the Job was there before the failure went, but after the list the reconcile has read
  obtain ⟨i, hi, j', hj', huid⟩ := hsettled _ le_rfl j hj n hn hcross
  have hlate : w.seenJobs < i := by
    by_contra hle'
    obtain ⟨g, hg, hgu⟩ := hinv.jobs.lasting i w.seenJobs _ (by omega) hinv.seenJobs le_rfl
      j' hj' j hj huid
    have hlabels := (hinv.jobs.later w.seenJobs _ hinv.seenJobs le_rfl g hg j hj
      (hgu.trans huid)).labels
    have hgn : restartLabel g = some (n : ℤ) := by
      unfold restartLabel at hn ⊢
      rw [← hlabels]
      exact hn
    have := creates_snapshot hinv busy hblocking hc hg hgn
    omega
  -- so the reconcile has seen the failure itself
  obtain ⟨f', hf', hfu⟩ := hf.lasted
  obtain ⟨g, hg, hgu⟩ := hinv.jobs.lasting k w.seenJobs k' hk (by omega) hk' f hf.mem f' hf' hfu.symm
  have hlabels := (hinv.jobs.later k w.seenJobs hk hinv.seenJobs f hf.mem g hg hgu.symm).labels
  have hgm : restartLabel g = some (m : ℤ) := by
    unfold restartLabel at hm ⊢
    rw [hlabels]
    exact hm
  have hread := creates_snapshot hinv busy hblocking hc hg hgm
  have hup := hmono (v + 1) w.seenSets (by omega) hseen
  omega

end Snapshot

/-! ## One step -/

section Step

variable {S : Setting} {gates : FeatureGates} {w w' : World}

/-- A Job after a step was there before, or the reconcile in progress has created it. -/
theorem step_origin (hS : BlockingSetting S gates) (hinv : Inv S w) (hstep : Step S w w') {k : ℕ}
    (hk : k ≤ w'.jobs.top) {j : Job} (hj : j ∈ w'.jobs.entry k) :
    (∃ i ≤ w.jobs.top, (k ≤ w.jobs.top → i = k) ∧ (w.jobs.top < k → i = w.jobs.top) ∧
      ∃ j' ∈ w.jobs.entry i, Succeeds j' j) ∨
    (k = w.jobs.top + 1 ∧ ∃ a job, w.attempt = some a ∧
      Creates a.env a.js a.jobs a.seen job ∧ j.labels = job.labels ∧ j.uid = w.nextUid) := by
  have hmove := step_move hinv hstep
  have hjobs := History.grows_of_push hmove.jobs
  rcases Nat.lt_or_ge w.jobs.top k with hlt | hle
  · rcases hmove.jobs with hsame | ⟨l, hpush⟩
    · rw [hsame] at hk
      omega
    · have htop : w'.jobs.top = w.jobs.top + 1 := by rw [hpush, History.push_top]
      have hcurrent : j ∈ w'.jobs.current := by
        rw [show k = w'.jobs.top by omega] at hj
        exact hj
      rcases hmove.origin hcurrent with ⟨j', hj', hs⟩ | ⟨a, job, busy, hc, rfl, -⟩ |
        ⟨_, hforeign, -⟩
      · exact Or.inl ⟨_, le_rfl, by omega, fun _ => rfl, j', hj', hs⟩
      · exact Or.inr ⟨by omega, a, job, busy, hc, rfl, rfl⟩
      · exact absurd hforeign (hS.foreign _)
  · rw [hjobs.2 k hle] at hj
    exact Or.inl ⟨k, hle, fun _ => rfl, by omega, j, hj, Succeeds.refl j⟩

theorem restartsAt_step (hinv : Inv S w) (hstep : Step S w w') {v : ℕ} (hv : v ≤ w.sets.top) :
    restartsAt w' v = restartsAt w v := by
  unfold restartsAt
  rw [(History.grows_of_push (step_move hinv hstep).sets).2 v hv]

/-- A standing failure stands after a step that is not a new reading. -/
theorem Standing.step (hS : BlockingSetting S gates) (hinv : Inv S w) (hstep : Step S w w')
    (hsets : w'.seenSets = w.seenSets) (hjobs : w'.seenJobs = w.seenJobs) {v k k' : ℕ} {f : Job}
    (h : Standing gates w v k k' f) : Standing gates w' v k k' f := by
  have hmove := step_move hinv hstep
  have hgrows := History.grows_of_push hmove.sets
  have hgrows' := History.grows_of_push hmove.jobs
  obtain ⟨hk, hkk, hk', hv⟩ := h.read
  have hkt : k ≤ w.jobs.top := hk.trans hinv.seenJobs
  refine ⟨?_, ?_, ?_, ⟨hjobs ▸ hk, hkk, hk'.trans hgrows'.1, hsets ▸ hv⟩, fun hle => ?_⟩
  · rw [hgrows'.2 k hkt]
    exact h.mem
  · rw [hgrows.2 v (hv.trans hinv.seenSets)]
    exact h.failed
  · rw [hgrows'.2 k' hk']
    exact h.lasted
  · rw [hsets] at hle
    obtain ⟨f', hf', huid, hunmarked⟩ := h.stands hle
    have hname := (hinv.jobs.later k _ hkt le_rfl f h.mem f' hf' huid.symm).name
    obtain ⟨f'', hf'', huid', hunmarked'⟩ := hmove.stays hS hinv.jobs hf' hunmarked
      fun a busy => hname ▸ h.not_deletes hinv hS.gates busy hle
    exact ⟨f'', hf'', huid'.trans huid, hunmarked'⟩

/-- Jobs that were there at `k` keep being the only ones below `r`, if a new one is not. -/
theorem Settled.step (hS : BlockingSetting S gates) (hinv : Inv S w) (hstep : Step S w w')
    {k r : ℕ} (hk : k ≤ w.jobs.top) (h : Settled w k r)
    (hnew : ∀ a job, w.attempt = some a → Creates a.env a.js a.jobs a.seen job →
      ∀ n : ℕ, restartLabel job = some (n : ℤ) → r ≤ n) : Settled w' k r := by
  have hgrows := History.grows_of_push (step_move hinv hstep).jobs
  intro i hi j hj n hn hlt
  rcases step_origin hS hinv hstep hi hj with ⟨i', hi', -, -, j', hj', hs⟩ |
    ⟨-, a, job, busy, hc, hlabels, -⟩
  · have hn' : restartLabel j' = some (n : ℤ) := by
      unfold restartLabel at hn ⊢
      rw [← hs.labels]
      exact hn
    obtain ⟨i₀, hi₀, j₀, hj₀, huid⟩ := h i' hi' j' hj' n hn' hlt
    exact ⟨i₀, hi₀, j₀, by rwa [hgrows.2 i₀ (hi₀.trans hk)], huid.trans hs.uid.symm⟩
  · have hn' : restartLabel job = some (n : ℤ) := by
      unfold restartLabel at hn ⊢
      rw [← hlabels]
      exact hn
    have := hnew a job busy hc n hn'
    omega

end Step

/-! ## Runs -/

section Runs

variable {S : Setting} {gates : FeatureGates} {js : JobSet} {w w' : World}

/-- The facts about the versions of the JobSet the argument uses. -/
structure BlockingSets (gates : FeatureGates) (w : World) : Prop where
  blocking : ∀ i ≤ w.sets.top, useBlockingRecreate (w.sets.entry i) = true
  individual : ∀ i ≤ w.sets.top, IndividualOk gates (w.sets.entry i)
  mono : ∀ i j, i ≤ j → j ≤ w.sets.top → restartsAt w i ≤ restartsAt w j
  zero : restartsAt w 0 = 0

theorem reachable_blockingSets (hS : BlockingSetting S gates) (hnew : js.status = .new)
    (hjs : useBlockingRecreate js = true) (h : Reachable S js w) : BlockingSets gates w := by
  obtain ⟨hall, hordered⟩ := reachable_counters hS.toFixedGates hnew h
  have hblocking := (reachable_sets (P := fun a => useBlockingRecreate a = true)
    (R := fun _ _ => True) (fun _ => trivial) (fun _ _ _ _ _ => trivial)
    (fun a b hadmits _ ha => ⟨hS.strategy a b hadmits ha, trivial⟩) (fun a t ha => ⟨ha, trivial⟩)
    (fun env js jobs s js' _ ha _ hw => ⟨by rw [hw.frame]; exact ha, trivial⟩) hjs h).1
  refine ⟨hblocking, fun i hi => (hall i hi).2, fun i j hij hj => (hordered i j hij hj).1, ?_⟩
  unfold restartsAt
  rw [reachable_first h, hnew]
  rfl

/-- A Job the reconcile creates has the restarts it has read as its label. -/
theorem creates_label (hS : BlockingSetting S gates) (hinv : Inv S w)
    (hsets : BlockingSets gates w) {a : Attempt} (busy : w.attempt = some a) {job : Job}
    (hc : Creates a.env a.js a.jobs a.seen job) :
    restartLabel job = some (restartsAt w w.seenSets : ℤ) := by
  have ha := hinv.attempt a busy
  have hok : IndividualOk a.env.gates a.js := by
    rw [hS.gates a.env ha.allowed, ha.js]
    exact hsets.individual _ hinv.seenSets
  unfold restartsAt
  rw [← ha.js]
  exact (hc.labels hok).2

/-- A write that raises the restarts is made by a reconcile that has read the
current version and sees a failed Job. -/
theorem restart_failing (hS : BlockingSetting S gates) (hinv : Inv S w)
    (hsets : BlockingSets gates w) (hstep : Step S w w')
    (hpushed : w.sets.top < w'.sets.top)
    (hlt : restartsAt w w.sets.top < restartsAt w' (w.sets.top + 1)) :
    w.seenSets = w.sets.top ∧ ∃ a owned, w.attempt = some a ∧
      getChildJobs gates a.js a.jobs = .ok owned ∧ owned.failed ≠ [] := by
  have hmove := step_move hinv hstep
  have hentry : ∀ b, w'.sets = w.sets.push b → restartsAt w' (w.sets.top + 1) =
      b.status.restarts := by
    intro b hb
    unfold restartsAt
    rw [hb, History.push_entry_top]
  unfold restartsAt at hlt hentry
  generalize w'.toServer = sv' at hmove hlt hpushed hentry
  cases hmove with
  | @updated b admitted status =>
    rw [hentry b rfl, status] at hlt
    exact absurd hlt (lt_irrefl _)
  | marked t =>
    rw [hentry _ rfl] at hlt
    exact absurd hlt (lt_irrefl _)
  | @wrote a busy b writes version author =>
    rw [hentry b rfl] at hlt
    have ha := hinv.attempt a busy
    have hgates := hS.gates a.env ha.allowed
    have hok : IndividualOk a.env.gates a.js := by
      rw [hgates, ha.js]
      exact hsets.individual _ hinv.seenSets
    have hstored := ha.stored
    rw [version] at hstored
    rw [hstored] at hlt
    rcases writes.counters hok with hsame | ⟨hfirst, owned, job, hlive, hcause, -⟩
    · have h₁ := hsame.restarts
      have h₂ := (writes.baseCounters hok).restarts
      omega
    · refine ⟨?_, a, owned, busy, hgates ▸ hlive.sorted, ?_⟩
      · rw [← ha.first hfirst, version]
      · intro hnil
        rw [hnil] at hcause
        have := failureCause_mem hcause
        simp at this
  | _ => exact absurd hpushed (lt_irrefl _)

/-- A step that is not a new reading keeps the invariant. -/
theorem BlockingInv.step (hS : BlockingSetting S gates) (hinv : Inv S w)
    (hsets : BlockingSets gates w) (hstep : Step S w w') (hseen : w'.seenSets = w.seenSets)
    (hseenJobs : w'.seenJobs = w.seenJobs)
    (hattempt : ∀ a', w'.attempt = some a' → ∃ a, w.attempt = some a ∧ a'.toReading = a.toReading)
    (h : BlockingInv gates w) : BlockingInv gates w' := by
  have hgrows := History.grows_of_push (step_move hinv hstep).sets
  have hgrows' := History.grows_of_push (step_move hinv hstep).jobs
  have hread : restartsAt w' w'.seenSets = restartsAt w w.seenSets := by
    rw [hseen, restartsAt_step hinv hstep hinv.seenSets]
  have hlabel : ∀ a job, w.attempt = some a → Creates a.env a.js a.jobs a.seen job →
      ∀ n : ℕ, restartLabel job = some (n : ℤ) → n = restartsAt w w.seenSets := by
    intro a job busy hc n hn
    have := Option.some.inj (hn.symm.trans (creates_label hS hinv hsets busy hc))
    omega
  have hlabels : ∀ {a b : Job}, b.labels = a.labels → restartLabel b = restartLabel a := by
    intro a b hl
    unfold restartLabel
    rw [hl]
  constructor
  · -- labels
    intro k hk j hj
    rw [hread]
    rcases step_origin hS hinv hstep hk hj with ⟨i, hi, -, -, j', hj', hs⟩ |
      ⟨-, a, job, busy, hc, hl, -⟩
    · obtain ⟨n, hn, hle⟩ := h.labels i hi j' hj'
      exact ⟨n, (hlabels hs.labels).trans hn, hle⟩
    · exact ⟨_, (hlabels hl).trans (creates_label hS hinv hsets busy hc), le_rfl⟩
  · -- counted
    intro v hv hlt
    rcases Nat.lt_or_ge v w.sets.top with hold | hge
    · have hnext : v + 1 ≤ w.sets.top := hold
      rw [restartsAt_step hinv hstep hold.le, restartsAt_step hinv hstep hnext] at hlt
      obtain ⟨k, k', f, hf, ⟨n, hn, hnlt⟩, hsettled⟩ := h.counted v hold hlt
      rw [restartsAt_step hinv hstep hnext]
      refine ⟨k, k', f, hf.step hS hinv hstep hseen hseenJobs, ⟨n, hn, hnlt⟩,
        hsettled.step hS hinv hstep hf.read.2.2.1 fun a job busy hc m hm => ?_⟩
      -- a new Job below the counter would come from a reconcile that sees the failure
      rw [hlabel a job busy hc m hm]
      by_contra hlow
      have hle : w.seenSets ≤ v := by
        by_contra hgt
        have := hsets.mono (v + 1) w.seenSets (by omega) hinv.seenSets
        omega
      exact hf.not_creates hinv hS.gates busy hle job hc
    · have htop : w'.sets.top = w.sets.top + 1 := by
        rcases (step_move hinv hstep).sets with hsame | ⟨b, hpush⟩
        · rw [hsame] at hv
          omega
        · rw [hpush, History.push_top]
      obtain rfl : v = w.sets.top := by omega
      rw [restartsAt_step hinv hstep le_rfl] at hlt
      obtain ⟨hcurrent, a, owned, busy, hsorted, hfailed⟩ :=
        restart_failing hS hinv hsets hstep (by omega) hlt
      obtain ⟨k', f, hf, hsettled⟩ := h.failing a busy owned hsorted hfailed
      obtain ⟨n, hn, hnle⟩ := h.labels _ hinv.seenJobs f hf.mem
      rw [hcurrent] at hf hnle
      refine ⟨w.seenJobs, k', f, hf.step hS hinv hstep hseen hseenJobs, ⟨n, hn, by omega⟩,
        (hsettled _).step hS hinv hstep hf.read.2.2.1 fun a' job busy' hc => ?_⟩
      exact absurd hc (hf.not_creates hinv hS.gates busy' (by omega) job)
  · -- failing
    intro a' busy' owned hsorted hfailed
    obtain ⟨a, busy, hreading⟩ := hattempt a' busy'
    rw [hreading] at hsorted
    obtain ⟨k', f, hf, hsettled⟩ := h.failing a busy owned hsorted hfailed
    rw [hseen, hseenJobs]
    refine ⟨k', f, hf.step hS hinv hstep hseen hseenJobs, fun r =>
      (hsettled r).step hS hinv hstep hf.read.2.2.1 fun a₁ job busy₁ hc => ?_⟩
    exact absurd hc (hf.not_creates hinv hS.gates busy₁ le_rfl job)
  · -- separate
    intro k hk job hjob hnew m hkm hm j hj r n hr hn
    have hnat : ∀ {i : ℕ} {x : Job}, i ≤ w.jobs.top → x ∈ w.jobs.entry i →
        ∃ q : ℕ, restartLabel x = some (q : ℤ) ∧ q ≤ restartsAt w w.seenSets :=
      fun hi hx => h.labels _ hi _ hx
    rcases Nat.lt_or_ge k w.jobs.top with hold | hge
    · -- the Job was created before; only the last list is new
      have hjob' : job ∈ w.jobs.entry (k + 1) := by rwa [hgrows'.2 (k + 1) (by omega)] at hjob
      have hnew' : ∀ j ∈ w.jobs.entry k, j.uid ≠ job.uid := by
        rwa [hgrows'.2 k (by omega)] at hnew
      rcases step_origin hS hinv hstep hm hj with ⟨i, hi, hsame, hlast, j', hj', hs⟩ |
        ⟨-, a, created, busy, hc, hl, -⟩
      · have hki : k ≤ i := by
          rcases Nat.lt_or_ge w.jobs.top m with hlt | hle
          · rw [hlast hlt]
            omega
          · rw [hsame hle]
            exact hkm
        exact h.separate k hold job hjob' hnew' i hki hi j' hj' r n hr
          ((hlabels hs.labels).symm.trans hn)
      · obtain ⟨q, hq, hle⟩ := hnat (by omega : k + 1 ≤ w.jobs.top) hjob'
        have h₁ := Option.some.inj (hr.symm.trans hq)
        have h₂ := Option.some.inj (hn.symm.trans
          ((hlabels hl).trans (creates_label hS hinv hsets busy hc)))
        omega
    · -- the Job is created in this step
      obtain ⟨a, created, busy, hc, hl⟩ : ∃ a created, w.attempt = some a ∧
          Creates a.env a.js a.jobs a.seen created ∧ job.labels = created.labels := by
        rcases step_origin hS hinv hstep hk hjob with ⟨i, -, -, hlast, j', hj', hs⟩ |
          ⟨-, a, created, busy, hc, hl, -⟩
        · have hi := hlast (by omega)
          subst hi
          have htop : k = w.jobs.top := by
            rcases (step_move hinv hstep).jobs with hsame | ⟨l, hpush⟩
            · rw [hsame] at hk
              omega
            · rw [hpush, History.push_top] at hk
              omega
          rw [htop, hgrows'.2 _ le_rfl] at hnew
          exact absurd hs.uid.symm (hnew j' hj')
        · exact ⟨a, created, busy, hc, hl⟩
      have hr' := Option.some.inj (hr.symm.trans
        ((hlabels hl).trans (creates_label hS hinv hsets busy hc)))
      have ha := hinv.attempt a busy
      have hblocking : useBlockingRecreate a.js = true := by
        rw [ha.js]
        exact hsets.blocking _ hinv.seenSets
      rcases step_origin hS hinv hstep hm hj with ⟨i, hi, hsame, hlast, j', hj', hs⟩ |
        ⟨-, a', created', busy', hc', hl', -⟩
      · obtain rfl : i = w.jobs.top := by
          rcases Nat.lt_or_ge w.jobs.top m with hlt | hle
          · exact hlast hlt
          · have := hsame hle
            omega
        obtain ⟨q, hq, -⟩ := hnat le_rfl hj'
        have hle := h.creates_le hinv busy hblocking hsets.mono hsets.zero hc hj' hq
        have hn' := Option.some.inj (hn.symm.trans ((hlabels hs.labels).trans hq))
        omega
      · have hn' := Option.some.inj (hn.symm.trans
          ((hlabels hl').trans (creates_label hS hinv hsets busy' hc')))
        omega

/-- A new reading keeps the invariant, if a failure it sees still stands. -/
theorem BlockingInv.begin (hsets : BlockingSets gates w) {env : Env}
    (hgates : env.gates = gates) {i j : ℕ} (newer : w.seenSets ≤ i) (past : i ≤ w.sets.top)
    (newerJobs : w.seenJobs ≤ j) (pastJobs : j ≤ w.jobs.top) {jobs : List Job}
    (listed : jobs.Perm (w.jobs.entry j))
    (hstands : FailureStands w (.start env (w.sets.entry i) jobs i)) (h : BlockingInv gates w) :
    BlockingInv gates { w with
      seenSets := i, seenJobs := j, attempt := some (.start env (w.sets.entry i) jobs i) } := by
  constructor
  · intro k hk x hx
    obtain ⟨n, hn, hle⟩ := h.labels k hk x hx
    exact ⟨n, hn, hle.trans (hsets.mono _ i newer past)⟩
  · intro v hv hlt
    obtain ⟨k, k', f, hf, hn, hsettled⟩ := h.counted v hv hlt
    obtain ⟨hk, hkk, hk', hv'⟩ := hf.read
    refine ⟨k, k', f, ⟨hf.mem, hf.failed, hf.lasted, ⟨hk.trans newerJobs, hkk, hk', hv'.trans newer⟩,
      fun hle => hf.stands (newer.trans hle)⟩, hn, hsettled⟩
  · intro a busy owned hsorted hfailed
    cases busy
    obtain ⟨f, hf, f', hf', huid, hunmarked⟩ := hstands owned (hgates ▸ hsorted) hfailed
    have hf₀ : f ∈ owned.jobs .failed := hf
    obtain ⟨hmem, hclass⟩ := (getChildJobs_mem hsorted).mp hf₀
    refine ⟨w.jobs.top, f, ⟨listed.mem_iff.mp hmem, hclass, ⟨f', hf', huid⟩,
      ⟨le_rfl, pastJobs, le_rfl, le_rfl⟩, fun _ => ⟨f', hf', huid, hunmarked⟩⟩, ?_⟩
    intro r k hk x hx n _ _
    exact ⟨k, hk, x, hx, rfl⟩
  · exact h.separate

theorem BlockingInv.stop (h : BlockingInv gates w) :
    BlockingInv gates { w with attempt := none } := by
  refine ⟨h.labels, fun v hv hlt => ?_, fun a busy => ?_, h.separate⟩
  · obtain ⟨k, k', f, hf, hn, hsettled⟩ := h.counted v hv hlt
    exact ⟨k, k', f, ⟨hf.mem, hf.failed, hf.lasted, hf.read, hf.stands⟩, hn, hsettled⟩
  · cases busy

theorem blockingInv_initial (gates : FeatureGates) (js : JobSet) :
    BlockingInv gates (World.initial js) := by
  constructor
  · simp [World.initial]
  · intro v hv
    simp [World.initial] at hv
  · intro a busy
    cases busy
  · intro k hk
    simp [World.initial] at hk

theorem guarded_blockingInv (hS : BlockingSetting S gates) (hnew : js.status = .new)
    (hjs : useBlockingRecreate js = true) (h : GuardedRun S FailureStands js w) :
    BlockingInv gates w := by
  induction h with
  | refl => exact blockingInv_initial gates js
  | @tail w w' hrun hguarded ih =>
    obtain ⟨hstep, hguard⟩ := hguarded
    have hreach : Reachable S js w := GuardedRun.reachable hrun
    have hinv := reachable_inv hreach
    have hsets := reachable_blockingSets hS hnew hjs hreach
    have hkeep : ∀ {a : Attempt}, w'.attempt = w.attempt → w'.attempt = some a →
        ∃ a₀, w.attempt = some a₀ ∧ a.toReading = a₀.toReading :=
      fun he ha => ⟨_, he ▸ ha, rfl⟩
    cases hstep with
    | begin idle allowed newer past newerJobs pastJobs listed =>
      exact ih.begin hsets (hS.gates _ allowed) newer past newerJobs pastJobs listed
        (hguard idle _ rfl)
    | stop => exact ih.stop
    | answer busy next reply =>
      exact ih.step hS hinv hsets (.answer busy next reply) rfl rfl fun a' ha' => by
        cases ha'
        exact ⟨_, busy, rfl⟩
    | userUpdate admitted status =>
      exact ih.step hS hinv hsets (.userUpdate admitted status) rfl rfl fun _ => hkeep rfl
    | jobProgress mem status finished =>
      exact ih.step hS hinv hsets (.jobProgress mem status finished) rfl rfl fun _ => hkeep rfl
    | jobAppeared foreign free =>
      exact ih.step hS hinv hsets (.jobAppeared foreign free) rfl rfl fun _ => hkeep rfl
    | jobRemoved mem removable =>
      exact ih.step hS hinv hsets (.jobRemoved mem removable) rfl rfl fun _ => hkeep rfl

/-- BlockingRecreate keeps attempts apart in every run in which a reconcile that sees
failed Jobs starts while one of them is still on the server and not marked for
deletion. -/
theorem blockingRecreate_noOverlap (hS : BlockingSetting S gates) (hnew : js.status = .new)
    (hjs : useBlockingRecreate js = true) (h : GuardedRun S FailureStands js w) : NoOverlap w :=
  (guarded_blockingInv hS hnew hjs h).separate

end Runs

/-! ## A run with overlapping attempts -/

/-- A deadline of ten seconds and two Jobs. -/
def deadlineSet : JobSet :=
  let js := plainSet [.single "w" 2] 1 .blockingRecreate
  { js with spec := { js.spec with activeDeadlineSeconds := some 10 } }

/-- Only the gate of the deadline. -/
def deadlineGates : FeatureGates :=
  { restartJobGates with restartJob := false, jobSetActiveDeadlineSeconds := true }

/-- Users may suspend and resume the JobSet. -/
def suspendSetting (env : Env) : Setting where
  allowed e := e = env
  admits a b := ∃ on, b = { a with spec := { a.spec with suspend := some on } }
  foreign _ := False
  removable job := job.deletionTimestamp.isSome = true

/-- The deadline passes while the cache does not show yet that a Job has failed. The
reconcile deletes both Jobs, but a user suspends the JobSet before its status write.
The next reconcile counts the failure it now sees; the one after it still reads the
version before that and creates a Job of the old attempt; and the last one, whose
list does not show that Job, creates one of the new attempt. -/
def overlappingEvents : List Event :=
  [.begin 0 0, .answer 0, .answer 0, .answer 0, .stop,
    .progress "js-w-0" failedStatus,
    .begin 1 2, .answer 11000000000, .answer 11000000000, .suspend true, .stop,
    .begin 2 3, .answer 11000000000, .stop,
    .remove "js-w-0", .remove "js-w-1",
    .begin 2 7, .answer 11000000000, .stop,
    .begin 3 7, .refuse 11000000000, .answer 11000000000]

theorem suspend_blockingSetting (gates : FeatureGates) :
    BlockingSetting (suspendSetting (plainEnv gates)) gates where
  gates := by rintro env rfl; rfl
  names := by rintro a b ⟨on, rfl⟩; rfl
  foreign := fun _ h => h
  strategy := by rintro a b ⟨on, rfl⟩ h; exact h
  removable := fun _ h => h

/-- A Job of the second attempt is created while one of the first exists. -/
theorem blockingRecreate_overlap :
    BlockingSetting (suspendSetting (plainEnv deadlineGates)) deadlineGates ∧
    deadlineSet.status = .new ∧ useBlockingRecreate deadlineSet = true ∧
    ∃ w, Reachable (suspendSetting (plainEnv deadlineGates)) deadlineSet w ∧ ¬ NoOverlap w := by
  refine ⟨suspend_blockingSetting _, rfl, rfl, ?_⟩
  obtain ⟨w, hw, hp⟩ := run_reachable (S := suspendSetting (plainEnv deadlineGates))
    (p := fun w => w.jobs.top = 9 ∧ ((w.jobs.entry 9).any fun job =>
      restartLabel job = some 1 ∧ (w.jobs.entry 8).all (fun j => j.uid ≠ job.uid) ∧
        (w.jobs.entry 8).any fun j => restartLabel j = some 0))
    rfl deadlineSet overlappingEvents (by simp [overlappingEvents, Event.Permitted, suspendSetting]) (by decide +kernel)
  refine ⟨w, hw, fun hno => ?_⟩
  simp only [Bool.decide_and, Bool.and_eq_true, decide_eq_true_eq, List.any_eq_true,
    List.all_eq_true] at hp
  obtain ⟨htop, job, hjob, hlabel, hnew, j, hj, hsmall⟩ := hp
  have := hno 8 (by omega) job hjob (by simpa using hnew) 8 le_rfl (by omega) j hj 1 0 hlabel hsmall
  omega

/-- The executable form of `FailureStands`. -/
def checkFailureStands (w : World) (a : Attempt) : Bool :=
  match getChildJobs a.env.gates a.js a.jobs with
  | .ok owned => owned.failed = [] ∨ owned.failed.any fun f => w.jobs.current.any fun f' =>
      f'.uid = f.uid ∧ f'.deletionTimestamp = none
  | .error _ => true

theorem failureStands_of_check {w : World} {a : Attempt} (h : checkFailureStands w a = true) :
    FailureStands w a := by
  intro owned hsorted hfailed
  unfold checkFailureStands at h
  simp only [hsorted, hfailed, false_or, List.any_eq_true,
    decide_eq_true_eq] at h
  obtain ⟨f, hf, f', hf', huid, hunmarked⟩ := h
  exact ⟨f, hf, f', hf', huid, hunmarked⟩

/-- A reconcile that sees the failure starts while the failed Job is there. -/
theorem blockingRecreate_noOverlap_oneJob :
    ∃ w, GuardedRun (suspendSetting (plainEnv restartJobGates)) FailureStands
        (plainSet [.single "w" 1] 1 .blockingRecreate) w ∧
      w.sets.current.status.restarts = 1 ∧ NoOverlap w := by
  have hcheck : ∀ w a, checkFailureStands w a = true → FailureStands w a :=
    fun _ _ => failureStands_of_check
  obtain ⟨w, hw, hp⟩ := run_guarded (S := suspendSetting (plainEnv restartJobGates))
    (p := fun w => w.sets.current.status.restarts = 1) rfl hcheck
    (plainSet [.single "w" 1] 1 .blockingRecreate) failOnce (by simp [failOnce, Event.Permitted]) (by decide +kernel)
  exact ⟨w, hw, by simpa using hp,
    blockingRecreate_noOverlap (suspend_blockingSetting _) rfl rfl hw⟩

end JobSetOperator.Cluster
