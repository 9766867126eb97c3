import JobSetOperator.Admission.Checked
import JobSetOperator.Controller.Unexpired
import JobSetOperator.Convergence.Rank

/-!
# Reconciling until nothing is left to write

Every reconcile on the quiet server either leaves the site as it is without a write
or brings the rank of the site down, so an iteration comes to an end. What the site
then looks like follows from the outcomes.
-/
namespace JobSetOperator.Convergence

open Library Library.Program

/-! ## Sites stay sound -/

theorem sound_sublist {s : Site} (hs : Sound s) {js' : JobSet}
    (hjs : js' = { s.js with status := js'.status }) {jobs : List Job} (hjobs : jobs.Sublist s.jobs)
    (service : Option (Bool × List ServicePort)) (claims : List String) :
    Sound ⟨js', jobs, service, claims⟩ := by
  have hspec : js'.spec = s.js.spec := by rw [hjs]
  constructor
  · unfold JobSet.jobNames
    rw [hspec]
    exact hs.names
  · rw [hjs]
    exact hs.internal
  · rw [hspec]
    exact hs.ttl
  · exact fun job hjob => labelledBy_of_status hjs (hs.labelled job (hjobs.subset hjob))
  · exact hs.distinct.sublist (hjobs.map _)

/-- The site a reconcile leaves, when the Jobs that are being deleted are gone. -/
def Session.left (mid : Session) : Site := { mid.toSite with jobs := liveJobs mid.jobs }

theorem undeleted_left (mid : Session) : Undeleted mid.left := by
  intro job hjob
  have hlive := (List.mem_filter.mp hjob).2
  simpa using hlive

theorem record_status (mid : Session) (p : Pass) :
    (mid.record p).js = { mid.js with status := (mid.record p).js.status } := by
  unfold Session.record
  split_ifs <;> rfl

/-- Every reconcile leaves a sound site. -/
theorem Outcome.sound {env : Env} {s : Site} {mid : Session} {res : Except String ℤ}
    (h : Outcome env s mid res) (hs : Sound s) : Sound mid.left := by
  have hlive : ∀ l : List Job, (liveJobs l).Sublist l := fun _ => List.filter_sublist
  cases h with
  | deleted => exact sound_sublist hs rfl (hlive _) _ _
  | finished =>
    apply sound_sublist hs (record_status _ _)
    apply (hlive _).trans
    rw [Session.record_site]
    exact List.filter_sublist
  | unhandled => exact sound_sublist hs rfl ((hlive _).trans List.filter_sublist) _ _
  | decided => exact sound_sublist hs rfl ((hlive _).trans List.filter_sublist) _ _
  | @running hphase stored mid p created reworked drafts =>
    have hforall := reworked.jobs
    rw [created_jobs] at hforall
    have hmidjs : mid.js = s.js := (congrArg Site.js reworked.site).trans (created_js stored)
    have hstatus := record_status mid p
    rw [hmidjs] at hstatus
    have hrecord : (mid.record p).jobs = mid.jobs := by rw [Session.record_site]
    apply sound_reworked hs hstatus _ created hforall
    · rw [hrecord]
      exact hlive _
    · exact List.filter_sublist

/-! ## The rank -/

/-- The status holds the counts of the Jobs. -/
def Site.CountsSettled (env : Env) (s : Site) : Prop :=
  sortStatuses s.js.status.replicatedJobsStatus = sortStatuses (s.counts env)

open Classical in
/-- The rank of a site: the restarts to come, the work of the attempt, and the status. -/
noncomputable def Site.rank (env : Env) (s : Site) : ℕ ×ₗ ℕ ×ₗ ℕ :=
  if jobSetFinished s.js then
    toLex (0, toLex (s.count .active, if s.CountsSettled env then 0 else 1))
  else toLex (1 + s.debts, toLex (s.work, if s.StatusSettled env then 0 else 1))

theorem lex_lt_of_second {a a' b b' c c' : ℕ} (ha : a' ≤ a) (hb : b' < b) :
    (toLex (a', toLex (b', c')) : ℕ ×ₗ ℕ ×ₗ ℕ) < toLex (a, toLex (b, c)) := by
  rw [Prod.Lex.toLex_lt_toLex]
  rcases lt_or_eq_of_le ha with hlt | heq
  · exact Or.inl hlt
  · exact Or.inr ⟨heq, Prod.Lex.toLex_lt_toLex.mpr (Or.inl hb)⟩

theorem lex_lt_of_third {a a' b b' c c' : ℕ} (ha : a' ≤ a) (hb : b' ≤ b) (hc : c' < c) :
    (toLex (a', toLex (b', c')) : ℕ ×ₗ ℕ ×ₗ ℕ) < toLex (a, toLex (b, c)) := by
  rcases lt_or_eq_of_le hb with hlt | rfl
  · exact lex_lt_of_second ha hlt
  · rw [Prod.Lex.toLex_lt_toLex]
    rcases lt_or_eq_of_le ha with hlt | heq
    · exact Or.inl hlt
    · exact Or.inr ⟨heq, Prod.Lex.toLex_lt_toLex.mpr (Or.inr ⟨rfl, hc⟩)⟩

section Rank

variable {env : Env} {s s' : Site}

open Classical in
theorem rank_finished (h : jobSetFinished s.js = true) : s.rank env =
    toLex (0, toLex (s.count .active, if s.CountsSettled env then 0 else 1)) :=
  if_pos h

open Classical in
theorem rank_unfinished (h : jobSetFinished s.js = false) : s.rank env =
    toLex (1 + s.debts, toLex (s.work, if s.StatusSettled env then 0 else 1)) :=
  if_neg (by simp [h])

theorem rank_lt_of_finished (hf : jobSetFinished s.js = false) (hf' : jobSetFinished s'.js = true) :
    s'.rank env < s.rank env := by
  rw [rank_unfinished hf, rank_finished hf', Prod.Lex.toLex_lt_toLex]
  exact Or.inl (by omega)

theorem rank_lt_of_debts (hf : jobSetFinished s.js = false) (hd : s'.debts < s.debts) :
    s'.rank env < s.rank env := by
  cases hf' : jobSetFinished s'.js with
  | true => exact rank_lt_of_finished hf hf'
  | false =>
    rw [rank_unfinished hf, rank_unfinished hf', Prod.Lex.toLex_lt_toLex]
    exact Or.inl (by omega)

theorem rank_lt_of_work (hf : jobSetFinished s.js = false) (hf' : jobSetFinished s'.js = false)
    (hd : s'.debts ≤ s.debts) (hw : s'.work < s.work) : s'.rank env < s.rank env := by
  rw [rank_unfinished hf, rank_unfinished hf']
  exact lex_lt_of_second (by omega) hw

theorem rank_lt_of_status (hf : jobSetFinished s.js = false) (hf' : jobSetFinished s'.js = false)
    (hd : s'.debts ≤ s.debts) (hw : s'.work ≤ s.work) (hs : ¬ s.StatusSettled env)
    (hs' : s'.StatusSettled env) : s'.rank env < s.rank env := by
  rw [rank_unfinished hf, rank_unfinished hf', if_neg hs, if_pos hs']
  exact lex_lt_of_third (by omega) hw (by omega)

theorem rank_lt_of_active (hf : jobSetFinished s.js = true) (hf' : jobSetFinished s'.js = true)
    (h : s'.count .active < s.count .active) : s'.rank env < s.rank env := by
  rw [rank_finished hf, rank_finished hf']
  exact lex_lt_of_second (le_refl 0) h

theorem rank_lt_of_counts (hf : jobSetFinished s.js = true) (hf' : jobSetFinished s'.js = true)
    (h : s'.count .active ≤ s.count .active) (hs : ¬ s.CountsSettled env)
    (hs' : s'.CountsSettled env) : s'.rank env < s.rank env := by
  rw [rank_finished hf, rank_finished hf', if_neg hs, if_pos hs']
  exact lex_lt_of_third (le_refl 0) h (by omega)

end Rank

/-! ## Nothing left to write -/

/-- What leaves nothing to write in each phase. -/
def Site.QuietIn (env : Env) (s : Site) : Phase → Prop
  | .deleted => True
  | .finished => s.count .active = 0 ∧ s.CountsSettled env
  | .unhandled => s.count .previous = 0
  | .decided => False
  | .running => s.Idle env ∧ s.StatusSettled env

/-- A reconcile of the site writes nothing. -/
def Site.Quiet (env : Env) (s : Site) : Prop := s.QuietIn env (s.phase env)

theorem quiet_iff {env : Env} {s : Site} {phase : Phase} (h : s.phase env = phase) :
    s.Quiet env ↔ s.QuietIn env phase := by
  unfold Site.Quiet
  rw [h]

theorem phase_unfinished {env : Env} {s : Site} (h : s.phase env ≠ .deleted)
    (h' : s.phase env ≠ .finished) : jobSetFinished s.js = false := by
  unfold Site.phase at h h'
  split_ifs at h h' with hmarked hfinished
  · exact (h rfl).elim
  · exact (h' rfl).elim
  · simpa using hfinished

/-- The policies decide about a JobSet that is neither deleted nor finished. -/
theorem decision_cases (env : Env) (s : Site) :
    s.decision env = .unhandled ∨ s.decision env = .decided ∨ s.decision env = .running := by
  unfold Site.decision
  split_ifs
  · exact Or.inl rfl
  · exact Or.inr (Or.inl rfl)
  · exact Or.inr (Or.inr rfl)
  · split
    · exact Or.inl rfl
    · exact Or.inr (Or.inl rfl)
    · exact Or.inr (Or.inr rfl)

theorem phase_finished {env : Env} {s : Site} (h : s.phase env = .finished) :
    jobSetFinished s.js = true := by
  unfold Site.phase at h
  split_ifs at h with hmarked hfinished
  · exact hfinished
  · rcases decision_cases env s with hd | hd | hd <;> cases h.symm.trans hd

theorem phase_deleted {env : Env} {s : Site} (h : s.phase env = .deleted) :
    jobSetMarkedForDeletion s.js = true := by
  unfold Site.phase at h
  split_ifs at h with hmarked hfinished
  · exact hmarked
  · rcases decision_cases env s with hd | hd | hd <;> cases h.symm.trans hd

/-- A bucket without Jobs is not deleted from. -/
theorem delete_of_count {s : Site} {b : Bucket} (h : s.count b = 0) :
    Session.delete ⟨s, false⟩ ((liveJobs (s.owned.jobs b)).map (·.name)) = ⟨s, false⟩ := by
  have hempty : s.owned.jobs b = [] := by
    have howned : s.owned.jobs b = s.jobs.filter fun job => decide (bucket s.js job = b) := by
      cases b <;> rfl
    rw [howned, List.filter_eq_nil_iff]
    exact List.countP_eq_zero.mp h
  rw [hempty]
  exact Session.delete_nil _

theorem left_of_undeleted {s : Site} (h : Undeleted s) : Session.left ⟨s, false⟩ = s := by
  unfold Session.left
  dsimp only
  rw [liveJobs_eq h]

theorem eq_of_reworked_none {suspend : Bool} {jobs jobs' : List Job}
    (h : List.Forall₂ (Reworked suspend []) jobs jobs') : jobs' = jobs := by
  induction h with
  | nil => rfl
  | cons hfirst _ ih => rw [ih, hfirst.other List.not_mem_nil]

theorem Session.provide_of_present {s : Site} (hservice : serviceNeeded s.js s.service = false)
    (hclaims : s.missingClaims = []) :
    Session.provide ⟨s, false⟩ s.js = ⟨s, false⟩ := by
  have hpresent : ∀ name ∈ claimNames s.js, name ∈ s.claims := by
    intro name hname
    have hnot := List.filter_eq_nil_iff.mp hclaims name hname
    simpa using hnot
  have hserve : Session.serve ⟨s, false⟩ s.js = ⟨s, false⟩ := Session.serve_of_not_needed hservice
  unfold Session.provide
  rw [hserve]
  unfold Session.claim
  dsimp only
  rw [addClaims_of_mem hpresent]
  simpa using hpresent

section Steps

variable {env : Env} {s : Site}

/-- An idle site is left as it is, up to the status. -/
theorem Site.Idle.session (h : s.Idle env) {stored : List Job} {mid : Session}
    (created : List.Forall₂ (StoredFor s.js) (s.freeSlots env) stored)
    (reworked : ((s.cleared.provide s.js).create stored).Reworks (jobSetSuspended s.js)
      ((s.toRework env).map (·.name)) mid) : mid = ⟨s, false⟩ := by
  have hstored : stored = [] := by
    rw [h.slots] at created
    cases created
    rfl
  have hcleared : s.cleared = ⟨s, false⟩ := delete_of_count h.previous
  have hprovide := Session.provide_of_present h.service h.claims
  rw [hstored, Session.create_nil, hcleared, hprovide, h.rework] at reworked
  have hjobs := eq_of_reworked_none reworked.jobs
  have hsite := reworked.site
  have hwrote := reworked.wrote
  rw [hjobs] at hsite
  obtain ⟨site, wrote⟩ := mid
  simp only at hsite hwrote
  rw [hsite, hwrote]
  rfl

theorem Session.record_of_not {mid : Session} {p : Pass} (h : ¬ p.opts.shouldUpdate = true) :
    mid.record p = mid :=
  if_neg h

/-- A quiet site is left as it is, without a write. -/
theorem Outcome.of_quiet {mid : Session} {res : Except String ℤ} (h : Outcome env s mid res)
    (hquiet : s.Quiet env) : mid = ⟨s, false⟩ := by
  cases h with
  | deleted => rfl
  | finished hphase =>
    obtain ⟨hcount, hcounts⟩ := (quiet_iff hphase).mp hquiet
    have hdelete : Session.delete ⟨s, false⟩ ((liveJobs s.owned.active).map (·.name)) =
        ⟨s, false⟩ := delete_of_count hcount
    rw [hdelete]
    apply Session.record_of_not
    rw [entryPass_update]
    exact not_not.mpr hcounts
  | unhandled hphase =>
    exact delete_of_count ((quiet_iff hphase).mp hquiet)
  | decided hphase =>
    exact ((quiet_iff hphase).mp hquiet).elim
  | running hphase created reworked drafts =>
    obtain ⟨hidle, hsettled⟩ := (quiet_iff hphase).mp hquiet
    rw [hidle.session created reworked]
    apply Session.record_of_not
    rw [drafts.update]
    exact not_not.mpr hsettled

/-- The counts do not look at the rest of the status. -/
theorem counts_congr (hgate : env.gates.restartJob = false) {js' : JobSet}
    (h : SameAttempt s.js js') : ({ s with js := js' } : Site).counts env = s.counts env := by
  have howned : ({ s with js := js' } : Site).owned = s.owned := by
    unfold Site.owned snapshot
    rw [bucket_of_restarts h.restarts]
  have hnames : replicatedJobNames js' = replicatedJobNames s.js := by
    rw [h.same]
    rfl
  unfold Site.counts calculateReplicatedJobStatuses
  rw [howned, hnames]
  apply List.map_congr_left
  intro name _
  unfold replicatedJobStatus
  simp [hgate]

/-- The requests for conditions do not look at the status either. -/
theorem requests_congr (hgate : env.gates.restartJob = false) {js' : JobSet}
    (h : SameAttempt s.js js') : ({ s with js := js' } : Site).requests env = s.requests env := by
  have hturn : ({ s with js := js' } : Site).turn env = s.turn env := by
    unfold Site.turn
    rw [counts_congr hgate h]
    dsimp only
    rw [h.same]
    rfl
  unfold Site.requests
  rw [hturn, counts_congr hgate h]
  dsimp only
  rw [h.same]
  rfl

theorem entryPass_sameAttempt : SameAttempt s.js (entryPass env s.js s.owned).js := by
  rw [entryPass_js]
  exact ⟨rfl, rfl⟩

theorem entryPass_finished :
    jobSetFinished (entryPass env s.js s.owned).js = jobSetFinished s.js := by
  rw [entryPass_js]
  rfl

/-- The session with the status of the entry, if it is written. -/
theorem record_entryPass {mid : Session} (hmid : mid.js = s.js) :
    SameAttempt s.js (mid.record (entryPass env s.js s.owned)).js ∧
      jobSetFinished (mid.record (entryPass env s.js s.owned)).js = jobSetFinished s.js := by
  unfold Session.record
  split_ifs
  · have hjs : { mid.js with status := (entryPass env s.js s.owned).js.status } =
        (entryPass env s.js s.owned).js := by
      rw [hmid, entryPass_js]
    dsimp only
    rw [hjs]
    exact ⟨entryPass_sameAttempt, entryPass_finished⟩
  · rw [hmid]
    exact ⟨SameAttempt.refl _, rfl⟩

/-- A finished JobSet loses its active Jobs. -/
theorem descends_of_active (hs : Sound s) (hlive : Undeleted s) (hphase : s.phase env = .finished)
    (hcount : s.count .active ≠ 0) :
    ((Session.delete ⟨s, false⟩ ((liveJobs s.owned.active).map (·.name))).record
      (entryPass env s.js s.owned)).left.rank env < s.rank env := by
  have hfinished := phase_finished hphase
  obtain ⟨hsame, hfinished'⟩ := @record_entryPass env s
    (Session.delete ⟨s, false⟩ ((liveJobs s.owned.active).map (·.name))) rfl
  apply rank_lt_of_active hfinished
    (show jobSetFinished (Session.left _).js = true from hfinished'.trans hfinished)
  have hnone : Site.count (Session.left ((Session.delete ⟨s, false⟩
      ((liveJobs s.owned.active).map (·.name))).record (entryPass env s.js s.owned))) .active = 0 := by
    unfold Site.count Session.left
    dsimp only
    rw [bucket_of_restarts hsame.restarts, Session.record_site]
    dsimp only
    have hjobs := delete_bucket hs hlive .active
    rw [show liveJobs s.owned.active = liveJobs (s.owned.jobs .active) from rfl, hjobs,
      List.countP_eq_zero]
    intro job hjob
    have hkept := (List.mem_filter.mp (List.mem_of_mem_filter hjob)).2
    simpa using hkept
  rw [hnone]
  exact Nat.pos_of_ne_zero hcount

/-- The status of a finished JobSet is brought up to date. -/
theorem descends_of_counts (hlive : Undeleted s) (hgate : env.gates.restartJob = false)
    (hphase : s.phase env = .finished) (hcount : s.count .active = 0)
    (hcounts : ¬ s.CountsSettled env) :
    ((Session.delete ⟨s, false⟩ ((liveJobs s.owned.active).map (·.name))).record
      (entryPass env s.js s.owned)).left.rank env < s.rank env := by
  have hfinished := phase_finished hphase
  have hdelete : Session.delete ⟨s, false⟩ ((liveJobs s.owned.active).map (·.name)) =
      ⟨s, false⟩ := delete_of_count hcount
  have hrecord : (Session.record ⟨s, false⟩ (entryPass env s.js s.owned)).left =
      { s with js := (entryPass env s.js s.owned).js } := by
    unfold Session.record Session.left
    rw [if_pos (entryPass_update.mpr hcounts), entryPass_js]
    dsimp only
    rw [liveJobs_eq hlive]
  rw [hdelete, hrecord]
  apply rank_lt_of_counts hfinished (entryPass_finished.trans hfinished) _ hcounts
  · unfold Site.CountsSettled
    rw [counts_congr hgate entryPass_sameAttempt]
    dsimp only
    rw [entryPass_js]
    exact sortStatuses_idem _
  · unfold Site.count
    dsimp only
    rw [bucket_of_restarts entryPass_sameAttempt.restarts]

/-- A JobSet whose policies end in an error loses the Jobs of earlier attempts. -/
theorem descends_of_unhandled (hs : Sound s) (hlive : Undeleted s)
    (hphase : s.phase env = .unhandled) (hcount : s.count .previous ≠ 0) :
    s.cleared.left.rank env < s.rank env := by
  have hunfinished := @phase_unfinished env s (by simp [hphase]) (by simp [hphase])
  have hjobs : s.cleared.left.jobs = currentJobs s.js s.jobs := by
    unfold Session.left
    dsimp only
    rw [cleared_jobs hs hlive]
    exact liveJobs_eq fun job hjob => hlive job ((mem_currentJobs _ _).mp hjob).1
  apply rank_lt_of_work hunfinished
    (show jobSetFinished s.cleared.left.js = false from hunfinished)
  · unfold Site.debts
    rw [hjobs]
    exact debts_currentJobs s.js s.jobs
  · have hprevious : s.cleared.left.count .previous = 0 := by
      unfold Site.count
      rw [hjobs]
      exact count_previous_currentJobs s.js s.jobs
    have hcurrent : s.cleared.left.current = s.current := by
      unfold Site.current
      rw [hjobs]
      exact length_currentJobs s.js s.jobs
    have hmisfits : s.cleared.left.misfits = s.misfits := by
      unfold Site.misfits
      rw [hjobs]
      exact misfits_currentJobs s.js s.jobs
    have hclaims : s.cleared.left.missingClaims = s.missingClaims := rfl
    unfold Site.work
    rw [hprevious, hcurrent, hmisfits, hclaims]
    have hsame : serviceNeeded s.cleared.left.js s.cleared.left.service =
        serviceNeeded s.js s.service := rfl
    have hslots : slots s.cleared.left.js = slots s.js := rfl
    rw [hsame, hslots]
    omega

/-- A restart can only lower what failed Jobs can still cause. -/
theorem debt_restarted {js js' : JobSet} (h : js'.status.restarts = js.status.restarts + 1)
    (job : Job) : debt js' job ≤ debt js job ∧
      (bucket js job = .failed → debt js' job < debt js job) := by
  unfold debt bucket
  rw [h]
  split_ifs with hfailed hprevious
  · constructor
    · push_cast
      omega
    · intro hb
      cases hb
  · constructor
    · push_cast
      omega
    · intro _
      push_cast
      omega
  · exact ⟨le_refl _, fun hb => by cases hb⟩
  · exact ⟨le_refl _, fun hb => (hfailed hb).elim⟩

theorem sum_debts_restarted {js js' : JobSet} (h : js'.status.restarts = js.status.restarts + 1)
    {jobs : List Job} {job : Job} (hjob : job ∈ jobs) (hfailed : bucket js job = .failed) :
    (jobs.map (debt js')).sum < (jobs.map (debt js)).sum := by
  apply List.sum_lt_sum
  · exact fun other _ => (debt_restarted h other).1
  · exact ⟨job, hjob, (debt_restarted h job).2 hfailed⟩

/-- A decision of the policies finishes the JobSet or uses up a failed Job. -/
theorem descends_of_decided (hs : Sound s) (hlive : Undeleted s) (hphase : s.phase env = .decided)
    {status : JobSetStatus} (ends : jobSetFinished { s.js with status := status } = true ∨
      (s.owned.failed ≠ [] ∧ status.restarts = s.js.status.restarts + 1)) :
    (Session.left { s.cleared with js := { s.js with status := status }, wrote := true }).rank env <
      s.rank env := by
  have hunfinished := @phase_unfinished env s (by simp [hphase]) (by simp [hphase])
  rcases ends with hfinished | ⟨hfailed, hrestarts⟩
  · exact rank_lt_of_finished hunfinished hfinished
  · apply rank_lt_of_debts hunfinished
    obtain ⟨job, hjob⟩ := List.exists_mem_of_ne_nil _ hfailed
    obtain ⟨hmem, hbucket⟩ :=
      mem_snapshot.mp (show job ∈ (snapshot s.js s.jobs).jobs .failed from hjob)
    have hjobs : (Session.left { s.cleared with
        js := { s.js with status := status }, wrote := true }).jobs = currentJobs s.js s.jobs := by
      unfold Session.left
      dsimp only
      rw [cleared_jobs hs hlive]
      exact liveJobs_eq fun job hjob => hlive job ((mem_currentJobs _ _).mp hjob).1
    have hcurrent : job ∈ currentJobs s.js s.jobs := by
      rw [mem_currentJobs]
      exact ⟨hmem, by simp [hbucket]⟩
    unfold Site.debts
    rw [hjobs]
    exact (sum_debts_restarted hrestarts hcurrent hbucket).trans_le
      (debts_currentJobs s.js s.jobs)

/-- A running pass that has nothing else to do settles the status. -/
theorem statusSettled_of_idle (hlive : Undeleted s) (hgate : env.gates.restartJob = false)
    {p : Pass} (drafts : Drafts env s p) (hunsettled : ¬ s.StatusSettled env) :
    (Session.record ⟨s, false⟩ p).left.StatusSettled env := by
  have hp : { s.js with status := p.js.status } = p.js := by
    rw [drafts.js]
  have hleft : (Session.record ⟨s, false⟩ p).left = { s with js := p.js } := by
    unfold Session.record Session.left
    rw [if_pos (drafts.update.mpr hunsettled)]
    dsimp only
    rw [liveJobs_eq hlive, hp]
  have hsame : SameAttempt s.js p.js := by
    constructor
    · exact hp.symm
    · rw [drafts.js]
  rw [hleft]
  constructor
  · rw [counts_congr hgate hsame]
    dsimp only
    rw [drafts.js]
    exact sortStatuses_idem _
  · dsimp only
    rw [drafts.js]
  · rw [requests_congr hgate hsame]
    exact drafts.settles

/-- A running pass does some of the work, or settles the status. -/
theorem descends_of_running (hs : Sound s) (hlive : Undeleted s)
    (hgate : env.gates.restartJob = false) (hphase : s.phase env = .running)
    (hquiet : ¬ s.Quiet env) {stored : List Job} {mid : Session} {p : Pass}
    (created : List.Forall₂ (StoredFor s.js) (s.freeSlots env) stored)
    (reworked : ((s.cleared.provide s.js).create stored).Reworks (jobSetSuspended s.js)
      ((s.toRework env).map (·.name)) mid) (drafts : Drafts env s p) :
    (mid.record p).left.rank env < s.rank env := by
  have hunfinished := @phase_unfinished env s (by simp [hphase]) (by simp [hphase])
  have hend : RunningEnd env s (mid.record p).left stored :=
    runningEnd hs hlive created reworked drafts
  have hunfinished' := hend.finished.trans hunfinished
  obtain ⟨hwork, hbusy⟩ := hend.work hs created
  by_cases hidle : s.Idle env
  · have hunsettled : ¬ s.StatusSettled env := fun hsettled =>
      hquiet ((quiet_iff hphase).mpr ⟨hidle, hsettled⟩)
    apply rank_lt_of_status hunfinished hunfinished' (hend.debts created) hwork hunsettled
    rw [hidle.session created reworked]
    exact statusSettled_of_idle hlive hgate drafts hunsettled
  · exact rank_lt_of_work hunfinished hunfinished' (hend.debts created) (hbusy hidle)

/-- A reconcile of a site that is not quiet brings the rank down. -/
theorem Outcome.descends (hs : Sound s) (hlive : Undeleted s)
    (hgate : env.gates.restartJob = false) {mid : Session} {res : Except String ℤ}
    (h : Outcome env s mid res) (hquiet : ¬ s.Quiet env) : mid.left.rank env < s.rank env := by
  cases h with
  | deleted hphase => exact (hquiet ((quiet_iff hphase).mpr trivial)).elim
  | finished hphase =>
    by_cases hcount : s.count .active = 0
    · apply descends_of_counts hlive hgate hphase hcount
      exact fun hcounts => hquiet ((quiet_iff hphase).mpr ⟨hcount, hcounts⟩)
    · exact descends_of_active hs hlive hphase hcount
  | unhandled hphase =>
    apply descends_of_unhandled hs hlive hphase
    exact fun hcount => hquiet ((quiet_iff hphase).mpr hcount)
  | decided hphase ends => exact descends_of_decided hs hlive hphase ends
  | running hphase created reworked drafts =>
    exact descends_of_running hs hlive hgate hphase hquiet created reworked drafts

end Steps

/-! ## What is there in the end -/

/-- A child Job of the ReplicatedJob and the index, in the current attempt. -/
structure JobOf (js : JobSet) (rjob : ReplicatedJob) (i : ℕ) (job : Job) : Prop where
  replicatedJob : job.labels.lookup replicatedJobNameKey = some rjob.name
  index : job.labels.lookup jobIndexKey = some (itoa i)
  current : bucket js job ≠ .previous

/-- Every index has one Job of the current attempt, there are no older ones, and the active
ones are suspended as the JobSet is. -/
structure Complete (s : Site) : Prop where
  covered : ∀ rjob ∈ s.js.spec.replicatedJobs, ∀ i < rjob.replicas,
    ∃! job, job ∈ s.jobs ∧ JobOf s.js rjob i job
  current : ∀ job ∈ s.jobs, bucket s.js job ≠ .previous
  suspended : ∀ job ∈ s.jobs, bucket s.js job = .active →
    jobSuspended job = jobSetSuspended s.js

theorem slot_of_labelledBy {js : JobSet} {job : Job} (h : LabelledBy js job) :
    ∃ rjob ∈ js.spec.replicatedJobs, ∃ i < rjob.replicas, job.name = slotName js (rjob, i) ∧
      job.labels.lookup replicatedJobNameKey = some rjob.name ∧
      job.labels.lookup jobIndexKey = some (itoa i) := by
  obtain ⟨platform, gates, status, rjob, hr, i, hi, built, hbuilt, hname, hlabels⟩ := h
  obtain ⟨-, hrjob, hindex, -, -⟩ := constructJob_labels hbuilt
  rw [← hlabels] at hrjob hindex
  exact ⟨rjob, hr, i, hi, hname.trans (constructJob_builtFor hbuilt).name, hrjob, hindex⟩

section Complete

variable {env : Env} {s : Site} (hs : Sound s)
  (horder : inOrderStartupPolicy s.js.spec.startupPolicy = false)
  (hdeps : ∀ rjob ∈ s.js.spec.replicatedJobs, rjob.dependsOn.getD [] = [])

include horder hdeps in
/-- It is everybody's turn. -/
theorem turn_all : (s.turn env).1 = s.js.spec.replicatedJobs := by
  have hwaits : waitsInOrder s.js = false := by
    unfold waitsInOrder
    rw [horder, Bool.and_false]
  unfold Site.turn
  rw [hwaits, turns_anyOrder _ hdeps]

theorem Site.Idle.current (h : s.Idle env) {job : Job} (hjob : job ∈ s.jobs) :
    bucket s.js job ≠ .previous := by
  have hnot := List.countP_eq_zero.mp h.previous job hjob
  simpa using hnot

include horder hdeps in
/-- Every index has a Job under its name. -/
theorem Site.Idle.exists_named (h : s.Idle env) {rjob : ReplicatedJob}
    (hr : rjob ∈ s.js.spec.replicatedJobs) {i : ℕ} (hi : i < rjob.replicas) :
    ∃ job ∈ s.jobs, job.name = slotName s.js (rjob, i) := by
  have hprevious : s.owned.previous = [] := by
    rw [List.eq_nil_iff_forall_not_mem]
    intro job hjob
    obtain ⟨hmem, hbucket⟩ :=
      mem_snapshot.mp (show job ∈ (snapshot s.js s.jobs).jobs .previous from hjob)
    exact h.current hmem hbucket
  have hslots := h.slots
  unfold Site.freeSlots recreationBlocked at hslots
  rw [hprevious, turn_all horder hdeps] at hslots
  simp only [ne_eq, not_true_eq_false, decide_false, Bool.false_and, Bool.false_eq_true,
    if_false] at hslots
  have htaken := List.filter_eq_nil_iff.mp hslots (rjob, i) (mem_indexes.mpr ⟨hr, hi⟩)
  simp only [decide_eq_true_eq, not_not] at htaken
  obtain ⟨job, hjob, hname⟩ := List.mem_map.mp htaken
  exact ⟨job, mem_snapshot_all.mp hjob, hname⟩

include hs horder hdeps in
/-- No active Job is left to be suspended or resumed. -/
theorem Site.Idle.suspended (h : s.Idle env) {job : Job} (hjob : job ∈ s.jobs)
    (hactive : bucket s.js job = .active) : jobSuspended job = jobSetSuspended s.js := by
  have hmem : job ∈ s.owned.active :=
    show job ∈ (snapshot s.js s.jobs).jobs .active from mem_snapshot.mpr ⟨hjob, hactive⟩
  have hrework := h.rework
  unfold Site.toRework reworkedJobs at hrework
  cases hsuspended : jobSetSuspended s.js with
  | true =>
    rw [hsuspended, if_pos rfl] at hrework
    have hnot := List.filter_eq_nil_iff.mp hrework job hmem
    simpa using hnot
  | false =>
    rw [hsuspended, if_neg (by simp), turn_all horder hdeps] at hrework
    obtain ⟨rjob, hr, i, -, -, hname, -⟩ := slot_of_labelledBy (hs.labelled job hjob)
    have hof : job ∈ activeJobsOf s.owned.active rjob :=
      List.mem_filter.mpr ⟨hmem, by simp [StrMap.get, hname]⟩
    have hnone := List.flatMap_eq_nil_iff.mp hrework rjob hr
    have hnot := List.filter_eq_nil_iff.mp hnone job hof
    simpa using hnot

include hs horder hdeps in
theorem Site.Idle.complete (h : s.Idle env) : Complete s := by
  constructor
  · intro rjob hr i hi
    obtain ⟨job, hjob, hname⟩ := h.exists_named horder hdeps hr hi
    obtain ⟨rjob', -, j, -, hname', hrjob, hindex⟩ := slot_of_labelledBy (hs.labelled job hjob)
    obtain ⟨hsame, rfl⟩ := genJobName_inj (hname'.symm.trans hname)
    refine ⟨job, ⟨hjob, ⟨hsame ▸ hrjob, hindex, h.current hjob⟩⟩, ?_⟩
    rintro other ⟨hother, hof⟩
    apply eq_of_key hs.distinct hother hjob
    obtain ⟨rjob'', -, k, -, hname'', hrjob'', hindex''⟩ := slot_of_labelledBy (hs.labelled other hother)
    rw [hof.replicatedJob] at hrjob''
    rw [hof.index] at hindex''
    have hk : j = k := by exact_mod_cast itoa_injective (Option.some.inj hindex'')
    rw [hname'', hname, ← hk]
    unfold slotName
    rw [← Option.some.inj hrjob'']
  · exact fun job hjob => h.current hjob
  · exact fun job hjob => h.suspended hs horder hdeps hjob

include hs horder hdeps in
/-- A quiet site whose JobSet is still running without errors is complete. -/
theorem complete_of_quiet (hquiet : s.Quiet env) {mid : Session} {requeueAfter : ℤ}
    (h : Outcome env s mid (.ok requeueAfter)) (hunfinished : jobSetFinished s.js = false)
    (hkept : jobSetMarkedForDeletion s.js = false) : Complete s := by
  cases h with
  | deleted hphase =>
    rw [phase_deleted hphase] at hkept
    cases hkept
  | finished hphase =>
    rw [phase_finished hphase] at hunfinished
    cases hunfinished
  | decided hphase => exact ((quiet_iff hphase).mp hquiet).elim
  | running hphase => exact ((quiet_iff hphase).mp hquiet).1.complete hs horder hdeps

end Complete

/-! ## Convergence -/

/-- No reconcile of the site writes, and the site stays as it is. -/
def Rests (env : Env) (s : Site) : Prop :=
  ∀ res wrote s', Iterates env s res wrote s' → wrote = false ∧ s' = s

section Converges

variable {env : Env} (hgates : env.gates = gatesOff)

include hgates in
theorem outcome_of_iterates {s s' : Site} (hs : Sound s) {res : Except String ℤ} {wrote : Bool}
    (h : Iterates env s res wrote s') :
    ∃ mid : Session, Outcome env s mid res ∧ wrote = mid.wrote ∧ s' = mid.left := by
  obtain ⟨calls, mid, hruns, hwrote, hleft⟩ := h
  exact ⟨mid, ((ensures_reconcileRequest hgates hs).runs hruns).2, hwrote, hleft⟩

include hgates in
theorem rests_of_quiet {s : Site} (hs : Sound s) (hlive : Undeleted s) (hquiet : s.Quiet env) :
    Rests env s := by
  intro res wrote s' h
  obtain ⟨mid, houtcome, hwrote, hleft⟩ := outcome_of_iterates hgates hs h
  rw [houtcome.of_quiet hquiet] at hwrote hleft
  exact ⟨hwrote, hleft.trans (left_of_undeleted hlive)⟩

/-- Reconciling can always go on. -/
theorem exists_iteration (s : Site) : ∃ (sites : ℕ → Site) (results : ℕ → Except String ℤ)
    (wrote : ℕ → Bool), sites 0 = s ∧
      ∀ n, Iterates env (sites n) (results n) (wrote n) (sites (n + 1)) := by
  choose answer next hserves using serves_total
  have hstep : ∀ s : Site, ∃ res wrote s', Iterates env s res wrote s' := by
    intro s
    let serve : Session → (r : Request) → r.Response × Session :=
      fun s r => (answer s r, next s r)
    have hserve : ∀ s r, serves s r (serve s r).1 (serve s r).2 := hserves
    exact ⟨_, _, _, _, _, runs_execute hserve ⟨s, false⟩ (reconcileRequest env s.js s.jobs), rfl, rfl⟩
  choose result wrote next hnext using hstep
  refine ⟨fun n => next^[n] s, fun n => result (next^[n] s), fun n => wrote (next^[n] s), rfl, ?_⟩
  intro n
  dsimp only
  rw [Function.iterate_succ_apply']
  exact hnext _

end Converges

/-! ## Sites at rest -/

/-- A webhook with all gates off. -/
def restWebhook : Webhook := { trainWebhook with gates := gatesOff }

/-- A JobSet of two Jobs. -/
def pairJobs : JobSet :=
  defaultJobSet gatesOff { JobSet.zero with
    name := "js"
    spec := { JobSetSpec.zero with replicatedJobs := [.single "w" 2] } }

theorem pairJobs_admitted : Admitted restWebhook pairJobs := by
  apply Admitted.create
  · decide +kernel
  · decide +kernel

def pairSite : Site := ⟨pairJobs, [], none, []⟩

theorem pairSite_sound : Sound pairSite where
  names := by decide +kernel
  internal := by decide +kernel
  ttl := rfl
  labelled job hjob := by cases hjob
  distinct := List.nodup_nil

/-- The JobSet of two Jobs, about to be deleted before they are created. -/
def deletedSite : Site := ⟨{ pairJobs with deletionTimestamp := some 0 }, [], none, []⟩

/-- A rule that restarts single Jobs, added by an update. -/
def ruledJobs : JobSet :=
  { pairJobs with spec := { pairJobs.spec with
      failurePolicy := some ⟨3, .recreate, [⟨"rule", .restartJob, [], [], []⟩]⟩ } }

theorem ruledJobs_admitted : Admitted restWebhook ruledJobs := by
  apply Admitted.update pairJobs_admitted
  · exact ⟨rfl, rfl, rfl⟩
  · decide +kernel
  · decide +kernel
  · decide +kernel

/-- The first of the two Jobs has failed. -/
def ruledSite : Site :=
  ⟨ruledJobs, [builtWith ruledJobs (defaultReplicatedJob (.single "w" 2)) 0
    ⟨[⟨.jobFailed, .conditionTrue, "BackoffLimitExceeded", "", 0⟩], 0, none, 0, none⟩], none, []⟩

/-- Reconciling rests at the site of an unfinished JobSet without an order of startup, whose
Jobs are not complete. -/
structure Incomplete (env : Env) (s : Site) : Prop where
  sound : Sound s
  rests : Rests env s
  unfinished : jobSetFinished s.js = false
  anyOrder : inOrderStartupPolicy s.js.spec.startupPolicy = false
  noDependencies : ∀ rjob ∈ s.js.spec.replicatedJobs, rjob.dependsOn.getD [] = []
  incomplete : ¬ Complete s

theorem deletedSite_incomplete : Incomplete (plainEnv gatesOff) deletedSite := by
  have hsound : Sound deletedSite := by
    constructor
    · decide +kernel
    · decide +kernel
    · rfl
    · intro job hjob
      cases hjob
    · exact List.nodup_nil
  have hphase : deletedSite.phase (plainEnv gatesOff) = .deleted := rfl
  refine ⟨hsound, ?_, by decide +kernel, by decide +kernel, by decide +kernel, ?_⟩
  · apply rests_of_quiet rfl hsound
    · intro job hjob
      cases hjob
    · exact (quiet_iff hphase).mpr trivial
  · intro hcomplete
    obtain ⟨job, ⟨hjob, -⟩, -⟩ :=
      hcomplete.covered (defaultReplicatedJob (.single "w" 2)) List.mem_cons_self 0 (by decide)
    cases hjob

theorem ruledSite_incomplete : Incomplete (plainEnv gatesOff) ruledSite := by
  have hnames : ruledJobs.jobNames.Nodup := by decide +kernel
  have hlists : RestartListsComplete ruledJobs := by
    intro rjs hrjs
    cases hrjs
  have hsound : Sound ruledSite := by
    constructor
    · exact hnames
    · decide +kernel
    · rfl
    · intro job hjob
      rw [List.mem_singleton.mp hjob]
      exact labelledBy_builtWith hnames hlists List.mem_cons_self (by decide) _
    · exact List.nodup_singleton _
  have hphase : ruledSite.phase (plainEnv gatesOff) = .unhandled := by decide +kernel
  refine ⟨hsound, ?_, by decide +kernel, by decide +kernel, by decide +kernel, ?_⟩
  · apply rests_of_quiet rfl hsound
    · intro job hjob
      rw [List.mem_singleton.mp hjob]
      decide +kernel
    · exact (quiet_iff hphase).mpr (by decide +kernel : ruledSite.count .previous = 0)
  · intro hcomplete
    obtain ⟨job, ⟨hjob, hof⟩, -⟩ :=
      hcomplete.covered (defaultReplicatedJob (.single "w" 2)) List.mem_cons_self 1 (by decide)
    have hindex := hof.index
    rw [List.mem_singleton.mp hjob] at hindex
    revert hindex
    decide +kernel

end JobSetOperator.Convergence
