import JobSetOperator.Controller.StartupOrder
import JobSetOperator.Library.Tables

/-!
# The counts do not depend on the order of the Jobs

`calculateReplicatedJobStatuses` counts into a Go map and lists the rows of the map
in whatever order Go visits them. The counts themselves are sums over the Jobs, and
`updateReplicatedJobsStatuses` compares and stores the rows sorted by name. So the
stored list is a function of the set of Jobs, and a second run finds nothing to do.
-/
namespace JobSetOperator

open Library

/-! ## The map of counters -/

/-- The counters of one ReplicatedJob. -/
structure JobCounts where
  ready : ℕ
  succeeded : ℕ
  failed : ℕ
  active : ℕ
  suspended : ℕ
  deriving DecidableEq, Repr

def JobCounts.zero : JobCounts := ⟨0, 0, 0, 0, 0⟩

/-- An active Job is counted for what its status says, none of which excludes another. -/
def countActive (job : Job) (c : JobCounts) : JobCounts :=
  { c with
    ready := if jobReady job then c.ready + 1 else c.ready
    active := if job.status.active > 0 then c.active + 1 else c.active
    suspended := if jobSuspended job then c.suspended + 1 else c.suspended }

def countSucceeded (_ : Job) (c : JobCounts) : JobCounts := { c with succeeded := c.succeeded + 1 }

def countFailed (_ : Job) (c : JobCounts) : JobCounts := { c with failed := c.failed + 1 }

/-- The row a Job is counted in; a Job without the label is logged and skipped. -/
def countedAs (job : Job) : Option String :=
  let replicatedJobName := job.labels.get replicatedJobNameKey
  if replicatedJobName = "" then none else some replicatedJobName

/-- `replicatedJobsReady`: the map after the three loops of
`calculateReplicatedJobStatuses`, its rows in an order of our own. -/
def replicatedJobsReady (js : JobSet) (jobs : ChildJobs) : List (String × JobCounts) :=
  tally countedAs countFailed jobs.failed
    (tally countedAs countSucceeded jobs.successful
      (tally countedAs countActive jobs.active
        ((replicatedJobNames js).map fun name => (name, JobCounts.zero))))

/-- What the last loop of `calculateReplicatedJobStatuses` makes of a row. -/
def statusOfRow (gates : FeatureGates) (js : JobSet) (row : String × JobCounts) :
    ReplicatedJobStatus :=
  let existing := findReplicatedJobStatus js.status.replicatedJobsStatus row.1
  { name := row.1
    ready := row.2.ready
    succeeded := row.2.succeeded
    failed := row.2.failed
    active := row.2.active
    suspended := row.2.suspended
    jobRestarts := if gates.restartJob then (existing.map (·.jobRestarts)).getD [] else []
    jobRestartsCountTowardsMax :=
      if gates.restartJob then (existing.map (·.jobRestartsCountTowardsMax)).getD [] else [] }

/-- Both functions, one after the other. Go visits the rows of the map in the order `visited`. -/
def recordStatuses (gates : FeatureGates) (visited : List (String × JobCounts)) (js : JobSet) :
    Pass :=
  updateReplicatedJobsStatuses (visited.map (statusOfRow gates js)) (.start js)

theorem foldl_countActive (l : List Job) (c : JobCounts) :
    l.foldl (fun s job => countActive job s) c = { c with
      ready := c.ready + (l.filter jobReady).length
      active := c.active + (l.filter fun job => job.status.active > 0).length
      suspended := c.suspended + (l.filter jobSuspended).length } := by
  induction l generalizing c with
  | nil => rfl
  | cons job rest ih =>
    rw [List.foldl_cons, ih]
    have hlength (f : Job → Bool) : ((job :: rest).filter f).length =
        (if f job then 1 else 0) + (rest.filter f).length := by
      by_cases h : f job <;> simp [h, Nat.add_comm]
    simp only [hlength, countActive, decide_eq_true_eq, JobCounts.mk.injEq, true_and]
    refine ⟨?_, ?_, ?_⟩ <;> split_ifs <;> omega

theorem foldl_countSucceeded (l : List Job) (c : JobCounts) :
    l.foldl (fun s job => countSucceeded job s) c =
      { c with succeeded := c.succeeded + l.length } := by
  induction l generalizing c with
  | nil => rfl
  | cons job rest ih =>
    rw [List.foldl_cons, ih]
    simp only [countSucceeded, List.length_cons, JobCounts.mk.injEq, and_self, and_true, true_and]
    omega

theorem foldl_countFailed (l : List Job) (c : JobCounts) :
    l.foldl (fun s job => countFailed job s) c = { c with failed := c.failed + l.length } := by
  induction l generalizing c with
  | nil => rfl
  | cons job rest ih =>
    rw [List.foldl_cons, ih]
    simp only [countFailed, List.length_cons, JobCounts.mk.injEq, and_self, and_true, true_and]
    omega

theorem filter_countedAs (name : String) (jobs : List Job) :
    jobs.filter (fun job => countedAs job = some name) = ofReplicatedJob name jobs := by
  unfold ofReplicatedJob
  refine List.filter_congr fun job _ => decide_eq_decide.mpr ?_
  unfold countedAs
  dsimp only
  split_ifs with hempty
  · constructor
    · intro h
      cases h
    · rintro ⟨hname, hlabel⟩
      exact absurd (hlabel.symm.trans hempty) hname
  · rw [Option.some.injEq]
    constructor
    · intro h
      exact ⟨by rw [← h]; exact hempty, h⟩
    · rintro ⟨-, h⟩
      exact h

/-- The loops over the map compute the counts. -/
theorem replicatedJobsReady_statuses (gates : FeatureGates) (js : JobSet) (jobs : ChildJobs) :
    (replicatedJobsReady js jobs).map (statusOfRow gates js) =
      calculateReplicatedJobStatuses gates js jobs := by
  unfold replicatedJobsReady calculateReplicatedJobStatuses
  simp only [tally_eq_map, List.map_map]
  refine List.map_congr_left fun name _ => ?_
  simp only [Function.comp, filter_countedAs, foldl_countActive, foldl_countSucceeded,
    foldl_countFailed]
  simp [statusOfRow, replicatedJobStatus, JobCounts.zero]

/-! ## Sorting by name -/

/-- With distinct names the sorted list forgets the order. -/
theorem sortStatuses_congr {l l' : List ReplicatedJobStatus} (hn : (l.map (·.name)).Nodup)
    (h : l'.Perm l) : sortStatuses l' = sortStatuses l := by
  have hperm : (sortStatuses l').Perm (sortStatuses l) :=
    (sortStatuses_perm l').trans (h.trans (sortStatuses_perm l).symm)
  refine hperm.eq_of_pairwise ?_ (sortStatuses_pairwise l') (sortStatuses_pairwise l)
  intro a b ha hb hba hab
  have ha' : a ∈ l := h.subset ((sortStatuses_perm l').subset ha)
  have hb' : b ∈ l := (sortStatuses_perm l).subset hb
  exact eq_of_key hn ha' hb' (String.le_antisymm hab hba)

theorem perm_of_sortStatuses {l l' : List ReplicatedJobStatus}
    (h : sortStatuses l = sortStatuses l') : l.Perm l' := by
  refine (sortStatuses_perm l).symm.trans ?_
  rw [h]
  exact sortStatuses_perm l'

/-! ## The order of the Jobs -/

/-- The same Jobs, each bucket in an order of its own. -/
def ChildJobs.Same (c c' : ChildJobs) : Prop := ∀ b, (c.jobs b).Perm (c'.jobs b)

/-- A bucket is the part of the list that belongs there. -/
theorem getChildJobs_filter {gates : FeatureGates} {js : JobSet} {jobs : List Job}
    {owned : ChildJobs} (h : getChildJobs gates js jobs = .ok owned) (b : Bucket) :
    owned.jobs b = jobs.filter fun job => classifyJob gates js job = .ok b := by
  induction jobs generalizing owned with
  | nil =>
    cases h
    cases b <;> rfl
  | cons first rest ih =>
    obtain ⟨bucket, hbucket, h⟩ := except_bind_ok h
    obtain ⟨others, hothers, h⟩ := except_bind_ok h
    cases h
    rw [List.filter_cons, ← ih hothers, hbucket]
    cases bucket <;> cases b <;> simp [ChildJobs.add, ChildJobs.jobs]

theorem getChildJobs_of_classified {gates : FeatureGates} {js : JobSet} {jobs : List Job}
    (h : ∀ job ∈ jobs, ∃ b, classifyJob gates js job = .ok b) :
    ∃ owned, getChildJobs gates js jobs = .ok owned := by
  induction jobs with
  | nil => exact ⟨.empty, rfl⟩
  | cons first rest ih =>
    obtain ⟨bucket, hbucket⟩ := h first List.mem_cons_self
    obtain ⟨others, hothers⟩ := ih fun job hjob => h job (List.mem_cons_of_mem _ hjob)
    exact ⟨others.add first bucket, by simp [getChildJobs, hbucket, hothers, Bind.bind,
      Except.bind, pure, Except.pure]⟩

/-- The order in which the cache lists the Jobs decides the order in the buckets only. -/
theorem getChildJobs_same {gates : FeatureGates} {js : JobSet} {jobs jobs' : List Job}
    {owned : ChildJobs} (h : getChildJobs gates js jobs = .ok owned) (hjobs : jobs'.Perm jobs) :
    ∃ owned', getChildJobs gates js jobs' = .ok owned' ∧ owned'.Same owned := by
  obtain ⟨owned', howned'⟩ := getChildJobs_of_classified fun job hjob =>
    getChildJobs_classified h (hjobs.subset hjob)
  refine ⟨owned', howned', fun b => ?_⟩
  rw [getChildJobs_filter h, getChildJobs_filter howned']
  exact hjobs.filter _

/-- Every count is a number of Jobs. -/
theorem ChildJobs.Same.status {owned owned' : ChildJobs} (h : owned'.Same owned)
    (gates : FeatureGates) (js : JobSet) (name : String) :
    replicatedJobStatus gates js owned' name = replicatedJobStatus gates js owned name := by
  have hactive : (ofReplicatedJob name owned'.active).Perm (ofReplicatedJob name owned.active) :=
    (h .active).filter _
  have hsucceeded : (ofReplicatedJob name owned'.successful).length =
      (ofReplicatedJob name owned.successful).length := ((h .successful).filter _).length_eq
  have hfailed : (ofReplicatedJob name owned'.failed).length =
      (ofReplicatedJob name owned.failed).length := ((h .failed).filter _).length_eq
  unfold replicatedJobStatus
  dsimp only
  rw [hsucceeded, hfailed, (hactive.filter jobReady).length_eq,
    (hactive.filter fun job => job.status.active > 0).length_eq,
    (hactive.filter jobSuspended).length_eq]

theorem ChildJobs.Same.calculated {owned owned' : ChildJobs} (h : owned'.Same owned)
    (gates : FeatureGates) (js : JobSet) :
    calculateReplicatedJobStatuses gates js owned' =
      calculateReplicatedJobStatuses gates js owned :=
  List.map_congr_left fun name _ => h.status gates js name

/-- Neither order is seen by the pass that goes on. -/
theorem recordStatuses_eq (gates : FeatureGates) (js : JobSet) {owned owned' : ChildJobs}
    (h : owned'.Same owned) {visited : List (String × JobCounts)}
    (hvisited : visited.Perm (replicatedJobsReady js owned')) :
    recordStatuses gates visited js =
      updateReplicatedJobsStatuses (calculateReplicatedJobStatuses gates js owned) (.start js) := by
  have hperm : (visited.map (statusOfRow gates js)).Perm
      (calculateReplicatedJobStatuses gates js owned) := by
    rw [← h.calculated, ← replicatedJobsReady_statuses]
    exact hvisited.map _
  unfold recordStatuses updateReplicatedJobsStatuses
  rw [sortStatuses_congr (calculated_nodup gates js owned) hperm]

/-! ## What is stored -/

/-- The JobSet after both functions. -/
def JobSet.withCounts (js : JobSet) (gates : FeatureGates) (owned : ChildJobs) : JobSet :=
  { js with status := { js.status with
    replicatedJobsStatus := sortStatuses (calculateReplicatedJobStatuses gates js owned) } }

theorem recordStatuses_js (gates : FeatureGates) (js : JobSet) (owned : ChildJobs) :
    (updateReplicatedJobsStatuses (calculateReplicatedJobStatuses gates js owned)
      (.start js)).js = js.withCounts gates owned := by
  unfold updateReplicatedJobsStatuses
  dsimp only
  split_ifs <;> rfl

theorem recordStatuses_shouldUpdate (gates : FeatureGates) (js : JobSet) (owned : ChildJobs) :
    (updateReplicatedJobsStatuses (calculateReplicatedJobStatuses gates js owned)
      (.start js)).opts.shouldUpdate = false ↔
    sortStatuses js.status.replicatedJobsStatus =
      sortStatuses (calculateReplicatedJobStatuses gates js owned) := by
  unfold updateReplicatedJobsStatuses
  dsimp only [Pass.start]
  split_ifs with h <;> simp [h]

theorem withCounts_mem {gates : FeatureGates} {js : JobSet} {owned : ChildJobs}
    {rjs : ReplicatedJobStatus} :
    rjs ∈ (js.withCounts gates owned).status.replicatedJobsStatus ↔
      ∃ name ∈ js.jobNames, rjs = replicatedJobStatus gates js owned name := by
  rw [JobSet.withCounts, (sortStatuses_perm _).mem_iff, calculateReplicatedJobStatuses,
    List.mem_map]
  simp only [replicatedJobNames, List.mem_dedup, JobSet.jobNames, eq_comm]

theorem withCounts_names (gates : FeatureGates) (js : JobSet) (owned : ChildJobs) :
    ((js.withCounts gates owned).status.replicatedJobsStatus.map (·.name)).Perm
      (replicatedJobNames js) := by
  have hnames : (calculateReplicatedJobStatuses gates js owned).map (·.name) =
      replicatedJobNames js := by
    unfold calculateReplicatedJobStatuses
    rw [List.map_map]
    exact List.map_id _
  rw [← hnames]
  exact (sortStatuses_perm _).map _

theorem withCounts_find (gates : FeatureGates) {js : JobSet} (owned : ChildJobs) {name : String}
    (hname : name ∈ js.jobNames) :
    findReplicatedJobStatus (js.withCounts gates owned).status.replicatedJobsStatus name =
      some (replicatedJobStatus gates js owned name) := by
  have hnodup := (withCounts_names gates js owned).nodup_iff.mpr (List.nodup_dedup _)
  exact find?_of_nodup hnodup (withCounts_mem.mpr ⟨name, hname, rfl⟩)

/-- The stored entries carry the restart lists on, so a second count finds the same. -/
theorem withCounts_calculated (gates : FeatureGates) (js : JobSet) (owned : ChildJobs) :
    calculateReplicatedJobStatuses gates (js.withCounts gates owned) owned =
      calculateReplicatedJobStatuses gates js owned := by
  refine List.map_congr_left fun name hname => ?_
  have hspec : name ∈ js.jobNames := List.mem_dedup.mp hname
  have hfind := withCounts_find gates owned hspec
  unfold replicatedJobStatus at hfind ⊢
  dsimp only at hfind ⊢
  rw [hfind]
  cases gates.restartJob <;> rfl

/-- A count right after the counts were stored, or were found to be stored, asks for no update. -/
theorem rerun_shouldUpdate {gates : FeatureGates} {js saved : JobSet} {owned : ChildJobs}
    (hsaved : saved = js.withCounts gates owned ∨ saved = js ∧
      sortStatuses js.status.replicatedJobsStatus =
        sortStatuses (calculateReplicatedJobStatuses gates js owned)) :
    (updateReplicatedJobsStatuses (calculateReplicatedJobStatuses gates saved owned)
      (.start saved)).opts.shouldUpdate = false := by
  rw [recordStatuses_shouldUpdate]
  rcases hsaved with rfl | ⟨rfl, hequal⟩
  · rw [withCounts_calculated]
    exact sortStatuses_congr (calculated_nodup gates js owned) (sortStatuses_perm _)
  · exact hequal

/-! ## Counting again after the update -/

theorem withCounts_getJobRestarts {gates : FeatureGates} (hgate : gates.restartJob = true)
    {js : JobSet} (owned : ChildJobs) {name : String} (hname : name ∈ js.jobNames) :
    getJobRestarts (js.withCounts gates owned) name = getJobRestarts js name := by
  unfold getJobRestarts
  rw [withCounts_find gates owned hname]
  unfold replicatedJobStatus
  dsimp only
  rw [if_pos hgate]
  cases findReplicatedJobStatus js.status.replicatedJobsStatus name <;> rfl

theorem withCounts_classifyJob (gates : FeatureGates) {js : JobSet} (owned : ChildJobs) {job : Job}
    (hjob : ∀ name, job.labels.lookup replicatedJobNameKey = some name → name ∈ js.jobNames) :
    classifyJob gates (js.withCounts gates owned) job = classifyJob gates js job := by
  cases hgate : gates.restartJob with
  | false => simp only [classifyJob, hgate, JobSet.withCounts, Bool.false_eq_true, if_false]
  | true =>
    have houtdated : outdatedIndividually (js.withCounts gates owned) job =
        outdatedIndividually js job := by
      unfold outdatedIndividually
      cases hname : requireLabel job replicatedJobNameKey with
      | error e => rfl
      | ok name =>
        have hrestarts := withCounts_getJobRestarts hgate owned
          (hjob name (requireLabel_ok hname))
        simp only [Bind.bind, Except.bind, hrestarts]
    unfold classifyJob
    rw [houtdated]
    rfl

/-- The next attempt sorts the Jobs into the same buckets. -/
theorem withCounts_getChildJobs {gates : FeatureGates} {js : JobSet} (owned : ChildJobs)
    {jobs : List Job} (hjobs : ∀ job ∈ jobs, ∀ name,
      job.labels.lookup replicatedJobNameKey = some name → name ∈ js.jobNames) :
    getChildJobs gates (js.withCounts gates owned) jobs = getChildJobs gates js jobs := by
  induction jobs with
  | nil => rfl
  | cons first rest ih =>
    unfold getChildJobs
    rw [withCounts_classifyJob gates owned (hjobs first List.mem_cons_self),
      ih fun job hjob => hjobs job (List.mem_cons_of_mem _ hjob)]

/-! ## The counts are bounded by the Jobs of the attempt -/

instance (gates : FeatureGates) (js : JobSet) (job : Job) : Decidable (CurrentJob gates js job) :=
  decidable_of_iff ((restartLabel job).any (fun r => (js.status.restarts : ℤ) ≤ r) = true ∧
      (gates.restartJob = true → outdatedIndividually js job = .ok false)) (by
    simp [CurrentJob, Option.any_eq_true])

/-- The Jobs of the current attempt. -/
def currentJobs (gates : FeatureGates) (js : JobSet) (jobs : List Job) : List Job :=
  jobs.filter fun job => CurrentJob gates js job

/-- A Job is counted at most once as ready, succeeded or failed. -/
theorem counts_le {gates : FeatureGates} {js : JobSet} {jobs : List Job} {owned : ChildJobs}
    (hsorted : getChildJobs gates js jobs = .ok owned) (name : String) :
    (replicatedJobStatus gates js owned name).ready +
      (replicatedJobStatus gates js owned name).succeeded +
      (replicatedJobStatus gates js owned name).failed ≤
    (ofReplicatedJob name (currentJobs gates js jobs)).length := by
  let counted := (ofReplicatedJob name owned.active).filter jobReady ++
    ofReplicatedJob name owned.successful ++ ofReplicatedJob name owned.failed
  have hsub : counted.Sublist (ofReplicatedJob name
      (owned.active ++ owned.successful ++ owned.failed ++ owned.previous)) := by
    simp only [counted, ofReplicatedJob, List.filter_append]
    refine List.Sublist.trans ?_ (List.sublist_append_left _ _)
    exact (List.filter_sublist.append (List.Sublist.refl _)).append (List.Sublist.refl _)
  have hcurrent : ∀ job ∈ counted, CurrentJob gates js job := by
    intro job hjob
    simp only [counted, List.mem_append] at hjob
    rcases hjob with (hjob | hjob) | hjob
    · exact (@bucket_facts _ _ _ _ hsorted job .active
        (List.mem_of_mem_filter (List.mem_of_mem_filter hjob)) (by decide)).2.1
    · exact (@bucket_facts _ _ _ _ hsorted job .successful
        (List.mem_of_mem_filter hjob) (by decide)).2.1
    · exact (@bucket_facts _ _ _ _ hsorted job .failed
        (List.mem_of_mem_filter hjob) (by decide)).2.1
  have hsame : counted.filter (fun job => CurrentJob gates js job) = counted :=
    List.filter_eq_self.mpr fun job hjob => decide_eq_true (hcurrent job hjob)
  have hperm := ((getChildJobs_perm hsorted).filter fun job =>
    decide (CurrentJob gates js job)).filter fun job =>
      decide (name ≠ "" ∧ job.labels.get replicatedJobNameKey = name)
  have hlength : counted.length ≤ (ofReplicatedJob name (currentJobs gates js jobs)).length := by
    rw [← hsame]
    refine ((hsub.filter fun job => decide (CurrentJob gates js job)).length_le).trans ?_
    unfold ofReplicatedJob currentJobs
    rw [List.filter_comm, hperm.length_eq]
  refine le_trans (le_of_eq ?_) hlength
  simp only [counted, replicatedJobStatus, List.length_append]

/-- With distinct indexes they are bounded by the replicas. -/
theorem counts_le_replicas {gates : FeatureGates} {js : JobSet} (hnames : js.jobNames.Nodup)
    {jobs : List Job} (hjobs : ChildrenOk js (currentJobs gates js jobs)) {rjob : ReplicatedJob}
    (hrjob : rjob ∈ js.spec.replicatedJobs) :
    (ofReplicatedJob rjob.name (currentJobs gates js jobs)).length ≤ rjob.replicas :=
  hjobs.length_le hnames hrjob List.filter_sublist.subperm fun _ => ofReplicatedJob_label

/-! ## The stored list as a function of the set of Jobs -/

/-- The list stored by both functions is that of the set of Jobs: the order of the
cache, of the buckets and of the map does not matter. Without a request for an
update it is the list of before, up to its order. A second run on what is stored
requests no update, also when the Jobs are sorted into buckets again. Each entry
counts Jobs of the current attempt, each at most once, and carries on the restart
lists of its name. -/
theorem recordStatuses_stable (gates : FeatureGates) {js : JobSet} (hnames : js.jobNames.Nodup)
    {jobs : List Job} {owned : ChildJobs} (hsorted : getChildJobs gates js jobs = .ok owned)
    {visited : List (String × JobCounts)} (hvisited : visited.Perm (replicatedJobsReady js owned)) :
    let p := recordStatuses gates visited js
    (∀ jobs', jobs'.Perm jobs →
      ∃ owned', getChildJobs gates js jobs' = .ok owned' ∧ owned'.Same owned) ∧
    (∀ owned' visited', owned'.Same owned → visited'.Perm (replicatedJobsReady js owned') →
      recordStatuses gates visited' js = p) ∧
    (p.opts.shouldUpdate = false →
      p.js.status.replicatedJobsStatus.Perm js.status.replicatedJobsStatus) ∧
    (∀ saved, saved = p.js ∨ saved = js ∧ p.opts.shouldUpdate = false →
      ∀ owned' visited', owned'.Same owned → visited'.Perm (replicatedJobsReady saved owned') →
        (recordStatuses gates visited' saved).opts.shouldUpdate = false) ∧
    ((∀ job ∈ jobs, ∀ name, job.labels.lookup replicatedJobNameKey = some name →
        name ∈ js.jobNames) → getChildJobs gates p.js jobs = .ok owned) ∧
    (p.js.status.replicatedJobsStatus.map (·.name)).Perm js.jobNames ∧
    ∀ rjs ∈ p.js.status.replicatedJobsStatus,
      rjs.ready + rjs.succeeded + rjs.failed ≤
        (ofReplicatedJob rjs.name (currentJobs gates js jobs)).length ∧
      (ChildrenOk js (currentJobs gates js jobs) →
        ∀ rjob ∈ js.spec.replicatedJobs, rjob.name = rjs.name →
          rjs.ready + rjs.succeeded + rjs.failed ≤ rjob.replicas) ∧
      (gates.restartJob = true →
        rjs.jobRestarts = ((findReplicatedJobStatus js.status.replicatedJobsStatus
          rjs.name).map (·.jobRestarts)).getD [] ∧
        rjs.jobRestartsCountTowardsMax =
          ((findReplicatedJobStatus js.status.replicatedJobsStatus
            rjs.name).map (·.jobRestartsCountTowardsMax)).getD []) := by
  have hrefl : owned.Same owned := fun b => List.Perm.refl _
  have hp := recordStatuses_eq gates js hrefl hvisited
  have hjs : (recordStatuses gates visited js).js = js.withCounts gates owned := by
    rw [hp, recordStatuses_js]
  dsimp only
  refine ⟨fun jobs' hjobs' => getChildJobs_same hsorted hjobs', ?_, ?_, ?_, ?_, ?_, ?_⟩
  · intro owned' visited' hsame hvisited'
    rw [hp, recordStatuses_eq gates js hsame hvisited']
  · intro hfalse
    rw [hp, recordStatuses_shouldUpdate] at hfalse
    rw [hjs]
    refine (sortStatuses_perm _).trans ?_
    exact (perm_of_sortStatuses hfalse).symm
  · intro saved hsaved owned' visited' hsame hvisited'
    rw [recordStatuses_eq gates saved hsame hvisited']
    rw [hjs, hp, recordStatuses_shouldUpdate] at hsaved
    exact rerun_shouldUpdate hsaved
  · intro hlabels
    rw [hjs, withCounts_getChildJobs owned hlabels]
    exact hsorted
  · rw [hjs]
    have hdedup : replicatedJobNames js = js.jobNames := List.dedup_eq_self.mpr hnames
    rw [← hdedup]
    exact withCounts_names gates js owned
  · intro rjs hrjs
    rw [hjs, withCounts_mem] at hrjs
    obtain ⟨name, -, rfl⟩ := hrjs
    refine ⟨counts_le hsorted name, ?_, ?_⟩
    · rintro hjobs rjob hrjob (rfl : rjob.name = name)
      exact (counts_le hsorted rjob.name).trans (counts_le_replicas hnames hjobs hrjob)
    · intro hgate
      unfold replicatedJobStatus
      dsimp only
      rw [if_pos hgate, if_pos hgate]
      exact ⟨rfl, rfl⟩

/-- A JobSet whose second Job of `a` was restarted once. -/
def countedSet : JobSet :=
  let js := plainSet [.single "a" 2, .single "b" 1] 1 .recreate
  { js with status := { js.status with
    replicatedJobsStatus := [⟨"a", 0, 0, 0, 0, 0, [0, 1], [0, 1]⟩, ⟨"b", 0, 0, 0, 0, 0, [], []⟩] } }

/-- One Job is ready, one is of the attempt before its restart, one has succeeded. -/
def countedJobs : List Job :=
  [Job.child "js" "a" "0" ⟨[], 1, some 1, 0, none⟩,
    Job.child "js" "a" "1" ⟨[], 1, some 1, 0, none⟩,
    Job.child "js" "b" "0" ⟨[⟨.jobComplete, .conditionTrue, "", "", 0⟩], 0, none, 1, none⟩]

/-- The buckets of `countedJobs`. -/
def countedBuckets : ChildJobs :=
  ⟨countedJobs.take 1, countedJobs.drop 2, [], (countedJobs.drop 1).take 1⟩

theorem childrenOk_countedJobs :
    ChildrenOk countedSet (currentJobs restartJobGates countedSet countedJobs) := by
  have hcurrent : currentJobs restartJobGates countedSet countedJobs =
      countedJobs.take 1 ++ countedJobs.drop 2 := by decide +kernel
  rw [hcurrent]
  refine ⟨fun job hjob => ?_, ?_⟩
  · rcases List.mem_cons.mp hjob with rfl | hjob
    · exact ⟨.single "a" 2, by decide, 0, by decide, by decide +kernel, by decide +kernel⟩
    · rw [List.mem_singleton.mp hjob]
      exact ⟨.single "b" 1, by decide, 0, by decide, by decide +kernel, by decide +kernel⟩
  · refine List.pairwise_pair.mpr ?_
    decide +kernel

/-- The map is visited backwards, and then forwards. -/
theorem recordStatuses_stable_counted :
    getChildJobs restartJobGates countedSet countedJobs = .ok countedBuckets ∧
    (recordStatuses restartJobGates (replicatedJobsReady countedSet countedBuckets).reverse
      countedSet).js.status.replicatedJobsStatus =
        [⟨"b", 0, 1, 0, 0, 0, [], []⟩, ⟨"a", 1, 0, 0, 1, 0, [0, 1], [0, 1]⟩] ∧
    recordStatuses restartJobGates (replicatedJobsReady countedSet countedBuckets) countedSet =
      recordStatuses restartJobGates (replicatedJobsReady countedSet countedBuckets).reverse
        countedSet ∧
    ∀ rjs ∈ (recordStatuses restartJobGates (replicatedJobsReady countedSet
        countedBuckets).reverse countedSet).js.status.replicatedJobsStatus,
      ∀ rjob ∈ countedSet.spec.replicatedJobs, rjob.name = rjs.name →
        rjs.ready + rjs.succeeded + rjs.failed ≤ rjob.replicas := by
  have hsorted : getChildJobs restartJobGates countedSet countedJobs = .ok countedBuckets := by
    rfl
  obtain ⟨-, horder, -, -, -, -, hentries⟩ :=
    recordStatuses_stable restartJobGates (by decide) hsorted
      (replicatedJobsReady countedSet countedBuckets).reverse_perm
  refine ⟨hsorted, by decide +kernel, ?_, fun rjs hrjs => ?_⟩
  · exact horder countedBuckets _ (fun _ => List.Perm.refl _) (List.Perm.refl _)
  · exact (hentries rjs hrjs).2.1 childrenOk_countedJobs

end JobSetOperator
