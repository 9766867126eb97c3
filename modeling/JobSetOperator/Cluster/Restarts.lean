import JobSetOperator.Cluster.Budget

/-!
# Failures are counted once

A restart counter is raised only by a failure that the labels of the failed Job
tie to the value of the counter. A new Job carries the counters its reconcile has
read, so no label is ahead of the persisted counters; a Job outside the bucket of
previous Jobs is not behind them. At the moment of a write, which is checked
against the version that was read, both bounds meet.
-/
namespace JobSetOperator

open Library

/-! ## The counters of the ReplicatedJobs -/

/-- A list that has not been written counts as zeros. -/
theorem individualCounter_eq (js : JobSet) (name : String) (index : ℕ) :
    individualCounter js name index =
      (((findReplicatedJobStatus js.status.replicatedJobsStatus name).map
        (·.jobRestarts)).getD []).getD index 0 := by
  unfold individualCounter
  cases hf : findReplicatedJobStatus js.status.replicatedJobsStatus name with
  | none =>
    unfold getJobRestarts
    rw [hf]
    by_cases hi : index < getReplicatedJobReplicas js name <;> simp [List.getD, hi]
  | some rjs =>
    rw [getJobRestarts_of_find hf, filled_getD]
    rfl

/-- The new counts have one entry for each ReplicatedJob. -/
theorem entry_find (env : Env) (js : JobSet) (owned : ChildJobs) {name : String}
    (hname : name ∈ js.jobNames) :
    findReplicatedJobStatus (entryPass env js owned).js.status.replicatedJobsStatus name =
      some (replicatedJobStatus env.gates js owned name) := by
  have hperm : ((entryPass env js owned).js.status.replicatedJobsStatus).Perm
      (calculateReplicatedJobStatuses env.gates js owned) := by
    rw [entryPass_js]
    exact List.perm_insertionSort _ _
  have hnodup : ((entryPass env js owned).js.status.replicatedJobsStatus.map (·.name)).Nodup := by
    rw [(hperm.map _).nodup_iff]
    exact calculated_nodup env.gates js owned
  have hmem : replicatedJobStatus env.gates js owned name ∈
      (entryPass env js owned).js.status.replicatedJobsStatus := by
    rw [hperm.mem_iff]
    exact calculated_mem env.gates owned hname
  exact Library.find?_of_nodup hnodup hmem

section Entry

variable {env : Env} {js : JobSet} {owned : ChildJobs}

theorem entry_individualCounter (hgate : env.gates.restartJob = true) {name : String}
    (hname : name ∈ js.jobNames) (index : ℕ) :
    individualCounter (entryPass env js owned).js name index = individualCounter js name index := by
  rw [individualCounter_eq, individualCounter_eq, entry_find env js owned hname]
  simp [replicatedJobStatus, hgate]

/-- Without the gate the lists are dropped. -/
theorem entry_individualCounter_zero (hgate : env.gates.restartJob = false) (name : String)
    (index : ℕ) : individualCounter (entryPass env js owned).js name index = 0 := by
  rw [individualCounter_eq]
  cases hf : findReplicatedJobStatus
      (entryPass env js owned).js.status.replicatedJobsStatus name with
  | none => simp
  | some rjs =>
    obtain ⟨hmem, -⟩ := find_mem hf
    rw [entryPass_js] at hmem
    have hmem' : rjs ∈ calculateReplicatedJobStatuses env.gates js owned :=
      (List.perm_insertionSort _ _).mem_iff.mp hmem
    obtain ⟨n, -, rfl⟩ := List.mem_map.mp hmem'
    simp [replicatedJobStatus, hgate]

end Entry

/-! ## Counters under a write -/

/-- Both versions have the same restart counters. -/
structure SameCounters (names : List String) (a b : JobSet) : Prop where
  restarts : b.status.restarts = a.status.restarts
  individual : ∀ name ∈ names, ∀ index,
    individualCounter b name index = individualCounter a name index

theorem SameCounters.symm {names : List String} {a b : JobSet} (h : SameCounters names a b) :
    SameCounters names b a :=
  ⟨h.restarts.symm, fun n hn i => (h.individual n hn i).symm⟩

theorem SameCounters.trans {names : List String} {a b c : JobSet} (h₁ : SameCounters names a b)
    (h₂ : SameCounters names b c) : SameCounters names a c :=
  ⟨h₂.restarts.trans h₁.restarts,
    fun n hn i => (h₂.individual n hn i).trans (h₁.individual n hn i)⟩

/-- One counter is raised by one: the counter of the JobSet or, with the RestartJob
gate, the one of the index of `job`. -/
def Increment (gates : FeatureGates) (names : List String) (job : Job) (a b : JobSet) : Prop :=
  (b.status.restarts = a.status.restarts + 1 ∧ ∀ name ∈ names, ∀ index,
    individualCounter b name index = individualCounter a name index) ∨
  (gates.restartJob = true ∧ b.status.restarts = a.status.restarts ∧
    ∃ (name : String) (index : ℕ), job.labels.lookup replicatedJobNameKey = some name ∧ jobIndexLabel job = some (index : ℤ) ∧
    ∀ n ∈ names, ∀ i, individualCounter b n i =
      individualCounter a n i + if n = name ∧ i = index then 1 else 0)

theorem SameCounters.increment {gates : FeatureGates} {names : List String} {job : Job}
    {a b c : JobSet} (h₁ : SameCounters names a b) (h₂ : Increment gates names job b c) :
    Increment gates names job a c := by
  rcases h₂ with ⟨hr, hi⟩ | ⟨hg, hr, name, index, hname, hindex, hi⟩
  · exact Or.inl ⟨h₁.restarts ▸ hr, fun n hn i => (hi n hn i).trans (h₁.individual n hn i)⟩
  · refine Or.inr ⟨hg, hr.trans h₁.restarts, name, index, hname, hindex, fun n hn i => ?_⟩
    rw [hi n hn i, h₁.individual n hn i]

/-- Equal lists and equal restarts are equal counters. -/
theorem sameCounters_of_statuses {names : List String} {a b : JobSet}
    (hr : b.status.restarts = a.status.restarts)
    (hs : b.status.replicatedJobsStatus = a.status.replicatedJobsStatus) :
    SameCounters names a b := by
  refine ⟨hr, fun n _ i => ?_⟩
  rw [individualCounter_eq, individualCounter_eq, hs]

/-- The individual counters are zero when nothing may count them. -/
def IndividualOk (gates : FeatureGates) (js : JobSet) : Prop :=
  gates.restartJob = false → ∀ name index, individualCounter js name index = 0

theorem sameCounters_entry {env : Env} {js : JobSet} (hjs : IndividualOk env.gates js)
    (owned : ChildJobs) : SameCounters js.jobNames js (entryPass env js owned).js := by
  refine ⟨by rw [entryPass_js], fun name hname index => ?_⟩
  cases hgate : env.gates.restartJob with
  | true => exact entry_individualCounter hgate hname index
  | false => rw [hjs hgate, entry_individualCounter_zero hgate]

theorem RestartsJob.increment {env : Env} {owned : ChildJobs} {job : Job} {a b : JobSet}
    (h : RestartsJob env owned job a b) {names : List String}
    (hnames : ∀ n ∈ names,
      (findReplicatedJobStatus a.status.replicatedJobsStatus n).isSome = true) :
    Increment env.gates names job a b := by
  obtain ⟨name, index, hname, hindex, total, counts, hlt, rfl, hstatuses⟩ := h.raised
  refine Or.inr ⟨h.gate, h.restarts, name, index, hname, hindex, fun n hn i => ?_⟩
  -- whether or not the restart counts, the entry of the name gets the raised list
  have hfind : ((findReplicatedJobStatus b.status.replicatedJobsStatus n).map (·.jobRestarts)) =
      (findReplicatedJobStatus a.status.replicatedJobsStatus n).map fun rjs =>
        if n = name then (getJobRestarts a name).modify index (· + 1) else rjs.jobRestarts := by
    rcases hstatuses with hs | ⟨_, _, _, _, _, hs⟩
    · rw [hs, find_updateStatusOf, Option.map_map]
      · congr 1
        funext rjs
        dsimp only [Function.comp]
        split_ifs <;> rfl
      · exact fun _ => rfl
    · rw [hs, find_updateStatusOf, Option.map_map]
      · congr 1
        funext rjs
        dsimp only [Function.comp]
        split_ifs <;> rfl
      · exact fun _ => rfl
  rw [individualCounter_eq b, hfind, individualCounter_eq a]
  cases hf : findReplicatedJobStatus a.status.replicatedJobsStatus n with
  | none =>
    have hsome := hnames n hn
    simp [hf] at hsome
  | some rjs =>
    by_cases hname' : n = name
    · subst hname'
      have hget := modify_getD (getJobRestarts a n) hlt i
      have hfill : (getJobRestarts a n).getD i 0 = rjs.jobRestarts.getD i 0 := by
        rw [getJobRestarts_of_find hf, filled_getD]
      simp only [Option.map_some, Option.getD_some, if_true, true_and]
      rw [hget, hfill]
    · simp [hname']

/-- A status write keeps the counters or raises one of them, because of a failed
Job of the snapshot. -/
theorem Writes.counters {env : Env} {js js' : JobSet} {jobs : List Job} {s : Seen}
    (h : Writes env js jobs s js') (hjs : IndividualOk env.gates js) :
    SameCounters js.jobNames js js' ∨
    (s.acked = none ∧ ∃ owned job, Live env js jobs owned ∧
      failureCause env.platform js owned.failed = some job ∧
      Increment env.gates js.jobNames job js js') := by
  obtain ⟨owned, hlive, ho⟩ := h.outcome
  have hentry := sameCounters_entry hjs owned
  have hcause : ∀ failed, failureCause env.platform (entryPass env js owned).js failed =
      failureCause env.platform js failed := by
    intro failed
    rw [entryPass_js]
    rfl
  cases ho with
  | finished hf first => exact Or.inl hentry
  | harmless hf e => exact Or.inl (hentry.trans (sameCounters_of_statuses e.restarts e.statuses))
  | ends hf e => exact Or.inl (hentry.trans (sameCounters_of_statuses e.restarts e.statuses))
  | restartsAll hf first e =>
    refine Or.inr ⟨first, owned, _, hlive, (hcause _).symm.trans e.cause,
      hentry.increment (Or.inl ⟨e.restarts, fun n hn i => ?_⟩)⟩
    rw [individualCounter_eq, individualCounter_eq, e.statuses]
  | restartsJob hf first e =>
    refine Or.inr ⟨first, owned, _, hlive, (hcause _).symm.trans e.cause,
      hentry.increment (e.increment fun n hn => ?_)⟩
    rw [entry_find env js owned hn]
    rfl

/-- The version a write is based on has the counters the reconcile has read. -/
theorem Writes.baseCounters {env : Env} {js js' : JobSet} {jobs : List Job} {s : Seen}
    (h : Writes env js jobs s js') (hjs : IndividualOk env.gates js) :
    SameCounters js.jobNames js (s.acked.getD js) := by
  rcases h.base with hfirst | ⟨owned, x, -, hx, hharmless⟩
  · rw [hfirst]
    exact ⟨rfl, fun _ _ _ => rfl⟩
  · rw [hx]
    exact (sameCounters_entry hjs owned).trans
      (sameCounters_of_statuses hharmless.restarts hharmless.statuses)

theorem Writes.individualOk {env : Env} {js js' : JobSet} {jobs : List Job} {s : Seen}
    (h : Writes env js jobs s js') : IndividualOk env.gates js' := by
  intro hgate name index
  obtain ⟨owned, -, ho⟩ := h.outcome
  have hentry : individualCounter (entryPass env js owned).js name index = 0 :=
    entry_individualCounter_zero hgate name index
  have hstatuses : js'.status.replicatedJobsStatus =
      (entryPass env js owned).js.status.replicatedJobsStatus := by
    cases ho with
    | finished hf first => rfl
    | harmless hf e => exact e.statuses
    | ends hf e => exact e.statuses
    | restartsAll hf first e => exact e.statuses
    | restartsJob hf first e =>
      have hg := e.gate
      simp [hgate] at hg
  rw [individualCounter_eq, hstatuses, ← individualCounter_eq, hentry]

/-! ## Labels -/

/-- The labels of a Job name an index of a ReplicatedJob and no attempt beyond the counters. -/
def LabelsOk (gates : FeatureGates) (names : List String) (js : JobSet) (job : Job) : Prop :=
  ∃ name ∈ names, ∃ index restarts : ℕ,
    job.labels.lookup replicatedJobNameKey = some name ∧ jobIndexLabel job = some (index : ℤ) ∧
    restartLabel job = some (restarts : ℤ) ∧ restarts ≤ js.status.restarts ∧
    (gates.restartJob = true → ∃ n : ℕ, jobRestartLabel job = some (n : ℤ) ∧
      n ≤ individualCounter js name index)

/-- The counters have not gone down. -/
def CountersLe (names : List String) (a b : JobSet) : Prop :=
  a.status.restarts ≤ b.status.restarts ∧ ∀ name ∈ names, ∀ index,
    individualCounter a name index ≤ individualCounter b name index

theorem SameCounters.le {names : List String} {a b : JobSet} (h : SameCounters names a b) :
    CountersLe names a b :=
  ⟨h.restarts.ge, fun n hn i => (h.individual n hn i).ge⟩

theorem Increment.le {gates : FeatureGates} {names : List String} {job : Job} {a b : JobSet}
    (h : Increment gates names job a b) : CountersLe names a b := by
  rcases h with ⟨hr, hi⟩ | ⟨-, hr, name, index, -, -, hi⟩
  · exact ⟨by omega, fun n hn i => (hi n hn i).ge⟩
  · refine ⟨by omega, fun n hn i => ?_⟩
    rw [hi n hn i]
    omega

theorem LabelsOk.mono {gates : FeatureGates} {names : List String} {a b : JobSet} {job : Job}
    (h : LabelsOk gates names a job) (hle : CountersLe names a b) : LabelsOk gates names b job := by
  obtain ⟨name, hname, index, restarts, h₁, h₂, h₃, h₄, h₅⟩ := h
  refine ⟨name, hname, index, restarts, h₁, h₂, h₃, h₄.trans hle.1, fun hg => ?_⟩
  obtain ⟨n, hn, hnle⟩ := h₅ hg
  exact ⟨n, hn, hnle.trans (hle.2 name hname index)⟩

theorem LabelsOk.congr {gates : FeatureGates} {names : List String} {js : JobSet} {a b : Job}
    (h : LabelsOk gates names js a) (hl : b.labels = a.labels) : LabelsOk gates names js b := by
  unfold LabelsOk restartLabel jobRestartLabel jobIndexLabel at h ⊢
  rw [hl]
  exact h

theorem Running.counters {env : Env} {js : JobSet} {jobs : List Job} {s : Seen} {owned : ChildJobs}
    {active : List Job} {p q : Pass} (h : Running env js jobs s owned active p q)
    (hjs : IndividualOk env.gates js) : SameCounters js.jobNames js q.js := by
  have hq := h.passed.harmless.trans h.attempts.harmless
  exact (sameCounters_entry hjs owned).trans (sameCounters_of_statuses hq.restarts hq.statuses)

/-- A new Job carries the counters its reconcile has read. -/
theorem Creates.labels {env : Env} {js : JobSet} {jobs : List Job} {s : Seen} {job : Job}
    (h : Creates env js jobs s job) (hjs : IndividualOk env.gates js) :
    LabelsOk env.gates js.jobNames js job ∧ restartLabel job = some (js.status.restarts : ℤ) := by
  obtain ⟨owned, active, p, q, rjob, created, hr, ⟨before, after, hsplit, -⟩, hc, hjob⟩ := h
  obtain ⟨index, -, hconstruct, -⟩ := constructJobsFromTemplate_mem hc hjob
  obtain ⟨h₁, h₂, h₃, h₄, -⟩ := constructJob_labels hconstruct
  have hsame := hr.counters hjs
  have hname : rjob.name ∈ js.jobNames := by
    unfold JobSet.jobNames
    rw [hsplit]
    simp
  have hrestart : restartLabel job = some (js.status.restarts : ℤ) := by
    unfold restartLabel StrMap.get
    rw [h₁, ← hsame.restarts]
    exact parseInt_itoa _
  have hindex : jobIndexLabel job = some (index : ℤ) := by
    unfold jobIndexLabel
    rw [h₃]
    exact parseInt_itoa _
  refine ⟨⟨rjob.name, hname, index, _, h₂, hindex, hrestart, le_rfl, fun hg => ?_⟩, hrestart⟩
  obtain ⟨n, hn, hlabel⟩ := h₄ hg
  obtain ⟨i, hi, -, hget⟩ := indexGo_ok hn
  obtain rfl : index = i := by omega
  refine ⟨n, ?_, ?_⟩
  · unfold jobRestartLabel
    rw [hlabel]
    exact parseInt_itoa _
  · rw [← hsame.individual rjob.name hname index]
    exact hget.ge

namespace Cluster

/-! ## Runs -/

/-- What the counting of failures relies on: the gates are fixed, the names of the
ReplicatedJobs are immutable, and only the controller creates child Jobs. -/
structure FixedGates (S : Setting) (gates : FeatureGates) : Prop where
  gates : ∀ env, S.allowed env → env.gates = gates
  names : ∀ a b, S.admits a b → b.jobNames = a.jobNames
  foreign : ∀ job, ¬ S.foreign job

section Counting

variable {S : Setting} {gates : FeatureGates} {js : JobSet} {w : World}

/-- The persisted counters never go down. -/
theorem reachable_counters (hS : FixedGates S gates) (hnew : js.status = .new)
    (h : Reachable S js w) :
    w.sets.All (fun a => a.jobNames = js.jobNames ∧ IndividualOk gates a) ∧
      w.sets.Ordered (CountersLe js.jobNames) := by
  have hstatus : ∀ {a b : JobSet}, b.status = a.status → SameCounters js.jobNames a b :=
    fun hs => sameCounters_of_statuses (by rw [hs]) (by rw [hs])
  have hindividual : ∀ {a b : JobSet}, b.status = a.status → IndividualOk gates a →
      IndividualOk gates b := by
    intro a b hs ha hg name index
    rw [individualCounter_eq, hs, ← individualCounter_eq]
    exact ha hg name index
  refine reachable_sets (fun a => ⟨le_rfl, fun _ _ _ => le_rfl⟩)
    (fun a b c h₁ h₂ => ⟨h₁.1.trans h₂.1, fun n hn i => (h₁.2 n hn i).trans (h₂.2 n hn i)⟩)
    ?_ ?_ ?_ ?_ h
  · intro a b hadmits hs ha
    exact ⟨⟨(hS.names a b hadmits).trans ha.1, hindividual hs ha.2⟩, (hstatus hs).le⟩
  · intro a t ha
    exact ⟨⟨ha.1, hindividual rfl ha.2⟩, (hstatus rfl).le⟩
  · intro env js₀ jobs s js' hallowed hread hbase hwrites
    have hgates := hS.gates env hallowed
    have hok : IndividualOk env.gates js₀ := hgates ▸ hread.2
    have hnames : js'.jobNames = js₀.jobNames := by rw [hwrites.frame]; rfl
    refine ⟨⟨hnames.trans hread.1, hgates ▸ hwrites.individualOk⟩, ?_⟩
    have hsame := hwrites.baseCounters hok
    rw [hread.1] at hsame
    rcases hwrites.counters hok with hc | ⟨hfirst, owned, job, -, -, hc⟩
    · rw [hread.1] at hc
      exact (hsame.symm.trans hc).le
    · rw [hread.1] at hc
      rw [hfirst]
      exact hc.le
  · refine ⟨rfl, fun _ name index => ?_⟩
    rw [individualCounter_eq, hnew]
    simp [JobSetStatus.new, findReplicatedJobStatus]

/-- The labels of every Job there has ever been are within the persisted counters. -/
theorem reachable_labels (hS : FixedGates S gates) (hnew : js.status = .new)
    (h : Reachable S js w) : ∀ k ≤ w.jobs.top, ∀ job ∈ w.jobs.entry k,
      LabelsOk gates js.jobNames w.sets.current job := by
  induction h with
  | refl => simp [World.initial]
  | @tail w w' hrun hstep ih =>
    have hinv := reachable_inv hrun
    have hmove := step_move hinv hstep
    have hsets := History.grows_of_push hmove.sets
    have hcounters := (reachable_counters hS hnew (hrun.tail hstep)).2
    have hle : CountersLe js.jobNames w.sets.current w'.sets.current := by
      have := hcounters w.sets.top w'.sets.top hsets.1 le_rfl
      rwa [hsets.2 _ le_rfl] at this
    have hold : ∀ k ≤ w.jobs.top, ∀ job ∈ w.jobs.entry k,
        LabelsOk gates js.jobNames w'.sets.current job := fun k hk job hjob =>
      (ih k hk job hjob).mono hle
    intro k hk job hjob
    rcases hmove.jobs with hsame | ⟨l, hpush⟩
    · rw [hsame] at hk hjob
      exact hold k hk job hjob
    · rw [hpush] at hk hjob
      rcases w.jobs.push_entry_cases l hk with ⟨hk', he⟩ | ⟨-, he⟩
      · rw [he] at hjob
        exact hold k hk' job hjob
      · have hcurrent : job ∈ w'.jobs.current := by
          rw [hpush, History.push_current]
          rwa [he] at hjob
        rcases hmove.origin hcurrent with ⟨a, ha, hs⟩ | ⟨a, created, busy, hc, rfl, -⟩ |
          ⟨_, hforeign, -⟩
        · exact (hold _ le_rfl a ha).congr hs.labels
        · have hread := hinv.attempt a busy
          obtain ⟨hall, hordered⟩ := reachable_counters hS hnew hrun
          obtain ⟨hnames, hok⟩ := hall _ hinv.seenSets
          have hgates := hS.gates a.env hread.allowed
          have hlabels : LabelsOk gates js.jobNames (w.sets.entry w.seenSets) created := by
            rw [← hread.js] at hnames hok ⊢
            rw [← hnames, ← hgates]
            exact (hc.labels (hgates ▸ hok)).1
          have hread' := hordered.le_current hinv.seenSets
          exact ((hlabels.mono hread').mono hle).congr rfl
        · exact absurd hforeign (hS.foreign _)

/-- The failed Job because of which the author of version `v + 1` restarts. -/
def Caused (w : World) (v : ℕ) (job : Job) : Prop :=
  ∃ reading owned, w.authors (v + 1) = some reading ∧
    getChildJobs reading.env.gates reading.js reading.jobs = .ok owned ∧
    failureCause reading.env.platform reading.js owned.failed = some job

theorem Caused.unique {v : ℕ} {job job' : Job} (h : Caused w v job) (h' : Caused w v job') :
    job = job' := by
  obtain ⟨r, owned, ha, ho, hc⟩ := h
  obtain ⟨r', owned', ha', ho', hc'⟩ := h'
  obtain rfl : r = r' := Option.some.inj (ha.symm.trans ha')
  obtain rfl : owned = owned' := by
    have := ho.symm.trans ho'
    simpa using this
  exact Option.some.inj (hc.symm.trans hc')

/-- The labels of the Job are the counters of the version. -/
def AtCounters (gates : FeatureGates) (js : JobSet) (job : Job) : Prop :=
  restartLabel job = some (js.status.restarts : ℤ) ∧
  (gates.restartJob = true → ∃ (name : String) (index : ℕ),
    job.labels.lookup replicatedJobNameKey = some name ∧ jobIndexLabel job = some (index : ℤ) ∧
    jobRestartLabel job = some (individualCounter js name index : ℤ))

/-- The step from version `v` to the next keeps the counters or counts one failure. -/
def Explained (gates : FeatureGates) (names : List String) (w : World) (v : ℕ) : Prop :=
  SameCounters names (w.sets.entry v) (w.sets.entry (v + 1)) ∨
  ∃ job, Caused w v job ∧ (∃ k ≤ w.jobs.top, job ∈ w.jobs.entry k) ∧
    jobFinished job = some .jobFailed ∧ AtCounters gates (w.sets.entry v) job ∧
    Increment gates names job (w.sets.entry v) (w.sets.entry (v + 1))

/-- A failed Job of a snapshot that is not ahead of the counters is at the counters. -/
theorem atCounters_of_failed {env : Env} {names : List String} {jobs : List Job}
    {owned : ChildJobs} {job : Job} (hsorted : getChildJobs env.gates js jobs = .ok owned)
    (hjob : job ∈ owned.failed) (hlabels : LabelsOk env.gates names js job) :
    job ∈ jobs ∧ jobFinished job = some .jobFailed ∧ AtCounters env.gates js job := by
  obtain ⟨hmem, hclass⟩ := (getChildJobs_mem hsorted (b := .failed)).mp hjob
  obtain ⟨hbucket, ⟨r, hr, hle⟩, hindividual⟩ := classifyJob_current hclass (by simp)
  obtain ⟨name, -, index, restarts, hname, hindex, hrestart, hle', hlabel⟩ := hlabels
  have hfailed : jobFinished job = some .jobFailed := by
    unfold finishedBucket at hbucket
    split at hbucket
    · assumption
    · cases hbucket
    · cases hbucket
  refine ⟨hmem, hfailed, ?_, fun hg => ?_⟩
  · have he : r = restarts := Option.some.inj (hr.symm.trans hrestart)
    have : r = (js.status.restarts : ℤ) := by omega
    rw [hr, this]
  · obtain ⟨name', index', hname', hindex', hcounter⟩ :=
      outdatedIndividually_false (hindividual hg)
    obtain rfl : name = name' := Option.some.inj (hname.symm.trans hname')
    obtain ⟨n, hn, hnle⟩ := hlabel hg
    obtain ⟨i, hi, -, hge⟩ := hcounter n hn
    have hii : (index : ℤ) = i := by
      have := hindex.symm.trans hindex'
      rw [hi] at this
      exact Option.some.inj this
    obtain rfl : index = i := by omega
    refine ⟨name, index, hname, hindex, ?_⟩
    have : (n : ℤ) = (individualCounter js name index : ℤ) := by omega
    rw [hn, this]

/-- A status write keeps the counters, or it counts a failed Job at the counters it raises. -/
theorem write_explained (hS : FixedGates S gates) (hnew : js.status = .new)
    (h : Reachable S js w) {a : Attempt} (busy : w.attempt = some a) {js' : JobSet}
    (writes : Writes a.env a.js a.jobs a.seen js')
    (hcurrent : w.sets.current = a.seen.acked.getD a.js) :
    SameCounters js.jobNames w.sets.current js' ∨
    ∃ job owned, getChildJobs a.env.gates a.js a.jobs = .ok owned ∧
      failureCause a.env.platform a.js owned.failed = some job ∧
      job ∈ w.jobs.entry w.seenJobs ∧ jobFinished job = some .jobFailed ∧
      AtCounters gates w.sets.current job ∧
      Increment gates js.jobNames job w.sets.current js' := by
  have hinv := reachable_inv h
  have hread := hinv.attempt a busy
  obtain ⟨hnames, hok⟩ := (reachable_counters hS hnew h).1 _ hinv.seenSets
  obtain rfl : a.env.gates = gates := hS.gates a.env hread.allowed
  rw [← hread.js] at hnames hok
  have hbase := writes.baseCounters hok
  rcases writes.counters hok with hc | ⟨hfirst, owned, job, hlive, hcause, hc⟩
  · rw [← hcurrent, hnames] at hbase
    rw [hnames] at hc
    exact Or.inl (hbase.symm.trans hc)
  · rw [hfirst, Option.getD_none] at hcurrent
    have hfailed := failureCause_mem hcause
    have hmem := ((getChildJobs_mem hlive.sorted (b := .failed)).mp hfailed).1
    have hknown := hread.jobs.mem_iff.mp hmem
    have hlabels := reachable_labels hS hnew h _ hinv.seenJobs job hknown
    rw [hcurrent] at hlabels ⊢
    obtain ⟨-, hfin, hat⟩ := atCounters_of_failed hlive.sorted hfailed hlabels
    rw [hnames] at hc
    exact Or.inr ⟨job, owned, hlive.sorted, hcause, hknown, hfin, hat, hc⟩

/-- Every version is explained by the one before it. -/
theorem reachable_explained (hS : FixedGates S gates) (hnew : js.status = .new)
    (h : Reachable S js w) : ∀ v < w.sets.top, Explained gates js.jobNames w v := by
  induction h with
  | refl => simp [World.initial]
  | @tail w w' hrun hstep ih =>
    have hinv := reachable_inv hrun
    have hmove := step_move hinv hstep
    have hsets := History.grows_of_push hmove.sets
    have hjobs := History.grows_of_push hmove.jobs
    have hauthors := fun v hv => step_authors hinv hstep (v := v) hv
    -- versions that were there before keep their explanation
    have hold : ∀ v < w.sets.top, Explained gates js.jobNames w' v := by
      intro v hv
      unfold Explained
      rw [hsets.2 v (by omega), hsets.2 (v + 1) (by omega)]
      rcases ih v hv with hsame | ⟨job, ⟨r, owned, ha, hrest⟩, ⟨k, hk, hmem⟩, hfacts⟩
      · exact Or.inl hsame
      · refine Or.inr ⟨job, ⟨r, owned, ?_, hrest⟩, ⟨k, hk.trans hjobs.1, ?_⟩, hfacts⟩
        · rw [hauthors (v + 1) (by omega), ha]
        · rwa [hjobs.2 k hk]
    intro v hv
    rcases Nat.lt_or_ge v w.sets.top with hlt | hge
    · exact hold v hlt
    · rcases step_version hinv hstep with hsame | ⟨js', hpush, hversion⟩
      · rw [hsame] at hv
        omega
      · have htop : w'.sets.top = w.sets.top + 1 := by rw [hpush, History.push_top]
        obtain rfl : v = w.sets.top := by omega
        have hnext : w'.sets.entry (w.sets.top + 1) = js' := by
          rw [hpush, History.push_entry_top]
        unfold Explained
        rw [hsets.2 _ le_rfl, hnext]
        rcases hversion with hstatus | ⟨a, busy, writes, hcurrent, author⟩
        · exact Or.inl (sameCounters_of_statuses (by rw [hstatus]; rfl) (by rw [hstatus]; rfl))
        · rcases write_explained hS hnew hrun busy writes hcurrent with hsame |
            ⟨job, owned, hsorted, hcause, hmem, hfacts⟩
          · exact Or.inl hsame
          · refine Or.inr ⟨job, ⟨a.toReading, owned, author, hsorted, hcause⟩,
              ⟨w.seenJobs, hinv.seenJobs.trans hjobs.1, ?_⟩, hfacts⟩
            rwa [hjobs.2 _ hinv.seenJobs]

/-- One Job causes at most one increment: after it, the Job is behind the counters. -/
theorem caused_once (hS : FixedGates S gates) (hnew : js.status = .new) (h : Reachable S js w)
    {u v : ℕ} (huv : u < v) (hv : v < w.sets.top) {job job' : Job} (huid : job.uid = job'.uid)
    (hk : ∃ k ≤ w.jobs.top, job ∈ w.jobs.entry k) (hk' : ∃ k ≤ w.jobs.top, job' ∈ w.jobs.entry k)
    (hat : AtCounters gates (w.sets.entry u) job) (hat' : AtCounters gates (w.sets.entry v) job')
    (hinc : Increment gates js.jobNames job (w.sets.entry u) (w.sets.entry (u + 1))) : False := by
  have hinv := reachable_inv h
  have hordered := (reachable_counters hS hnew h).2 (u + 1) v (by omega) (by omega)
  obtain ⟨k, hk, hmem⟩ := hk
  obtain ⟨k', hk', hmem'⟩ := hk'
  have hlabels : job.labels = job'.labels := by
    rcases le_total k k' with hle | hle
    · exact (hinv.jobs.later k k' hle hk' job hmem job' hmem' huid).labels.symm
    · exact (hinv.jobs.later k' k hle hk job' hmem' job hmem huid.symm).labels
  have hrestarts : (w.sets.entry u).status.restarts = (w.sets.entry v).status.restarts := by
    have h₁ := hat.1
    have h₂ := hat'.1
    unfold restartLabel at h₁ h₂
    rw [hlabels, h₂] at h₁
    have := Option.some.inj h₁
    omega
  rcases hinc with ⟨hr, -⟩ | ⟨hg, hr, name, index, hname, hindex, hi⟩
  · have := hordered.1
    omega
  · obtain ⟨n₁, i₁, hn₁, hi₁, hl₁⟩ := hat.2 hg
    obtain ⟨n₂, i₂, hn₂, hi₂, hl₂⟩ := hat'.2 hg
    obtain ⟨n, hnames, i, r, hn, hidx, -⟩ := reachable_labels hS hnew h k hk job hmem
    obtain rfl : name = n := Option.some.inj (hname.symm.trans hn)
    obtain rfl : name = n₁ := Option.some.inj (hname.symm.trans hn₁)
    rw [← hlabels, hname] at hn₂
    obtain rfl : name = n₂ := Option.some.inj hn₂
    have hidx₁ : (index : ℤ) = i₁ := Option.some.inj (hindex.symm.trans hi₁)
    have hidx₂ : (index : ℤ) = i₂ := by
      unfold jobIndexLabel at hi₂ hindex
      rw [← hlabels, hindex] at hi₂
      exact Option.some.inj hi₂
    obtain rfl : index = i₁ := by omega
    obtain rfl : index = i₂ := by omega
    have hcounter : individualCounter (w.sets.entry u) name index =
        individualCounter (w.sets.entry v) name index := by
      unfold jobRestartLabel at hl₁ hl₂
      rw [hlabels, hl₂] at hl₁
      have := Option.some.inj hl₁
      omega
    have hraised := hi name hnames index
    have hle := hordered.2 name hnames index
    simp only [and_self, if_true] at hraised
    omega

end Counting

theorem plain_fixedGates (gates : FeatureGates) :
    FixedGates (plainSetting (plainEnv gates)) gates where
  gates := by rintro env rfl; rfl
  names := fun a b h => by unfold JobSet.jobNames; rw [show b.spec = a.spec from h]
  foreign := fun _ h => h

end Cluster

end JobSetOperator
