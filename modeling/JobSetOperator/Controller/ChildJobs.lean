import JobSetOperator.Controller.Conditions
import JobSetOperator.Library.Keyed
import Mathlib.Data.List.Sort

/-!
# Child Jobs and their counts

`getChildJobs` sorts the Jobs of a snapshot into buckets by comparing their
restart labels with the counters of the JobSet. `calculateReplicatedJobStatuses`
turns the buckets into the per-ReplicatedJob counts that the startup policies
decide from. An index lookup that Go would answer with a panic is an error here:
both end the reconcile without a status update.
-/
namespace JobSetOperator

/-! ## Restart counters per index -/

/-- `getJobRestarts`: zeros for every replica until the list is first written. -/
def getJobRestarts (js : JobSet) (replicatedJobName : String) : List ℕ :=
  match findReplicatedJobStatus js.status.replicatedJobsStatus replicatedJobName with
  | some rjs =>
    if rjs.jobRestarts = [] then List.replicate (getReplicatedJobReplicas js replicatedJobName) 0
    else rjs.jobRestarts
  | none => List.replicate (getReplicatedJobReplicas js replicatedJobName) 0

/-- `getJobRestartsCountTowardsMax`. -/
def getJobRestartsCountTowardsMax (js : JobSet) (replicatedJobName : String) : List ℕ :=
  match findReplicatedJobStatus js.status.replicatedJobsStatus replicatedJobName with
  | some rjs =>
    if rjs.jobRestartsCountTowardsMax = [] then
      List.replicate (getReplicatedJobReplicas js replicatedJobName) 0
    else rjs.jobRestartsCountTowardsMax
  | none => List.replicate (getReplicatedJobReplicas js replicatedJobName) 0

/-! ## Buckets -/

structure ChildJobs where
  active : List Job
  successful : List Job
  failed : List Job
  previous : List Job

inductive Bucket
  | active
  | successful
  | failed
  | previous
  deriving DecidableEq, Repr

def ChildJobs.empty : ChildJobs := ⟨[], [], [], []⟩

/-- Put a Job in front of its bucket. -/
def ChildJobs.add (c : ChildJobs) (job : Job) : Bucket → ChildJobs
  | .active => { c with active := job :: c.active }
  | .successful => { c with successful := job :: c.successful }
  | .failed => { c with failed := job :: c.failed }
  | .previous => { c with previous := job :: c.previous }

/-- The Jobs of one bucket. -/
def ChildJobs.jobs (c : ChildJobs) : Bucket → List Job
  | .active => c.active
  | .successful => c.successful
  | .failed => c.failed
  | .previous => c.previous

/-- The bucket of a Job of the current attempt. -/
def finishedBucket (job : Job) : Bucket :=
  match jobFinished job with
  | some .jobFailed => .failed
  | some _ => .successful
  | none => .active

def invalidLabel (key : String) : String := "invalid value for label " ++ key ++ ", must be integer"

/-- A label that must be there. -/
def requireLabel (job : Job) (key : String) : Except String String :=
  match job.labels.lookup key with
  | some value => .ok value
  | none => .error ("missing label " ++ key)

/-- A label value that must be an integer. -/
def requireInt (key value : String) : Except String ℤ :=
  match parseInt value with
  | some n => .ok n
  | none => .error (invalidLabel key)

/-- The lookup `list[index]` of Go, which panics outside the list. -/
def indexGo (list : List ℕ) (index : ℤ) : Except String ℕ :=
  if index < 0 then .error "index out of range"
  else match list[index.toNat]? with
    | some n => .ok n
    | none => .error "index out of range"

/-- The part of `getChildJobs` behind the RestartJob gate: is the Job of an
older individual attempt? A Job without the label is kept, for compatibility. -/
def outdatedIndividually (js : JobSet) (job : Job) : Except String Bool := do
  let replicatedJobName ← requireLabel job replicatedJobNameKey
  let jobIndexStr ← requireLabel job jobIndexKey
  let jobIndex ← requireInt jobIndexKey jobIndexStr
  match job.labels.lookup jobRestartAttemptKey with
  | none => pure false
  | some individualRestartsStr =>
    let individualRestarts ← requireInt jobRestartAttemptKey individualRestartsStr
    let targetIndividualRestarts ← indexGo (getJobRestarts js replicatedJobName) jobIndex
    pure (decide (individualRestarts < targetIndividualRestarts))

/-- The body of the loop of `getChildJobs`. -/
def classifyJob (gates : FeatureGates) (js : JobSet) (job : Job) : Except String Bucket := do
  let jobRestarts ← requireInt restartsKey (job.labels.get restartsKey)
  if jobRestarts < js.status.restarts then pure .previous
  else if gates.restartJob then
    let outdated ← outdatedIndividually js job
    pure (if outdated then .previous else finishedBucket job)
  else pure (finishedBucket job)

/-- The restart attempt on the label of a Job. -/
def restartLabel (job : Job) : Option ℤ := parseInt (job.labels.get restartsKey)

/-- The individual restart attempt on the label of a Job. -/
def jobRestartLabel (job : Job) : Option ℤ := (job.labels.lookup jobRestartAttemptKey).bind parseInt

/-- The index on the label of a Job. -/
def jobIndexLabel (job : Job) : Option ℤ := (job.labels.lookup jobIndexKey).bind parseInt

/-- The restart counter of one index of a ReplicatedJob. -/
def individualCounter (js : JobSet) (name : String) (index : ℕ) : ℕ :=
  (getJobRestarts js name).getD index 0

theorem requireLabel_ok {job : Job} {key value : String} (h : requireLabel job key = .ok value) :
    job.labels.lookup key = some value := by
  unfold requireLabel at h
  split at h
  · cases h
    assumption
  · cases h

theorem requireInt_ok {key value : String} {n : ℤ} (h : requireInt key value = .ok n) :
    parseInt value = some n := by
  unfold requireInt at h
  split at h
  · cases h
    assumption
  · cases h

theorem indexGo_ok {list : List ℕ} {index : ℤ} {n : ℕ} (h : indexGo list index = .ok n) :
    ∃ i : ℕ, index = i ∧ i < list.length ∧ list.getD i 0 = n := by
  unfold indexGo at h
  split_ifs at h with hneg
  split at h
  · rename_i m hm
    cases h
    obtain ⟨hlt, -⟩ := List.getElem?_eq_some_iff.mp hm
    exact ⟨index.toNat, by omega, hlt, by simp [List.getD, hm]⟩
  · cases h

theorem finishedBucket_ne_previous (job : Job) : finishedBucket job ≠ .previous := by
  unfold finishedBucket
  split <;> simp

/-- The body of the loop says of a Job outside `previous` that its restart labels
have reached the counters. -/
theorem outdatedIndividually_false {js : JobSet} {job : Job}
    (h : outdatedIndividually js job = .ok false) :
    ∃ (name : String) (index : ℤ), job.labels.lookup replicatedJobNameKey = some name ∧
      jobIndexLabel job = some index ∧
      ∀ n, jobRestartLabel job = some n → ∃ i : ℕ, index = i ∧
        i < (getJobRestarts js name).length ∧ (individualCounter js name i : ℤ) ≤ n := by
  unfold outdatedIndividually at h
  obtain ⟨name, hname, h⟩ := except_bind_ok h
  obtain ⟨indexStr, hindexStr, h⟩ := except_bind_ok h
  obtain ⟨index, hindex, h⟩ := except_bind_ok h
  have hlabel : jobIndexLabel job = some index := by
    unfold jobIndexLabel
    rw [requireLabel_ok hindexStr]
    exact requireInt_ok hindex
  refine ⟨name, index, requireLabel_ok hname, hlabel, fun n hn => ?_⟩
  unfold jobRestartLabel at hn
  cases hl : job.labels.lookup jobRestartAttemptKey with
  | none => simp [hl] at hn
  | some text =>
    simp only [hl] at h hn
    obtain ⟨n', hn', h⟩ := except_bind_ok h
    obtain ⟨target, htarget, h⟩ := except_bind_ok h
    obtain ⟨i, hi, hlt, hget⟩ := indexGo_ok htarget
    obtain rfl : n' = n := by
      have := (requireInt_ok hn').symm.trans hn
      simpa using this
    have hle : ¬ n' < (target : ℤ) := by simpa [pure, Except.pure] using h
    exact ⟨i, hi, hlt, by unfold individualCounter; omega⟩

/-- A Job outside `previous` is of the current attempt. -/
theorem classifyJob_current {gates : FeatureGates} {js : JobSet} {job : Job} {b : Bucket}
    (h : classifyJob gates js job = .ok b) (hb : b ≠ .previous) :
    b = finishedBucket job ∧ (∃ r, restartLabel job = some r ∧ (js.status.restarts : ℤ) ≤ r) ∧
      (gates.restartJob = true → outdatedIndividually js job = .ok false) := by
  unfold classifyJob at h
  obtain ⟨r, hr, h⟩ := except_bind_ok h
  have hlabel : restartLabel job = some r := requireInt_ok hr
  split_ifs at h with hlt hg
  · cases h
    exact absurd rfl hb
  · obtain ⟨outdated, ho, h⟩ := except_bind_ok h
    cases outdated with
    | true =>
      cases h
      exact absurd rfl hb
    | false =>
      cases h
      exact ⟨rfl, ⟨r, hlabel, not_lt.mp hlt⟩, fun _ => ho⟩
  · cases h
    exact ⟨rfl, ⟨r, hlabel, not_lt.mp hlt⟩, fun hg' => absurd hg' hg⟩

/-- `getChildJobs`, on the Jobs the cache lists. -/
def getChildJobs (gates : FeatureGates) (js : JobSet) : List Job → Except String ChildJobs
  | [] => .ok .empty
  | job :: rest => do
    let bucket ← classifyJob gates js job
    let ownedJobs ← getChildJobs gates js rest
    pure (ownedJobs.add job bucket)

theorem ChildJobs.mem_add {c : ChildJobs} {job j : Job} {b b' : Bucket} :
    j ∈ (c.add job b).jobs b' ↔ (j = job ∧ b' = b) ∨ j ∈ c.jobs b' := by
  cases b <;> cases b' <;> simp [ChildJobs.add, ChildJobs.jobs]

/-- A bucket holds the Jobs of the list that belong there. -/
theorem getChildJobs_mem {gates : FeatureGates} {js : JobSet} {jobs : List Job} {owned : ChildJobs}
    (h : getChildJobs gates js jobs = .ok owned) {job : Job} {b : Bucket} :
    job ∈ owned.jobs b ↔ job ∈ jobs ∧ classifyJob gates js job = .ok b := by
  induction jobs generalizing owned with
  | nil =>
    simp only [getChildJobs, Except.ok.injEq] at h
    subst h
    cases b <;> simp [ChildJobs.jobs, ChildJobs.empty]
  | cons first rest ih =>
    unfold getChildJobs at h
    cases hb : classifyJob gates js first with
    | error e => simp [hb, Bind.bind, Except.bind] at h
    | ok bucket =>
      cases hrest : getChildJobs gates js rest with
      | error e => simp [hb, hrest, Bind.bind, Except.bind] at h
      | ok others =>
        simp only [hb, hrest, Bind.bind, Except.bind, pure, Except.pure, Except.ok.injEq] at h
        subst h
        rw [ChildJobs.mem_add, ih hrest, List.mem_cons]
        constructor
        · rintro (⟨rfl, rfl⟩ | ⟨hmem, hc⟩)
          · exact ⟨Or.inl rfl, hb⟩
          · exact ⟨Or.inr hmem, hc⟩
        · rintro ⟨rfl | hmem, hc⟩
          · rw [hb] at hc
            cases hc
            exact Or.inl ⟨rfl, rfl⟩
          · exact Or.inr ⟨hmem, hc⟩

/-- Every Job of the list has been sorted. -/
theorem getChildJobs_classified {gates : FeatureGates} {js : JobSet} {jobs : List Job}
    {owned : ChildJobs} (h : getChildJobs gates js jobs = .ok owned) {job : Job} (hj : job ∈ jobs) :
    ∃ b, classifyJob gates js job = .ok b := by
  induction jobs generalizing owned with
  | nil => simp at hj
  | cons first rest ih =>
    unfold getChildJobs at h
    cases hb : classifyJob gates js first with
    | error e => simp [hb, Bind.bind, Except.bind] at h
    | ok bucket =>
      cases hrest : getChildJobs gates js rest with
      | error e => simp [hb, hrest, Bind.bind, Except.bind] at h
      | ok others =>
        rcases List.mem_cons.mp hj with rfl | hj
        · exact ⟨bucket, hb⟩
        · exact ih hrest hj

/-! ## Counts per ReplicatedJob -/

/-- The pods of a Job that count as its full size: parallelism, or completions if smaller. -/
def podsCount (job : Job) : ℤ :=
  let parallelism := job.spec.parallelism.getD 1
  match job.spec.completions with
  | some completions => if completions < parallelism then completions else parallelism
  | none => parallelism

/-- An active Job counts as ready once enough of its pods are ready or have succeeded. -/
def jobReady (job : Job) : Bool := job.status.succeeded + job.status.ready.getD 0 ≥ podsCount job

/-- The Jobs of a list that belong to the ReplicatedJob; a Job with an empty name label is skipped. -/
def ofReplicatedJob (name : String) (jobs : List Job) : List Job :=
  jobs.filter fun job => name ≠ "" ∧ job.labels.get replicatedJobNameKey = name

/-- The entry of one ReplicatedJob. With the RestartJob gate the restart lists
are carried over by name. -/
def replicatedJobStatus (gates : FeatureGates) (js : JobSet) (jobs : ChildJobs) (name : String) :
    ReplicatedJobStatus :=
  let active := ofReplicatedJob name jobs.active
  let existing := findReplicatedJobStatus js.status.replicatedJobsStatus name
  { name := name
    ready := (active.filter jobReady).length
    succeeded := (ofReplicatedJob name jobs.successful).length
    failed := (ofReplicatedJob name jobs.failed).length
    active := (active.filter fun job => job.status.active > 0).length
    suspended := (active.filter jobSuspended).length
    jobRestarts := if gates.restartJob then (existing.map (·.jobRestarts)).getD [] else []
    jobRestartsCountTowardsMax :=
      if gates.restartJob then (existing.map (·.jobRestartsCountTowardsMax)).getD [] else [] }

/-- The names of the ReplicatedJobs, each once. -/
def replicatedJobNames (js : JobSet) : List String :=
  (js.spec.replicatedJobs.map (·.name)).dedup

/-- `calculateReplicatedJobStatuses`. -/
def calculateReplicatedJobStatuses (gates : FeatureGates) (js : JobSet) (jobs : ChildJobs) :
    List ReplicatedJobStatus :=
  (replicatedJobNames js).map (replicatedJobStatus gates js jobs)

/-- The names of the ReplicatedJobs. -/
def JobSet.jobNames (js : JobSet) : List String := js.spec.replicatedJobs.map (·.name)

theorem find_cons (rjs : ReplicatedJobStatus) (l : List ReplicatedJobStatus) (name : String) :
    findReplicatedJobStatus (rjs :: l) name =
      if rjs.name = name then some rjs else findReplicatedJobStatus l name := by
  unfold findReplicatedJobStatus
  by_cases h : rjs.name = name <;> simp [h]

theorem calculated_nodup (gates : FeatureGates) (js : JobSet) (jobs : ChildJobs) :
    ((calculateReplicatedJobStatuses gates js jobs).map (·.name)).Nodup := by
  have hnames : (calculateReplicatedJobStatuses gates js jobs).map (·.name) =
      replicatedJobNames js := by
    unfold calculateReplicatedJobStatuses
    rw [List.map_map]
    exact List.map_id _
  rw [hnames]
  exact List.nodup_dedup _

theorem calculated_mem (gates : FeatureGates) {js : JobSet} (jobs : ChildJobs) {name : String}
    (hname : name ∈ js.jobNames) :
    replicatedJobStatus gates js jobs name ∈ calculateReplicatedJobStatuses gates js jobs :=
  List.mem_map_of_mem (List.mem_dedup.mpr hname)

/-- The counts have one entry for each ReplicatedJob. -/
theorem calculated_find (gates : FeatureGates) {js : JobSet} (jobs : ChildJobs) {name : String}
    (hname : name ∈ js.jobNames) :
    findReplicatedJobStatus (calculateReplicatedJobStatuses gates js jobs) name =
      some (replicatedJobStatus gates js jobs name) :=
  Library.find?_of_nodup (calculated_nodup gates js jobs) (calculated_mem gates jobs hname)

/-- The order `replicatedJobStatusesEqual` sorts both lists into, in place. -/
def sortStatuses (statuses : List ReplicatedJobStatus) : List ReplicatedJobStatus :=
  statuses.insertionSort fun a b => b.name ≤ a.name

theorem sortStatuses_perm (statuses : List ReplicatedJobStatus) :
    (sortStatuses statuses).Perm statuses :=
  List.perm_insertionSort _ statuses

theorem sortStatuses_pairwise (statuses : List ReplicatedJobStatus) :
    (sortStatuses statuses).Pairwise fun a b => b.name ≤ a.name := by
  have htotal : Std.Total fun a b : ReplicatedJobStatus => b.name ≤ a.name :=
    ⟨fun a b => String.le_total b.name a.name⟩
  have htrans : IsTrans ReplicatedJobStatus fun a b => b.name ≤ a.name :=
    ⟨fun _ _ _ h₁ h₂ => String.le_trans h₂ h₁⟩
  exact List.pairwise_insertionSort _ statuses

/-- `updateReplicatedJobsStatuses`. The comparison leaves both lists sorted. -/
def updateReplicatedJobsStatuses (statuses : List ReplicatedJobStatus) (p : Pass) : Pass :=
  let js := { p.js with status := { p.js.status with
    replicatedJobsStatus := sortStatuses statuses } }
  if sortStatuses p.js.status.replicatedJobsStatus = sortStatuses statuses then { p with js := js }
  else { p with js := js, opts := { p.opts with shouldUpdate := true } }

end JobSetOperator
