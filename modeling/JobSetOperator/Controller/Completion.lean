import JobSetOperator.Controller.MissingJobs

/-!
# The success policy on the Jobs themselves

The success policy compares two numbers: how many successful Jobs belong to its
targets, and how many are expected. The Jobs of a JobSet have different names, and
their labels were written together with the names, so a ReplicatedJob never has more
successful Jobs than replicas. The two numbers then agree only if every index of every
target has a successful Job of the current attempt.
-/
namespace JobSetOperator

open Library Library.Program

/-! ## Labels and names -/

/-- The name and the labels of the Job were written by `constructJob`, at some earlier
status of the JobSet and under the configuration of that time. -/
def LabelledBy (js : JobSet) (job : Job) : Prop :=
  ∃ (platform : Platform) (gates : FeatureGates) (status : JobSetStatus) (rjob : ReplicatedJob),
    rjob ∈ js.spec.replicatedJobs ∧ ∃ jobIdx < rjob.replicas, ∃ built,
      constructJob platform gates { js with status := status } rjob jobIdx = .ok built ∧
      job.name = built.name ∧ job.labels = built.labels

theorem get_of_lookup {labels : StrMap} {key value : String} (h : labels.lookup key = some value) :
    labels.get key = value := by
  unfold StrMap.get
  rw [h, Option.getD_some]

theorem LabelledBy.slot {js : JobSet} {job : Job} (h : LabelledBy js job) :
    ∃ rjob ∈ js.spec.replicatedJobs, ∃ i < rjob.replicas,
      job.name = genJobName js.name rjob.name i ∧
      job.labels.lookup replicatedJobNameKey = some rjob.name ∧
      jobIndexLabel job = some (i : ℤ) := by
  obtain ⟨platform, gates, status, rjob, hrjob, i, hi, built, hbuilt, hname, hlabels⟩ := h
  have hfor := constructJob_builtFor hbuilt
  refine ⟨rjob, hrjob, i, hi, hname.trans hfor.name, ?_, ?_⟩
  · rw [hlabels]
    exact hfor.replicatedJob
  · unfold jobIndexLabel
    rw [hlabels]
    exact hfor.index

/-- Jobs with different names have different indexes. -/
theorem childrenOk_of_labelledBy {js : JobSet} {jobs : List Job}
    (hlabels : ∀ job ∈ jobs, LabelledBy js job) (hdistinct : (jobs.map (·.name)).Nodup) :
    ChildrenOk js jobs := by
  constructor
  · intro job hjob
    obtain ⟨rjob, hrjob, i, hi, -, hname, hindex⟩ := (hlabels job hjob).slot
    exact ⟨rjob, hrjob, i, hi, hname, hindex⟩
  · apply (List.pairwise_map.mp hdistinct).imp_of_mem
    rintro a b ha hb hab ⟨hname, hindex⟩
    obtain ⟨ra, -, i, -, hna, hla, hia⟩ := (hlabels a ha).slot
    obtain ⟨rb, -, j, -, hnb, hlb, hib⟩ := (hlabels b hb).slot
    rw [hla, hlb] at hname
    rw [hia, hib] at hindex
    have hij : i = j := by simpa using hindex
    apply hab
    rw [hna, hnb, Option.some.inj hname, hij]

/-! ## Totals -/

/-- The elements with one of several keys are counted key by key. -/
theorem length_filter_mem {α β : Type} [DecidableEq β] (key : α → β) (l : List α) {keys : List β}
    (hkeys : keys.Nodup) :
    (l.filter fun a => key a ∈ keys).length =
      (keys.map fun k => (l.filter fun a => key a = k).length).sum := by
  induction keys with
  | nil => simp
  | cons k rest ih =>
    obtain ⟨hk, hrest⟩ := List.nodup_cons.mp hkeys
    rw [List.map_cons, List.sum_cons, ← ih hrest]
    simp only [← List.countP_eq_length_filter, List.mem_cons, Bool.decide_or]
    clear ih
    induction l with
    | nil => rfl
    | cons a l ih =>
      by_cases ha : key a = k
      · simp [ha, hk, ih]
        omega
      · by_cases hmem : key a ∈ rest
        · simp [ha, hmem, ih]
          omega
        · simp [ha, hmem, ih]

/-- Two totals agree if their parts do. -/
theorem sum_le_sum_iff {α : Type} {l : List α} {f g : α → ℕ} (h : ∀ a ∈ l, f a ≤ g a) :
    (l.map g).sum ≤ (l.map f).sum ↔ ∀ a ∈ l, g a ≤ f a := by
  induction l with
  | nil => simp
  | cons a l ih =>
    obtain ⟨ha, hl⟩ := List.forall_mem_cons.mp h
    have hle : (l.map f).sum ≤ (l.map g).sum := List.sum_le_sum hl
    have hrest := ih hl
    simp only [List.map_cons, List.sum_cons, List.forall_mem_cons]
    constructor
    · intro hsum
      exact ⟨by omega, hrest.mp (by omega)⟩
    · rintro ⟨hfirst, hothers⟩
      have := hrest.mpr hothers
      omega

/-! ## What completes a JobSet -/

/-- The Job of the current attempt has succeeded. -/
def Succeeded (gates : FeatureGates) (js : JobSet) (job : Job) : Prop :=
  CurrentJob gates js job ∧ jobFinished job = some .jobComplete

/-- The ReplicatedJobs the success policy is about. -/
def targetedJobs (policy : SuccessPolicy) (js : JobSet) : List ReplicatedJob :=
  js.spec.replicatedJobs.filter fun rjob => matchesSuccessPolicy policy rjob.name

/-- What the success policy asks of the Jobs. -/
def SuccessMet (policy : SuccessPolicy) (js : JobSet) (jobs : List Job) (kind : Job → Prop) :
    Prop :=
  match policy.operator with
  | .operatorAll => ∀ rjob ∈ targetedJobs policy js, Covered jobs rjob kind
  | .operatorAny => ∃ rjob ∈ targetedJobs policy js, ∃ job ∈ jobs,
      job.labels.lookup replicatedJobNameKey = some rjob.name ∧ kind job

/-- A Job of the current attempt is in the bucket of its state. -/
theorem classifyJob_of_current {gates : FeatureGates} {js : JobSet} {job : Job}
    (h : CurrentJob gates js job) : classifyJob gates js job = .ok (finishedBucket job) := by
  obtain ⟨⟨r, hr, hle⟩, hindividual⟩ := h
  have hlabel : requireInt restartsKey (job.labels.get restartsKey) = .ok r := by
    have hparse : parseInt (job.labels.get restartsKey) = some r := hr
    unfold requireInt
    rw [hparse]
  unfold classifyJob
  rw [hlabel, except_ok_bind, if_neg (not_lt.mpr hle)]
  split_ifs with hgate
  · rw [hindividual hgate, except_ok_bind]
    rfl
  · rfl

section Totals

variable {gates : FeatureGates} {js : JobSet} {jobs : List Job} {owned : ChildJobs}

theorem mem_successful_iff (hsorted : getChildJobs gates js jobs = .ok owned) {job : Job} :
    job ∈ owned.successful ↔ job ∈ jobs ∧ Succeeded gates js job := by
  constructor
  · intro hjob
    have hbucket : job ∈ owned.jobs .successful := hjob
    obtain ⟨hmem, hcurrent, hb⟩ := bucket_facts hsorted hbucket (by decide)
    exact ⟨hmem, hcurrent, finishedBucket_successful hb⟩
  · rintro ⟨hmem, hcurrent, hcomplete⟩
    have hclass := classifyJob_of_current hcurrent
    unfold finishedBucket at hclass
    rw [hcomplete] at hclass
    exact (getChildJobs_mem (b := .successful) hsorted).mpr ⟨hmem, hclass⟩

theorem successful_subperm (hsorted : getChildJobs gates js jobs = .ok owned) :
    owned.successful.Subperm jobs := by
  apply List.Subperm.trans (List.Sublist.subperm _) (getChildJobs_perm hsorted).subperm
  rw [List.append_assoc, List.append_assoc]
  exact (List.sublist_append_left _ _).trans (List.sublist_append_right _ _)

variable (hjobs : ChildrenOk js jobs) (hnames : js.jobNames.Nodup)
  (hsorted : getChildJobs gates js jobs = .ok owned)

include hjobs hnames hsorted

/-- The successful Jobs of a ReplicatedJob are as many as its replicas if they cover its
indexes, and never more. -/
theorem successful_count {rjob : ReplicatedJob} (hrjob : rjob ∈ js.spec.replicatedJobs) :
    let count := (owned.successful.filter fun job =>
      job.labels.get replicatedJobNameKey = rjob.name).length
    count ≤ rjob.replicas ∧
      (rjob.replicas ≤ count ↔ Covered jobs rjob (Succeeded gates js)) := by
  intro count
  have hsub : (owned.successful.filter fun job =>
      job.labels.get replicatedJobNameKey = rjob.name).Subperm jobs :=
    List.filter_sublist.subperm.trans (successful_subperm hsorted)
  have hof : ∀ job ∈ owned.successful.filter fun job =>
      job.labels.get replicatedJobNameKey = rjob.name,
      job.labels.get replicatedJobNameKey = rjob.name := by
    intro job hjob
    simpa using (List.mem_filter.mp hjob).2
  refine ⟨hjobs.length_le hnames hrjob hsub hof, ?_⟩
  constructor
  · intro hcount
    apply (hjobs.covered hnames hrjob hsub hof hcount).mono
    intro job _ hjob
    exact ((mem_successful_iff hsorted).mp (List.mem_of_mem_filter hjob)).2
  · intro hcovered
    have hall : List.range rjob.replicas ⊆ (owned.successful.filter fun job =>
        job.labels.get replicatedJobNameKey = rjob.name).map jobIndex := by
      intro i hi
      obtain ⟨job, hmem, hname, hindex, hkind⟩ := hcovered i (List.mem_range.mp hi)
      have hsuccessful := (mem_successful_iff hsorted).mpr ⟨hmem, hkind⟩
      have hfilter : job ∈ owned.successful.filter fun job =>
          job.labels.get replicatedJobNameKey = rjob.name := by
        simp [hsuccessful, get_of_lookup hname]
      have hi' : jobIndex job = i := by
        unfold jobIndex
        rw [hindex]
        rfl
      exact List.mem_map.mpr ⟨job, hfilter, hi'⟩
    have hle := (List.nodup_range.subperm hall).length_le
    rwa [List.length_range, List.length_map] at hle

/-- The Jobs that match the success policy, counted per target. -/
theorem numJobsMatching_eq_sum (policy : SuccessPolicy) :
    numJobsMatchingSuccessPolicy policy owned.successful =
      ((targetedJobs policy js).map fun rjob => (owned.successful.filter fun job =>
        job.labels.get replicatedJobNameKey = rjob.name).length).sum := by
  have hkeys : ((targetedJobs policy js).map (·.name)).Nodup :=
    hnames.sublist (List.filter_sublist.map _)
  have hcount := length_filter_mem (fun job : Job => job.labels.get replicatedJobNameKey)
    owned.successful hkeys
  rw [List.map_map] at hcount
  refine Eq.trans ?_ hcount
  unfold numJobsMatchingSuccessPolicy
  congr 1
  apply List.filter_congr
  intro job hjob
  obtain ⟨rjob, hrjob, i, -, hname, -⟩ := hjobs.indexed job ((successful_subperm hsorted).subset hjob)
  rw [get_of_lookup hname, Bool.eq_iff_iff, decide_eq_true_eq, List.mem_map]
  constructor
  · intro hmatch
    exact ⟨rjob, List.mem_filter.mpr ⟨hrjob, hmatch⟩, rfl⟩
  · rintro ⟨target, htarget, htname⟩
    rw [← htname]
    exact (List.mem_filter.mp htarget).2

/-- The comparison of the totals decides what the policy asks. -/
theorem successMet_iff (policy : SuccessPolicy) :
    numJobsExpectedToSucceed policy js ≤ numJobsMatchingSuccessPolicy policy owned.successful ↔
      SuccessMet policy js jobs (Succeeded gates js) := by
  have htargets : ∀ rjob ∈ targetedJobs policy js, rjob ∈ js.spec.replicatedJobs :=
    fun rjob hrjob => List.mem_of_mem_filter hrjob
  unfold numJobsExpectedToSucceed SuccessMet
  cases policy.operator with
  | operatorAll =>
    rw [numJobsMatching_eq_sum hjobs hnames hsorted]
    refine (sum_le_sum_iff fun rjob hrjob =>
      (successful_count hjobs hnames hsorted (htargets rjob hrjob)).1).trans ?_
    apply forall₂_congr
    intro rjob hrjob
    exact (successful_count hjobs hnames hsorted (htargets rjob hrjob)).2
  | operatorAny =>
    constructor
    · intro hcount
      obtain ⟨job, hjob⟩ := List.exists_mem_of_length_pos hcount
      obtain ⟨hsuccessful, hmatch⟩ := List.mem_filter.mp hjob
      obtain ⟨hmem, hkind⟩ := (mem_successful_iff hsorted).mp hsuccessful
      obtain ⟨rjob, hrjob, i, -, hname, -⟩ := hjobs.indexed job hmem
      rw [get_of_lookup hname] at hmatch
      exact ⟨rjob, List.mem_filter.mpr ⟨hrjob, hmatch⟩, job, hmem, hname, hkind⟩
    · rintro ⟨rjob, hrjob, job, hmem, hname, hkind⟩
      have hsuccessful := (mem_successful_iff hsorted).mpr ⟨hmem, hkind⟩
      have hmatch := (List.mem_filter.mp hrjob).2
      apply List.length_pos_of_mem (a := job)
      rw [List.mem_filter, get_of_lookup hname]
      exact ⟨hsuccessful, hmatch⟩

end Totals

/-! ## Attempts -/

/-- The labels of the Job name the counters of the JobSet. -/
def AtCounters (gates : FeatureGates) (js : JobSet) (job : Job) : Prop :=
  restartLabel job = some (js.status.restarts : ℤ) ∧
    (gates.restartJob = true → ∀ (n : ℤ) (i : ℕ), jobRestartLabel job = some n →
      jobIndexLabel job = some (i : ℤ) →
        n = individualCounter js (job.labels.get replicatedJobNameKey) i)

/-- The labels were written when the counters were at most what they are in this copy of
the JobSet. -/
def NotAhead (gates : FeatureGates) (js : JobSet) (job : Job) : Prop :=
  (∀ r, restartLabel job = some r → r ≤ js.status.restarts) ∧
    (gates.restartJob = true → ∀ (n : ℤ) (i : ℕ), jobRestartLabel job = some n →
      jobIndexLabel job = some (i : ℤ) →
        n ≤ individualCounter js (job.labels.get replicatedJobNameKey) i)

/-- The comparison of the individual attempts, for a Job that was sorted. -/
theorem outdatedIndividually_of_atCounters {js : JobSet} {job : Job} {outdated : Bool}
    (h : outdatedIndividually js job = .ok outdated)
    (hat : ∀ (n : ℤ) (i : ℕ), jobRestartLabel job = some n → jobIndexLabel job = some (i : ℤ) →
      n = individualCounter js (job.labels.get replicatedJobNameKey) i) : outdated = false := by
  obtain ⟨name, hname, h⟩ := except_bind_ok h
  obtain ⟨indexStr, hindexStr, h⟩ := except_bind_ok h
  obtain ⟨index, hindex, h⟩ := except_bind_ok h
  unfold jobRestartLabel jobIndexLabel at hat
  rw [get_of_lookup (requireLabel_ok hname), requireLabel_ok hindexStr] at hat
  cases hl : job.labels.lookup jobRestartAttemptKey with
  | none =>
    rw [hl] at h
    cases h
    rfl
  | some text =>
    rw [hl] at h hat
    obtain ⟨n, hn, h⟩ := except_bind_ok h
    obtain ⟨target, htarget, h⟩ := except_bind_ok h
    obtain ⟨i, hi, -, hget⟩ := indexGo_ok htarget
    cases h
    have hequal := hat n i (requireInt_ok hn) (hi ▸ requireInt_ok hindex)
    unfold individualCounter at hequal
    rw [hget] at hequal
    simp [hequal]

/-- A sorted Job that is not ahead of the counters is of the current attempt if its labels
name them. -/
theorem currentJob_iff_atCounters {gates : FeatureGates} {js : JobSet} {job : Job} {b : Bucket}
    (hclass : classifyJob gates js job = .ok b) (h : NotAhead gates js job) :
    CurrentJob gates js job ↔ AtCounters gates js job := by
  constructor
  · rintro ⟨⟨r, hr, hle⟩, hindividual⟩
    constructor
    · rw [hr, le_antisymm (h.1 r hr) hle]
    · intro hgate n i hn hi
      obtain ⟨name, index, hname, hindex, hcounter⟩ :=
        outdatedIndividually_false (hindividual hgate)
      obtain ⟨i', hi', -, hle'⟩ := hcounter n hn
      have hsame : i = i' := by
        rw [hindex, hi'] at hi
        simpa using hi.symm
      have hge := h.2 hgate n i hn hi
      rw [get_of_lookup hname, hsame] at hge
      rw [get_of_lookup hname, hsame]
      exact le_antisymm hge hle'
  · rintro ⟨hr, hindividual⟩
    refine ⟨⟨_, hr, le_refl _⟩, fun hgate => ?_⟩
    obtain ⟨r, hlabel, hbody⟩ := except_bind_ok hclass
    have hparse : some r = some (js.status.restarts : ℤ) := (requireInt_ok hlabel).symm.trans hr
    rw [Option.some.inj hparse, if_neg (lt_irrefl _), if_pos hgate] at hbody
    obtain ⟨outdated, houtdated, -⟩ := except_bind_ok hbody
    rw [houtdated, outdatedIndividually_of_atCounters houtdated (hindividual hgate)]

/-- The success policy is exact. When it is reached with a successful Job, the JobSet is
completed if, under `All`, every index of every target has a successful Job of the current
attempt, and, under `Any`, some target has one; otherwise the reconcile goes on. A Job is of
the current attempt if its labels are not behind the counters: they name the counters, unless
the copy of the JobSet is older than the Job. -/
theorem successPolicy_exact {gates : FeatureGates} {js : JobSet} {jobs : List Job} {owned : ChildJobs}
    {policy : SuccessPolicy} {p : Pass} (hnames : js.jobNames.Nodup)
    (hpolicy : js.spec.successPolicy = some policy) (hlabels : ∀ job ∈ jobs, LabelledBy js job)
    (hdistinct : (jobs.map (·.name)).Nodup)
    (hsorted : getChildJobs gates js jobs = .ok owned) (hsome : owned.successful ≠ [])
    (hspec : p.js.spec = js.spec) :
    (SuccessMet policy js jobs (Succeeded gates js) →
      executeSuccessPolicy owned.successful p = readClock >>= fun now =>
        pure (some (setJobSetCompletedCondition now p))) ∧
    (¬ SuccessMet policy js jobs (Succeeded gates js) →
      executeSuccessPolicy owned.successful p = pure none) ∧
    ∀ job ∈ jobs, NotAhead gates js job →
      (CurrentJob gates js job ↔ AtCounters gates js job) := by
  have hjobs := childrenOk_of_labelledBy hlabels hdistinct
  have hiff := successMet_iff hjobs hnames hsorted policy
  have hmet : successPolicyMet p.js owned.successful = .ok (decide
      (numJobsExpectedToSucceed policy js ≤
        numJobsMatchingSuccessPolicy policy owned.successful)) := by
    unfold successPolicyMet numJobsExpectedToSucceed
    rw [hspec, hpolicy]
  unfold executeSuccessPolicy
  rw [if_neg hsome, hmet]
  refine ⟨fun h => ?_, fun h => ?_, fun job hjob hnot => ?_⟩
  · rw [decide_eq_true (hiff.mpr h)]
    rfl
  · rw [decide_eq_false fun hle => h (hiff.mp hle)]
    rfl
  · obtain ⟨b, hclass⟩ := getChildJobs_classified hsorted hjob
    exact currentJob_iff_atCounters hclass hnot

/-- A JobSet that is complete when the only Job of `a` has succeeded. -/
def firstDecides : JobSet :=
  let js := plainSet [.single "a" 1, .single "b" 2] 1 .recreate
  { js with spec := { js.spec with successPolicy := some ⟨.operatorAll, ["a"]⟩ } }

/-- A Job of the JobSet as it was built, with the given status. -/
def builtWith (js : JobSet) (rjob : ReplicatedJob) (jobIdx : ℕ) (status : JobStatus) : Job :=
  match constructJob (plainEnv restartJobGates).platform restartJobGates js rjob jobIdx with
  | .ok job => { job with status := status }
  | .error _ => Job.child js.name rjob.name "" status

def firstComplete : Job := builtWith firstDecides (.single "a" 1) 0
  ⟨[⟨.jobComplete, .conditionTrue, "", "", 0⟩], 0, none, 1, some 0⟩

theorem labelledBy_builtWith {js : JobSet} (hnames : js.jobNames.Nodup)
    (hlists : RestartListsComplete js) {rjob : ReplicatedJob} (hr : rjob ∈ js.spec.replicatedJobs)
    {jobIdx : ℕ} (hi : jobIdx < rjob.replicas) (status : JobStatus) :
    LabelledBy js (builtWith js rjob jobIdx status) := by
  obtain ⟨built, hbuilt⟩ := constructJob_exists (plainEnv restartJobGates).platform hnames
    (fun _ => hlists) hr hi
  refine ⟨(plainEnv restartJobGates).platform, restartJobGates, js.status, rjob, hr, jobIdx, hi,
    built, hbuilt, ?_⟩
  unfold builtWith
  rw [hbuilt]
  exact ⟨rfl, rfl⟩

theorem labelledBy_firstComplete : LabelledBy firstDecides firstComplete := by
  have hlists : RestartListsComplete firstDecides := fun rjs hrjs => by
    simp [firstDecides, plainSet, JobSet.zero, JobSetStatus.new] at hrjs
  exact labelledBy_builtWith (by decide) hlists List.mem_cons_self (by decide) _

/-- The Jobs of `b` are not waited for. -/
theorem successPolicy_exact_first :
    SuccessMet ⟨.operatorAll, ["a"]⟩ firstDecides [firstComplete]
      (Succeeded restartJobGates firstDecides) ∧
    executeSuccessPolicy [firstComplete] (.start firstDecides) = readClock >>= fun now =>
      pure (some (setJobSetCompletedCondition now (.start firstDecides))) := by
  have hlabels : ∀ job ∈ [firstComplete], LabelledBy firstDecides job := by
    intro job hjob
    rw [List.mem_singleton.mp hjob]
    exact labelledBy_firstComplete
  have hsorted : getChildJobs restartJobGates firstDecides [firstComplete] =
      .ok ⟨[], [firstComplete], [], []⟩ := by
    have hclass : classifyJob restartJobGates firstDecides firstComplete = .ok .successful := by
      decide +kernel
    unfold getChildJobs
    rw [hclass]
    rfl
  have hnames : firstDecides.jobNames.Nodup := by decide
  have hmet : SuccessMet ⟨.operatorAll, ["a"]⟩ firstDecides [firstComplete]
      (Succeeded restartJobGates firstDecides) := by
    have hjobs := childrenOk_of_labelledBy hlabels (List.nodup_singleton _)
    apply (successMet_iff hjobs hnames hsorted _).mp
    decide +kernel
  have h := successPolicy_exact (p := .start firstDecides) hnames rfl hlabels
    (List.nodup_singleton _) hsorted (by simp) rfl
  exact ⟨hmet, h.1 hmet⟩

end JobSetOperator
