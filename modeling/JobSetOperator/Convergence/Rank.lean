import JobSetOperator.Convergence.Passes
import JobSetOperator.Library.Keyed

/-!
# What every reconcile brings down

A reconcile that writes brings the JobSet closer to the end. The failed Jobs of the
current attempts pay for restarts, since new Jobs do not fail; in one attempt the Jobs
to delete, to create, to suspend or resume and the missing service and claims go down;
and when there is nothing left to do but the status, one write settles it.
-/
namespace JobSetOperator.Convergence

open Library Library.Program

/-! ## Measures -/

/-- An active Job that is not suspended as the JobSet asks for. -/
def misfit (js : JobSet) (job : Job) : Bool :=
  decide (bucket js job = .active) && decide (jobSuspended job ≠ jobSetSuspended js)

/-- The restarts a failed Job can still cause. -/
def debt (js : JobSet) (job : Job) : ℕ :=
  if finishedBucket job = .failed then
    ((restartLabel job).getD 0 + 1 - (js.status.restarts : ℤ)).toNat
  else 0

namespace Site

variable (s : Site)

def count (b : Bucket) : ℕ := s.jobs.countP fun job => decide (bucket s.js job = b)

/-- The Jobs of the current attempt. -/
def current : ℕ := s.jobs.countP fun job => decide (bucket s.js job ≠ .previous)

def misfits : ℕ := s.jobs.countP (misfit s.js)

def debts : ℕ := (s.jobs.map (debt s.js)).sum

def missingClaims : List String := (claimNames s.js).filter fun name => decide (name ∉ s.claims)

/-- What is left to do in one attempt. -/
def work : ℕ :=
  s.count .previous + s.misfits + ((slots s.js).length - s.current) +
    (if serviceNeeded s.js s.service then 1 else 0) + s.missingClaims.length

end Site

/-! ## Lists of Jobs -/

/-- The Jobs without those of a bucket, by name. -/
theorem filter_names {jobs : List Job} (hdistinct : (jobs.map (·.name)).Nodup) (p : Job → Bool) :
    jobs.filter (fun job => decide (job.name ∉ (jobs.filter p).map (·.name))) =
      jobs.filter fun job => !p job := by
  apply List.filter_congr
  intro job hjob
  cases hp : p job with
  | true =>
    have hmem : job.name ∈ (jobs.filter p).map (·.name) :=
      List.mem_map_of_mem (List.mem_filter.mpr ⟨hjob, hp⟩)
    simp only [hmem, not_true_eq_false, decide_false, Bool.not_true]
  | false =>
    have hnot : job.name ∉ (jobs.filter p).map (·.name) := by
      intro hmem
      obtain ⟨other, hother, hname⟩ := List.mem_map.mp hmem
      obtain ⟨hother, hpo⟩ := List.mem_filter.mp hother
      rw [eq_of_key hdistinct hother hjob hname, hp] at hpo
      cases hpo
    simp only [hnot, not_false_eq_true, decide_true, Bool.not_false]

theorem liveJobs_eq {jobs : List Job} (h : ∀ job ∈ jobs, job.deletionTimestamp = none) :
    liveJobs jobs = jobs := by
  apply List.filter_eq_self.mpr
  intro job hjob
  rw [h job hjob]
  rfl

section Reworked

variable {suspend : Bool} {names : List String} {jobs jobs' : List Job}

/-- What depends on the labels and the conditions only is kept. -/
theorem map_reworked {β : Type} (h : List.Forall₂ (Reworked suspend names) jobs jobs')
    {g : Job → β} (hg : ∀ a b : Job, b.labels = a.labels →
      b.status.conditions = a.status.conditions → g b = g a) : jobs'.map g = jobs.map g := by
  induction h with
  | nil => rfl
  | cons hfirst _ ih => rw [List.map_cons, List.map_cons, ih, hg _ _ hfirst.labels hfirst.conditions]

theorem names_reworked (h : List.Forall₂ (Reworked suspend names) jobs jobs') :
    jobs'.map (·.name) = jobs.map (·.name) := by
  induction h with
  | nil => rfl
  | cons hfirst _ ih => rw [List.map_cons, List.map_cons, ih, hfirst.name]

theorem jobFinished_congr {a b : Job} (h : b.status.conditions = a.status.conditions) :
    jobFinished b = jobFinished a := by
  unfold jobFinished
  rw [h]

theorem finishedBucket_congr {a b : Job} (h : b.status.conditions = a.status.conditions) :
    finishedBucket b = finishedBucket a := by
  unfold finishedBucket
  rw [jobFinished_congr h]

theorem bucket_congr (js : JobSet) {a b : Job} (hlabels : b.labels = a.labels)
    (h : b.status.conditions = a.status.conditions) : bucket js b = bucket js a := by
  unfold bucket restartLabel
  rw [hlabels, finishedBucket_congr h]

theorem debt_congr (js : JobSet) {a b : Job} (hlabels : b.labels = a.labels)
    (h : b.status.conditions = a.status.conditions) : debt js b = debt js a := by
  unfold debt restartLabel
  rw [hlabels, finishedBucket_congr h]

theorem countP_bucket_reworked (js : JobSet) (f : Bucket → Bool)
    (h : List.Forall₂ (Reworked suspend names) jobs jobs') :
    jobs'.countP (fun job => f (bucket js job)) = jobs.countP fun job => f (bucket js job) := by
  have hmap := map_reworked h fun a b => bucket_congr js
  have hcount : ∀ l : List Job, l.countP (fun job => f (bucket js job)) = (l.map (bucket js)).countP f :=
    fun l => by rw [List.countP_map]; rfl
  rw [hcount, hcount, hmap]

/-- Every misfit that is chosen is one no longer, and no other Job becomes one. -/
theorem misfits_reworked (js : JobSet)
    (h : List.Forall₂ (Reworked (jobSetSuspended js) names) jobs jobs') :
    jobs'.countP (misfit js) +
        jobs.countP (fun job => misfit js job && decide (job.name ∈ names)) =
      jobs.countP (misfit js) := by
  induction h with
  | nil => rfl
  | @cons a b _ _ hfirst _ ih =>
    simp only [List.countP_cons]
    by_cases hname : a.name ∈ names
    · have hfit : misfit js b = false := by
        unfold misfit
        rw [hfirst.chosen hname]
        simp
      simp only [hfit, hname, decide_true, Bool.and_true]
      simp only [Bool.false_eq_true, if_false]
      omega
    · rw [hfirst.other hname]
      simp only [hname, decide_false, Bool.and_false, Bool.false_eq_true, if_false]
      omega

end Reworked

/-! ## Other statuses -/

/-- The status alone has changed, and no restart is counted. -/
structure SameAttempt (js js' : JobSet) : Prop where
  same : js' = { js with status := js'.status }
  restarts : js'.status.restarts = js.status.restarts

section SameAttempt

variable {js js' : JobSet}

theorem SameAttempt.refl (js : JobSet) : SameAttempt js js := ⟨rfl, rfl⟩

theorem bucket_of_restarts (h : js'.status.restarts = js.status.restarts) :
    bucket js' = bucket js := by
  funext job
  unfold bucket
  rw [h]

theorem SameAttempt.misfit (h : SameAttempt js js') :
    JobSetOperator.Convergence.misfit js' = JobSetOperator.Convergence.misfit js := by
  have hspec : jobSetSuspended js' = jobSetSuspended js := by
    rw [h.same]
    rfl
  funext job
  unfold JobSetOperator.Convergence.misfit
  rw [bucket_of_restarts h.restarts, hspec]

theorem SameAttempt.debt (h : SameAttempt js js') :
    JobSetOperator.Convergence.debt js' = JobSetOperator.Convergence.debt js := by
  funext job
  unfold JobSetOperator.Convergence.debt
  rw [h.restarts]

theorem serviceNeeded_congr (h : SameAttempt js js') (service : Option (Bool × List ServicePort)) :
    serviceNeeded js' service = serviceNeeded js service := by
  rw [h.same]
  rfl

theorem claimNames_congr (h : SameAttempt js js') : claimNames js' = claimNames js := by
  rw [h.same]
  rfl

theorem labelledBy_of_status {job : Job} (hjs : js' = { js with status := js'.status })
    (h : LabelledBy js job) : LabelledBy js' job := by
  obtain ⟨platform, gates, status, rjob, hr, i, hi, built, hbuilt, hname, hlabels⟩ := h
  refine ⟨platform, gates, status, rjob, ?_, i, hi, built, ?_, hname, hlabels⟩
  · rw [hjs]
    exact hr
  · rw [hjs]
    exact hbuilt

end SameAttempt

/-! ## Names -/

/-- A Job of a JobSet has the name of one of the indexes. -/
theorem name_of_labelledBy {js : JobSet} {job : Job} (h : LabelledBy js job) :
    job.name ∈ (slots js).map (slotName js) := by
  obtain ⟨platform, gates, status, rjob, hr, i, hi, built, hbuilt, hname, -⟩ := h
  have hslot : built.name = slotName js (rjob, i) := (constructJob_builtFor hbuilt).name
  rw [hname, hslot]
  exact List.mem_map_of_mem (mem_indexes.mpr ⟨hr, hi⟩)

/-- There are no more Jobs than indexes. -/
theorem Sound.jobs_le {s : Site} (h : Sound s) : s.jobs.length ≤ (slots s.js).length := by
  have hsub : s.jobs.map (·.name) ⊆ (slots s.js).map (slotName s.js) := by
    intro name hname
    obtain ⟨job, hjob, rfl⟩ := List.mem_map.mp hname
    exact name_of_labelledBy (h.labelled job hjob)
  have hle := (List.subperm_of_subset h.distinct hsub).length_le
  simpa using hle

/-! ## Jobs of earlier attempts -/

/-- No Job is being deleted. -/
def Undeleted (s : Site) : Prop := ∀ job ∈ s.jobs, job.deletionTimestamp = none

/-- The Jobs of the current attempt. -/
def currentJobs (js : JobSet) (jobs : List Job) : List Job :=
  jobs.filter fun job => !decide (bucket js job = .previous)

section Cleared

variable {s : Site} (hs : Sound s) (hlive : Undeleted s)

include hs hlive

theorem delete_bucket (b : Bucket) :
    (Session.delete ⟨s, false⟩ ((liveJobs (s.owned.jobs b)).map (·.name))).jobs =
      s.jobs.filter fun job => !decide (bucket s.js job = b) := by
  have howned : s.owned.jobs b = s.jobs.filter fun job => decide (bucket s.js job = b) := by
    cases b <;> rfl
  have hall : liveJobs (s.owned.jobs b) = s.owned.jobs b := by
    apply liveJobs_eq
    intro job hjob
    rw [howned] at hjob
    exact hlive job (List.mem_of_mem_filter hjob)
  rw [hall, howned]
  exact filter_names hs.distinct _

theorem cleared_jobs : s.cleared.jobs = currentJobs s.js s.jobs := delete_bucket hs hlive .previous

end Cleared

section Current

variable (js : JobSet) (jobs : List Job)

theorem mem_currentJobs {job : Job} :
    job ∈ currentJobs js jobs ↔ job ∈ jobs ∧ bucket js job ≠ .previous := by
  simp [currentJobs]

theorem count_previous_currentJobs :
    (currentJobs js jobs).countP (fun job => decide (bucket js job = .previous)) = 0 := by
  rw [List.countP_eq_zero]
  intro job hjob
  simpa using (mem_currentJobs js jobs).mp hjob |>.2

theorem length_currentJobs :
    (currentJobs js jobs).countP (fun job => decide (bucket js job ≠ .previous)) =
      jobs.countP fun job => decide (bucket js job ≠ .previous) := by
  unfold currentJobs
  rw [List.countP_filter]
  congr 1
  funext job
  simp

theorem misfits_currentJobs :
    (currentJobs js jobs).countP (misfit js) = jobs.countP (misfit js) := by
  unfold currentJobs
  rw [List.countP_filter]
  congr 1
  funext job
  unfold misfit
  cases bucket js job <;> simp

theorem debts_currentJobs :
    ((currentJobs js jobs).map (debt js)).sum ≤ (jobs.map (debt js)).sum :=
  (List.filter_sublist.map _).sum_le_sum fun _ _ => Nat.zero_le _

end Current

/-! ## New Jobs -/

section Stored

variable {js : JobSet} {slots : List (ReplicatedJob × ℕ)} {stored : List Job}

theorem storedNames (h : List.Forall₂ (StoredFor js) slots stored) :
    stored.map (·.name) = slots.map (slotName js) := by
  induction h with
  | nil => rfl
  | cons hfirst _ ih => rw [List.map_cons, List.map_cons, ih, hfirst.name]

theorem debt_of_active {job : Job} (h : bucket js job = .active) : debt js job = 0 := by
  unfold debt
  unfold bucket at h
  split_ifs at h
  rw [h, if_neg (by decide)]

theorem count_previous_stored (h : List.Forall₂ (StoredFor js) slots stored) :
    stored.countP (fun job => decide (bucket js job = .previous)) = 0 := by
  rw [List.countP_eq_zero]
  intro job hjob
  obtain ⟨slot, -, hstored⟩ := exists_slot_of_created h hjob
  simp [hstored.bucket]

theorem current_stored (h : List.Forall₂ (StoredFor js) slots stored) :
    stored.countP (fun job => decide (bucket js job ≠ .previous)) = stored.length := by
  rw [List.countP_eq_length]
  intro job hjob
  obtain ⟨slot, -, hstored⟩ := exists_slot_of_created h hjob
  simp [hstored.bucket]

theorem misfits_stored (h : List.Forall₂ (StoredFor js) slots stored) :
    stored.countP (misfit js) = 0 := by
  rw [List.countP_eq_zero]
  intro job hjob
  obtain ⟨slot, -, hstored⟩ := exists_slot_of_created h hjob
  simp [misfit, hstored.suspend]

theorem debts_stored (h : List.Forall₂ (StoredFor js) slots stored) :
    (stored.map (debt js)).sum = 0 := by
  rw [List.sum_eq_zero]
  intro n hn
  obtain ⟨job, hjob, rfl⟩ := List.mem_map.mp hn
  obtain ⟨slot, -, hstored⟩ := exists_slot_of_created h hjob
  exact debt_of_active hstored.bucket

end Stored

/-! ## A running pass -/

theorem Session.record_site (s : Session) (p : Pass) :
    (s.record p).toSite = { s.toSite with js := (s.record p).js } := by
  unfold Session.record
  split_ifs <;> rfl

/-- What a running pass leaves. -/
structure RunningEnd (env : Env) (s s' : Site) (stored : List Job) : Prop where
  js : SameAttempt s.js s'.js
  jobs : List.Forall₂ (Reworked (jobSetSuspended s.js) ((s.toRework env).map (·.name)))
    (currentJobs s.js s.jobs ++ stored) s'.jobs
  service : serviceNeeded s'.js s'.service = false
  claims : s'.missingClaims = []
  finished : jobSetFinished s'.js = jobSetFinished s.js

section Running

variable {env : Env} {s : Site}

theorem missingClaims_addClaims (names claims : List String) :
    names.filter (fun name => decide (name ∉ addClaims claims names)) = [] := by
  rw [List.filter_eq_nil_iff]
  intro name hname
  simp [mem_addClaims, hname]

theorem serviceNeeded_serve (s : Session) (js : JobSet) :
    serviceNeeded js (s.serve js).service = false := by
  cases hneeded : serviceNeeded js s.service with
  | true =>
    rw [Session.serve_of_needed hneeded]
    exact not_serviceNeeded_created js
  | false => rwa [Session.serve_of_not_needed hneeded]

theorem sameAttempt_of_drafts {p : Pass} (h : Drafts env s p) {mid : Session}
    (hjs : mid.js = s.js) : SameAttempt s.js (mid.record p).js ∧
      jobSetFinished (mid.record p).js = jobSetFinished s.js := by
  unfold Session.record
  split_ifs
  · dsimp only
    rw [hjs]
    have hp : { s.js with status := p.js.status } = p.js := by
      rw [h.js]
    rw [hp]
    refine ⟨⟨?_, ?_⟩, h.finished⟩
    · rw [h.js]
    · rw [h.js]
  · rw [hjs]
    exact ⟨SameAttempt.refl _, rfl⟩

/-- The Jobs a running pass suspends or resumes are misfits. -/
theorem misfit_of_toRework {job : Job} (h : job ∈ s.toRework env) :
    job ∈ s.jobs ∧ misfit s.js job = true := by
  unfold Site.toRework reworkedJobs toSuspend resumedBy toResume at h
  have hactive : ∀ job ∈ s.owned.active, job ∈ s.jobs ∧ bucket s.js job = .active := fun job hjob =>
    mem_snapshot.mp (show job ∈ (snapshot s.js s.jobs).jobs .active from hjob)
  split_ifs at h with hsuspended
  · obtain ⟨hjob, hnot⟩ := List.mem_filter.mp h
    obtain ⟨hmem, hbucket⟩ := hactive job hjob
    refine ⟨hmem, ?_⟩
    simp only [Bool.not_eq_eq_eq_not, Bool.not_true] at hnot
    simp [misfit, hbucket, hsuspended, hnot]
  · obtain ⟨rjob, -, hjob⟩ := List.mem_flatMap.mp h
    obtain ⟨hjob, hresume⟩ := List.mem_filter.mp hjob
    obtain ⟨hmem, hbucket⟩ := hactive job (List.mem_of_mem_filter hjob)
    refine ⟨hmem, ?_⟩
    simp [misfit, hbucket, hsuspended, hresume]

/-- The indexes a running pass fills have different names. -/
theorem freeSlots_nodup (hs : Sound s) : ((s.freeSlots env).map (slotName s.js)).Nodup := by
  have hsub : (s.freeSlots env).Sublist (slots s.js) := by
    unfold Site.freeSlots
    split_ifs
    · exact List.nil_sublist _
    · apply List.filter_sublist.trans
      exact (turns_sublist _ _ _ _).flatMap _
  exact (slotNames_nodup hs.names).sublist (hsub.map _)

theorem runningEnd (hs : Sound s) (hlive : Undeleted s) {stored : List Job} {mid : Session} {p : Pass}
    (created : List.Forall₂ (StoredFor s.js) (s.freeSlots env) stored)
    (reworked : ((s.cleared.provide s.js).create stored).Reworks (jobSetSuspended s.js)
      ((s.toRework env).map (·.name)) mid) (drafts : Drafts env s p) :
    RunningEnd env s { (mid.record p).toSite with jobs := liveJobs (mid.record p).jobs } stored := by
  have hmidjs : mid.js = s.js := (congrArg Site.js reworked.site).trans (created_js stored)
  have hservice : mid.service = (s.cleared.serve s.js).service := by
    have hsite := congrArg Site.service reworked.site
    have hstart : ((s.cleared.provide s.js).create stored).service =
        (s.cleared.serve s.js).service := rfl
    exact hsite.trans hstart
  have hclaims : mid.claims = addClaims s.claims (claimNames s.js) := by
    have hsite := congrArg Site.claims reworked.site
    have hstart : ((s.cleared.provide s.js).create stored).claims =
        addClaims s.claims (claimNames s.js) := by
      unfold Session.create Session.provide Session.claim Session.serve
      split_ifs <;> rfl
    exact hsite.trans hstart
  have hforall := reworked.jobs
  rw [created_jobs, cleared_jobs hs hlive] at hforall
  obtain ⟨hsame, hfinished⟩ := sameAttempt_of_drafts drafts hmidjs
  have hrecord := Session.record_site mid p
  have hrecordjobs : (mid.record p).jobs = mid.jobs := by rw [hrecord]
  have hmidlive : liveJobs mid.jobs = mid.jobs := by
    apply liveJobs_eq
    intro job' hjob'
    obtain ⟨job, hjob, hreworked⟩ := exists_of_forall₂ hforall hjob'
    rw [hreworked.deletionTimestamp]
    rcases List.mem_append.mp hjob with hold | hnew
    · exact hlive job ((mem_currentJobs _ _).mp hold).1
    · obtain ⟨slot, -, hstored⟩ := exists_slot_of_created created hnew
      exact hstored.live
  constructor
  · exact hsame
  · dsimp only
    rw [hrecordjobs, hmidlive]
    exact hforall
  · dsimp only
    rw [hrecord]
    dsimp only
    rw [hservice, serviceNeeded_congr hsame]
    exact serviceNeeded_serve _ _
  · unfold Site.missingClaims
    rw [hrecord]
    dsimp only
    rw [hclaims, claimNames_congr hsame]
    exact missingClaims_addClaims _ _
  · exact hfinished

/-- Jobs that are kept, created and suspended or resumed are again the JobSet's own and have
different names. -/
theorem sound_reworked (hs : Sound s) {js' : JobSet} (hjs : js' = { s.js with status := js'.status })
    {kept stored jobs' left : List Job} {suspend : Bool} {names : List String}
    (hkept : kept.Sublist s.jobs)
    (created : List.Forall₂ (StoredFor s.js) (s.freeSlots env) stored)
    (h : List.Forall₂ (Reworked suspend names) (kept ++ stored) jobs') (hleft : left.Sublist jobs')
    (service : Option (Bool × List ServicePort)) (claims : List String) :
    Sound ⟨js', left, service, claims⟩ := by
  have hspec : js'.spec = s.js.spec := by rw [hjs]
  constructor
  · unfold JobSet.jobNames
    rw [hspec]
    exact hs.names
  · rw [hjs]
    exact hs.internal
  · rw [hspec]
    exact hs.ttl
  · intro job' hjob'
    obtain ⟨job, hjob, hreworked⟩ := exists_of_forall₂ h (hleft.subset hjob')
    have hlabelled : LabelledBy s.js job := by
      rcases List.mem_append.mp hjob with hold | hnew
      · exact hs.labelled job (hkept.subset hold)
      · obtain ⟨slot, -, hstoredFor⟩ := exists_slot_of_created created hnew
        exact hstoredFor.labelled
    obtain ⟨platform, gates, status, rjob, hr, i, hi, built, hbuilt, hname, hlabels⟩ :=
      labelledBy_of_status hjs hlabelled
    exact ⟨platform, gates, status, rjob, hr, i, hi, built, hbuilt, hreworked.name.trans hname,
      hreworked.labels.trans hlabels⟩
  · apply List.Nodup.sublist (hleft.map _)
    rw [names_reworked h, List.map_append, storedNames created]
    apply List.Nodup.append
    · exact hs.distinct.sublist (hkept.map _)
    · exact freeSlots_nodup hs
    · intro name hold hnew
      obtain ⟨slot, hslot, rfl⟩ := List.mem_map.mp hnew
      obtain ⟨-, -, hfree⟩ := mem_freeSlots hslot
      exact hfree ((hkept.map _).subset hold)

theorem RunningEnd.sound {s' : Site} {stored : List Job} (h : RunningEnd env s s' stored)
    (hs : Sound s) (created : List.Forall₂ (StoredFor s.js) (s.freeSlots env) stored) :
    Sound s' :=
  sound_reworked hs h.js.same List.filter_sublist created h.jobs (List.Sublist.refl _) _ _

/-- No Job of an earlier attempt is left. -/
theorem RunningEnd.previous {s' : Site} {stored : List Job} (h : RunningEnd env s s' stored)
    (created : List.Forall₂ (StoredFor s.js) (s.freeSlots env) stored) :
    s'.count .previous = 0 := by
  unfold Site.count
  rw [bucket_of_restarts h.js.restarts,
    countP_bucket_reworked s.js (fun b => decide (b = .previous)) h.jobs, List.countP_append,
    count_previous_currentJobs, count_previous_stored created]

theorem RunningEnd.current {s' : Site} {stored : List Job} (h : RunningEnd env s s' stored)
    (created : List.Forall₂ (StoredFor s.js) (s.freeSlots env) stored) :
    s'.current = s.current + stored.length := by
  unfold Site.current
  rw [bucket_of_restarts h.js.restarts,
    countP_bucket_reworked s.js (fun b => decide (b ≠ .previous)) h.jobs, List.countP_append,
    length_currentJobs, current_stored created]

/-- The misfits that are left, and those that are suspended or resumed. -/
theorem RunningEnd.misfits {s' : Site} {stored : List Job} (h : RunningEnd env s s' stored)
    (created : List.Forall₂ (StoredFor s.js) (s.freeSlots env) stored) :
    s'.misfits ≤ s.misfits ∧ (s.toRework env ≠ [] → s'.misfits < s.misfits) := by
  have hcount := misfits_reworked s.js h.jobs
  have hbefore : (currentJobs s.js s.jobs ++ stored).countP (misfit s.js) = s.misfits := by
    rw [List.countP_append, misfits_currentJobs, misfits_stored created]
    rfl
  have hafter : s'.jobs.countP (misfit s.js) = s'.misfits := by
    unfold Site.misfits
    rw [h.js.misfit]
  rw [hbefore, hafter] at hcount
  constructor
  · omega
  · intro hne
    obtain ⟨job, hjob⟩ := List.exists_mem_of_ne_nil _ hne
    obtain ⟨hmem, hmisfit⟩ := misfit_of_toRework hjob
    have hcurrent : job ∈ currentJobs s.js s.jobs := by
      rw [mem_currentJobs]
      refine ⟨hmem, fun hprevious => ?_⟩
      simp [misfit, hprevious] at hmisfit
    have hpos : 0 < (currentJobs s.js s.jobs ++ stored).countP fun job =>
        misfit s.js job && decide (job.name ∈ (s.toRework env).map (·.name)) := by
      rw [List.countP_pos_iff]
      refine ⟨job, List.mem_append_left _ hcurrent, ?_⟩
      rw [hmisfit, decide_eq_true (List.mem_map_of_mem hjob)]
      rfl
    omega

theorem RunningEnd.debts {s' : Site} {stored : List Job} (h : RunningEnd env s s' stored)
    (created : List.Forall₂ (StoredFor s.js) (s.freeSlots env) stored) : s'.debts ≤ s.debts := by
  unfold Site.debts
  rw [h.js.debt, map_reworked h.jobs fun a b => debt_congr s.js, List.map_append, List.sum_append,
    debts_stored created]
  exact debts_currentJobs s.js s.jobs

/-- Nothing is left to do in the attempt but to write the status. -/
structure Site.Idle (env : Env) (s : Site) : Prop where
  previous : s.count .previous = 0
  slots : s.freeSlots env = []
  rework : s.toRework env = []
  service : serviceNeeded s.js s.service = false
  claims : s.missingClaims = []

/-- A running pass does what is left to do. -/
theorem RunningEnd.work {s' : Site} {stored : List Job} (h : RunningEnd env s s' stored)
    (hs : Sound s)
    (created : List.Forall₂ (StoredFor s.js) (s.freeSlots env) stored) :
    s'.work ≤ s.work ∧ (¬ s.Idle env → s'.work < s.work) := by
  have hsound := h.sound hs created
  have hbound : s'.current ≤ (slots s'.js).length :=
    List.countP_le_length.trans hsound.jobs_le
  have hslots : slots s'.js = slots s.js := by
    rw [h.js.same]
    rfl
  have hprevious := h.previous created
  have hcurrent := h.current created
  obtain ⟨hmisfits, hstrict⟩ := h.misfits created
  have hlength := created.length_eq
  rw [hslots] at hbound
  unfold Site.work
  rw [h.service, h.claims, hprevious, hslots]
  simp only [Bool.false_eq_true, if_false, List.length_nil]
  constructor
  · omega
  · intro hbusy
    by_contra hnot
    apply hbusy
    have hservice : serviceNeeded s.js s.service = false := by
      cases hneeded : serviceNeeded s.js s.service with
      | false => rfl
      | true =>
        rw [hneeded] at hnot
        simp only [if_true] at hnot
        omega
    constructor
    · omega
    · apply List.eq_nil_of_length_eq_zero
      omega
    · by_contra hne
      have hless := hstrict hne
      omega
    · exact hservice
    · apply List.eq_nil_of_length_eq_zero
      omega

end Running

end JobSetOperator.Convergence
