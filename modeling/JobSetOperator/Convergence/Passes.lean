import JobSetOperator.Convergence.Outcome

/-!
# Every reconcile has one of the outcomes

The stages of `Reconcile` in the order of the source, each started from the session
and the pass the stages before it leave. The last theorem is about the whole call.
-/
namespace JobSetOperator.Convergence

open Library Library.Program

/-- The end of `reconcile`: the status is still to be written. -/
def Ends (env : Env) (s : Site) (mid : Session) : Except String (Pass × ℤ) → Prop
  | .ok (p, requeueAfter) => Outcome env s (mid.record p) (.ok requeueAfter)
  | .error err => Outcome env s mid (.error err)

/-- The pass of a JobSet that has not finished, when the policies are about to decide. -/
def Opened (env : Env) (s : Site) (p : Pass) : Prop :=
  ∃ q, Asks (readyRequests s.js (s.counts env)) (entryPass env s.js s.owned) q ∧
    p = withoutStart (decide (s.js.status.startTime ≠ none)) q

theorem Opened.js {env : Env} {s : Site} {p : Pass} (h : Opened env s p) :
    ∃ status, p.js = { s.js with status := status } ∧ status.restarts = s.js.status.restarts := by
  obtain ⟨q, hasks, rfl⟩ := h
  have hq := hasks.js
  rw [entryPass_js] at hq
  unfold withoutStart
  split_ifs
  · refine ⟨{ q.js.status with startTime := none }, ?_, ?_⟩
    · unfold setStartTime
      dsimp only
      rw [hq]
    · rw [hq]
  · exact ⟨q.js.status, by rw [hq], by rw [hq]⟩

section Stages

variable {env : Env} (hgates : env.gates = gatesOff) {s : Site} (hs : Sound s)

theorem counts_listed : Listed (s.counts env) s.js.spec.replicatedJobs := fun _ hrjob =>
  ⟨_, calculated_find env.gates s.owned (List.mem_map_of_mem hrjob)⟩

include hs

/-- A Job of the snapshot is the only one of its name. -/
theorem eq_of_name {a b : Job} (ha : a ∈ s.jobs) (hb : b ∈ s.jobs) (h : a.name = b.name) : a = b :=
  List.inj_on_of_nodup_map hs.distinct ha hb h

theorem getChildJobs_owned (hgates : env.gates = gatesOff) :
    getChildJobs env.gates s.js s.jobs = .ok s.owned := by
  apply getChildJobs_eq
  · rw [hgates]
    rfl
  · exact fun job hjob => restartLabel_of_labelledBy (hs.labelled job hjob)

omit hs in
theorem mem_freeSlots {slot : ReplicatedJob × ℕ} (h : slot ∈ s.freeSlots env) :
    slot.1 ∈ s.js.spec.replicatedJobs ∧ slot.2 < slot.1.replicas ∧
      slotName s.js slot ∉ s.jobs.map (·.name) := by
  unfold Site.freeSlots at h
  split_ifs at h
  · cases h
  · obtain ⟨hslot, hfree⟩ := List.mem_filter.mp h
    obtain ⟨rjob, hrjob, hi⟩ := List.mem_flatMap.mp hslot
    obtain ⟨i, hlt, rfl⟩ := List.mem_map.mp hi
    refine ⟨(turns_sublist _ _ _ _).subset hrjob, List.mem_range.mp hlt, ?_⟩
    rw [decide_eq_true_eq] at hfree
    intro hmem
    obtain ⟨job, hjob, hname⟩ := List.mem_map.mp hmem
    exact hfree (List.mem_map.mpr ⟨job, mem_snapshot_all.mpr hjob, hname⟩)

include hgates

/-- The Jobs a running pass creates. -/
theorem storedFor_freeSlots {status : JobSetStatus} (hrestarts : status.restarts = s.js.status.restarts)
    {jobs stored : List Job}
    (hjobs : constructJobs env.platform env.gates { s.js with status := status } s.owned
      (s.turn env).1 = .ok jobs) (hstored : List.Forall₂ Stores jobs stored) :
    List.Forall₂ (StoredFor s.js) (s.freeSlots env) stored := by
  have hgate : env.gates.restartJob = false := by
    rw [hgates]
    rfl
  have hturns : ∀ rjob ∈ (s.turn env).1, rjob ∈ s.js.spec.replicatedJobs := fun _ h =>
    (turns_sublist _ _ _ _).subset h
  have hconstructed : List.Forall₂
      (Constructed env.platform env.gates { s.js with status := status }) (s.freeSlots env) jobs := by
    unfold Site.freeSlots
    cases hblocked : recreationBlocked s.js s.owned with
    | true =>
      have hnone := constructJobs_blocked env.platform env.gates
        (show recreationBlocked { s.js with status := status } s.owned = true from hblocked)
        (s.turn env).1
      cases hjobs.symm.trans hnone
      exact List.Forall₂.nil
    | false =>
      obtain ⟨jobs', hjobs', hconstructed⟩ := constructJobs_constructed env.platform
        (show ({ s.js with status := status } : JobSet).jobNames.Nodup from hs.names)
        (fun h => by cases hgate.symm.trans h) s.owned hturns hblocked
      cases hjobs.symm.trans hjobs'
      exact hconstructed
  have hmem : List.Forall₂ (fun slot job => slot ∈ s.freeSlots env ∧
      Constructed env.platform env.gates { s.js with status := status } slot job)
      (s.freeSlots env) jobs :=
    (List.forall₂_and_left _ _).mpr ⟨fun _ h => h, hconstructed⟩
  apply forall₂_trans _ hmem hstored
  rintro slot job stored ⟨hslot, hconstruct⟩ hstores
  obtain ⟨hrjob, hindex, -⟩ := mem_freeSlots hslot
  exact storedFor_of_constructed hrestarts hrjob hindex hconstruct hstores

omit hgates hs in
/-- A new Job is stored for one of the indexes. -/
theorem exists_slot_of_created {js : JobSet} {slots : List (ReplicatedJob × ℕ)} {stored : List Job}
    (hstored : List.Forall₂ (StoredFor js) slots stored) {job : Job}
    (hjob : job ∈ stored) : ∃ slot ∈ slots, StoredFor js slot job := by
  obtain ⟨i, hi, rfl⟩ := List.getElem_of_mem hjob
  have hi' : i < slots.length := hstored.length_eq ▸ hi
  exact ⟨_, List.getElem_mem hi', hstored.get hi' hi⟩

omit hgates hs in
theorem created_jobs (stored : List Job) :
    ((s.cleared.provide s.js).create stored).jobs = s.cleared.jobs ++ stored := by
  unfold Session.create Session.provide Session.claim Session.serve
  split_ifs <;> rfl

omit hgates hs in
theorem created_js (stored : List Job) : ((s.cleared.provide s.js).create stored).js = s.js := by
  unfold Session.create Session.provide Session.claim Session.serve
  split_ifs <;> rfl

omit hgates in
/-- The Jobs of the snapshot are the ones the server has under their names. -/
theorem agrees_of_created {stored : List Job}
    (hstored : List.Forall₂ (StoredFor s.js) (s.freeSlots env) stored) {job : Job}
    (hjob : job ∈ s.jobs) : Agrees ((s.cleared.provide s.js).create stored).jobs job := by
  intro j hj hname
  rw [created_jobs] at hj
  rcases List.mem_append.mp hj with hold | hnew
  · obtain rfl := eq_of_name hs (List.mem_filter.mp hold).1 hjob hname
    exact ⟨rfl, rfl⟩
  · exfalso
    obtain ⟨slot, hslot, hfor⟩ := exists_slot_of_created hstored hnew
    obtain ⟨-, -, hfree⟩ := mem_freeSlots hslot
    exact hfree (List.mem_map.mpr ⟨job, hjob, hname.symm.trans hfor.name⟩)

/-- The Jobs of a JobSet that goes on. -/
theorem ensures_reconcileJobs (hphase : s.phase env = .running) {p : Pass} (hp : Opened env s p)
    (requeueAfter : ℤ) :
    Ensures serves (fun _ => True) (Ends env s) (s.cleared.provide s.js)
      (reconcileJobs env s.owned (s.counts env) requeueAfter p) := by
  have hgate : env.gates.restartJob = false := by
    rw [hgates]
    rfl
  obtain ⟨status, hjs, hrestarts⟩ := hp.js
  have hscaling : syncJobScaling env p.js s.owned.active = .done s.owned.active := by
    unfold syncJobScaling
    rw [hgates]
    rfl
  have hattempts : syncExecutionAttempts env s.owned.active s.owned.successful s.owned.failed p =
      .done p := by
    unfold syncExecutionAttempts nextExecutionAttempts
    rw [hgates]
    rfl
  have hlisted : Listed (s.counts env) s.js.spec.replicatedJobs := counts_listed
  unfold reconcileJobs
  rw [hscaling, done_bind, hattempts, done_bind]
  have hcreate := yields_reconcileReplicatedJobsLoop hgate
    (show p.js.jobNames.Nodup by rw [hjs]; exact hs.names) s.owned rfl
    (fun _ h => h) (show Listed (s.counts env) p.js.spec.replicatedJobs by rw [hjs]; exact hlisted)
    (fun _ => 0) (s.cleared.provide s.js)
  apply hcreate.bind
  rintro s₁ p₁ ⟨jobs, stored, hjobs, hstored, rfl, hstartup⟩
  have hjs₁ : ∃ status', p₁.js = { s.js with status := status' } :=
    ⟨p₁.js.status, by rw [hstartup.js, hjs]⟩
  obtain ⟨status₁, hjs₁⟩ := hjs₁
  rw [hjs] at hjobs hstartup
  have hcreated := storedFor_freeSlots hgates hs hrestarts hjobs hstored
  have hagrees : ∀ job ∈ s.owned.active,
      Agrees ((s.cleared.provide s.js).create stored).jobs job := fun job hjob =>
    agrees_of_created hs hcreated (List.mem_filter.mp hjob).1
  have hsuspend := yields_suspendOrResume env (p := p₁)
    (show Listed (s.counts env) p₁.js.spec.replicatedJobs by rw [hjs₁]; exact hlisted) _ hagrees
  apply hsuspend.bind
  rintro mid p₂ ⟨hreworks, hasks⟩
  rw [hjs₁] at hreworks hasks
  have hinPlace : reconcileInPlace env p₂ = .done p₂ := by
    unfold reconcileInPlace
    rw [hgates]
    simp [gatesOff]
  rw [hinPlace, done_bind]
  -- the start time was cleared between the requests, which do not look at it
  obtain ⟨q, hready, hq⟩ := hp
  obtain ⟨q₁, hstartup', hq₁⟩ := asks_withoutStart hstartup hq
  obtain ⟨q₂, hasks', rfl⟩ := asks_withoutStart hasks hq₁
  have hall := (hready.append hstartup').append hasks'
  exact Outcome.running hphase hcreated hreworks (drafts_of_asks hall)

theorem ensures_reconcileRunning (hphase : s.phase env = .running) {p : Pass}
    (hp : Opened env s p) (requeueAfter : ℤ) :
    Ensures serves (fun _ => True) (Ends env s) s.cleared
      (reconcileRunning env s.owned (s.counts env) requeueAfter p) := by
  obtain ⟨status, hjs, -⟩ := hp.js
  have hscheduling : schedulingConfigured env p.js = false := by
    unfold schedulingConfigured
    rw [hgates]
    rfl
  unfold reconcileRunning
  apply (yields_reconcileResources hscheduling s.cleared).bind
  rintro s' goOn ⟨rfl, rfl⟩
  have hstale : staleSchedulingJobs env p.js s.owned.active = false := by
    unfold staleSchedulingJobs
    rw [hscheduling]
    rfl
  rw [if_neg (by simp), if_neg (by simp [hstale])]
  have hprovide : s.cleared.provide p.js = s.cleared.provide s.js := by
    rw [hjs]
    rfl
  rw [hprovide]
  exact ensures_reconcileJobs hgates hs hphase hp requeueAfter

theorem ensures_reconcilePolicies (hmarked : jobSetMarkedForDeletion s.js = false)
    (hfinished : jobSetFinished s.js = false) {p : Pass} (hp : Opened env s p)
    (hu : Uncounting s.js p) (requeueAfter : ℤ) :
    Ensures serves (fun _ => True) (Ends env s) s.cleared
      (reconcilePolicies env s.owned (s.counts env) requeueAfter p) := by
  have hgate : env.gates.restartJob = false := by
    rw [hgates]
    rfl
  obtain ⟨status, hjs, hrestarts⟩ := hp.js
  have hspec : p.js.spec = s.js.spec := by rw [hjs]
  have hphase : s.phase env = s.decision env := by
    unfold Site.phase
    rw [if_neg (by simp [hmarked]), if_neg (by simp [hfinished])]
  unfold Site.decision at hphase
  unfold reconcilePolicies
  split_ifs with hfailed
  · rw [if_pos hfailed] at hphase
    unfold reconcileFailed
    apply ensures_readClock_bind
    intro now
    have herrs := policyErrs_iff hgate hspec now s.owned.failed
    cases hpolicy : executeFailurePolicy env.platform env.gates now s.owned.failed p with
    | error err =>
      rw [if_pos (herrs.mpr ⟨err, hpolicy⟩)] at hphase
      exact Outcome.unhandled hphase
    | ok p' =>
      have hok : ¬ policyErrs env s.js s.owned.failed = true := fun h => by
        obtain ⟨err, herr⟩ := herrs.mp h
        cases hpolicy.symm.trans herr
      rw [if_neg hok] at hphase
      obtain ⟨hupdate, hends⟩ := decides_of_executeFailurePolicy hgate hu hpolicy
      have hkeeps : ∀ now', resetStartTimeOnGlobalRestart env.gates now' p.js.status.restarts p' =
          p' := by
        intro now'
        unfold resetStartTimeOnGlobalRestart
        rw [hgates]
        rfl
      simp only [liftExcept, done_bind]
      apply ensures_readClock_bind
      intro now'
      rw [hkeeps]
      have hrecord : s.cleared.record p' =
          { s.cleared with js := { s.js with status := p'.js.status }, wrote := true } :=
        if_pos hupdate
      change Outcome env s (s.cleared.record p') _
      rw [hrecord]
      apply Outcome.decided hphase
      refine hends.imp (fun h => h) fun h => ⟨hfailed, ?_⟩
      rw [h, hjs, hrestarts]
  · rw [if_neg hfailed] at hphase
    unfold executeSuccessPolicy
    split_ifs with hnone
    · rw [if_pos hnone] at hphase
      rw [done_bind]
      exact ensures_reconcileRunning hgates hs hphase hp requeueAfter
    · rw [if_neg hnone, ← successPolicyMet_of_spec hspec] at hphase
      cases hmet : successPolicyMet p.js s.owned.successful with
      | error err =>
        rw [hmet] at hphase
        exact Outcome.unhandled hphase
      | ok completed =>
        rw [hmet] at hphase
        cases completed with
        | true =>
          simp only [liftExcept, done_bind, if_true]
          rw [Program.assoc]
          apply ensures_readClock_bind
          intro now
          have hcounts := hu.completed now
          have hrecord : s.cleared.record (setJobSetCompletedCondition now p) =
              { s.cleared with
                js := { s.js with status := (setJobSetCompletedCondition now p).js.status }
                wrote := true } :=
            if_pos hcounts.update
          change Outcome env s (s.cleared.record (setJobSetCompletedCondition now p)) _
          rw [hrecord]
          apply Outcome.decided hphase
          left
          rw [jobSetFinished_iff]
          exact Or.inl (ends_setJobSetCompletedCondition now p).isTrue
        | false => exact ensures_reconcileRunning hgates hs hphase hp requeueAfter

omit hs in
/-- The pass of an unfinished JobSet up to the policies. -/
theorem opened_of_readings (now now' : Time) :
    Opened env s (syncActiveDeadlineStartTime env.gates now'
      (clearRestarting (s.counts env) now (entryPass env s.js s.owned))) := by
  have hentry := entryPass_js env s.js s.owned
  have hready : Asks (readyRequests s.js (s.counts env)) (entryPass env s.js s.owned)
      (clearRestarting (s.counts env) now (entryPass env s.js s.owned)) := by
    have hsuspended : jobSetSuspended (entryPass env s.js s.owned).js = jobSetSuspended s.js := by
      rw [hentry]
      rfl
    have hall : allJobsReady (entryPass env s.js s.owned).js (s.counts env) =
        allJobsReady s.js (s.counts env) := by
      rw [hentry]
      rfl
    unfold clearRestarting readyRequests
    rw [hsuspended, hall]
    split_ifs
    · exact Asks.single now _ _
    · exact Asks.nil _
  refine ⟨_, hready, ?_⟩
  have hstart : (clearRestarting (s.counts env) now (entryPass env s.js s.owned)).js.status.startTime =
      s.js.status.startTime := by
    rw [hready.js, hentry]
  unfold syncActiveDeadlineStartTime withoutStart
  rw [hstart, if_pos (by simp [hgates, gatesOff])]
  by_cases h : s.js.status.startTime = none
  · simp [h]
  · simp [h]

theorem ensures_reconcileUnfinished (hmarked : jobSetMarkedForDeletion s.js = false)
    (hfinished : jobSetFinished s.js = false) :
    Ensures serves (fun _ => True) (Ends env s) ⟨s, false⟩
      (reconcileUnfinished env s.owned (s.counts env) (entryPass env s.js s.owned)) := by
  have hlive : Live env s.js s.jobs s.owned :=
    ⟨hmarked, hs.internal, getChildJobs_owned hs hgates⟩
  unfold reconcileUnfinished
  apply (yields_deleteJobs s.owned.previous ⟨s, false⟩).bind
  rintro s' ⟨⟩ rfl
  apply ensures_readClock_bind
  intro now
  apply ensures_readClock_bind
  intro now'
  apply ensures_readClock_bind
  intro now''
  have hdeadline : ∀ js, activeDeadlineRemaining env.gates now'' js = none := by
    intro js
    unfold activeDeadlineRemaining
    rw [hgates]
    rfl
  rw [hdeadline]
  have hundecided : Undecided env s.js s.jobs s.owned (syncActiveDeadlineStartTime env.gates now'
      (clearRestarting (s.counts env) now (entryPass env s.js s.owned))) :=
    ⟨hlive, hfinished, now, now', rfl⟩
  exact ensures_reconcilePolicies hgates hs hmarked hfinished
    (opened_of_readings hgates now now') hundecided.uncounting 0

theorem ensures_reconcileFinished (hmarked : jobSetMarkedForDeletion s.js = false)
    (hfinished : jobSetFinished s.js = true) :
    Ensures serves (fun _ => True) (Ends env s) ⟨s, false⟩
      (reconcileFinished env s.owned (entryPass env s.js s.owned)) := by
  have hphase : s.phase env = .finished := by
    unfold Site.phase
    rw [if_neg (by simp [hmarked]), if_pos hfinished]
  have hscheduling : schedulingConfigured env (entryPass env s.js s.owned).js = false := by
    unfold schedulingConfigured
    rw [hgates]
    rfl
  have hrequeue : requeueFinished (entryPass env s.js s.owned).js = .done 0 := by
    unfold requeueFinished executeTTLAfterFinishedPolicy
    rw [entryPass_js]
    dsimp only
    rw [hs.ttl]
    rfl
  unfold reconcileFinished
  apply (yields_deleteJobs s.owned.active ⟨s, false⟩).bind
  rintro s' ⟨⟩ rfl
  rw [if_neg (by simp [hscheduling]), hrequeue]
  exact Outcome.finished hphase

/-- Every call of `Reconcile` has one of the outcomes. -/
theorem ensures_reconcileRequest :
    Ensures serves (fun _ => True) (Outcome env s) ⟨s, false⟩
      (reconcileRequest env s.js s.jobs) := by
  unfold reconcileRequest
  cases hmarked : jobSetMarkedForDeletion s.js with
  | true =>
    apply Outcome.deleted
    unfold Site.phase
    rw [if_pos hmarked]
  | false =>
    rw [if_neg (by simp)]
    have hreconcile : Ensures serves (fun _ => True) (Ends env s) ⟨s, false⟩
        (reconcile env s.js s.jobs) := by
      unfold reconcile
      rw [hs.internal, if_neg (by simp), getChildJobs_owned hs hgates]
      simp only [liftExcept, done_bind]
      have hsame : jobSetFinished (entryPass env s.js s.owned).js = jobSetFinished s.js := by
        rw [entryPass_js]
        rfl
      change Ensures serves _ _ _ (if jobSetFinished (entryPass env s.js s.owned).js then _ else _)
      rw [hsame]
      split_ifs with hfinished
      · exact ensures_reconcileFinished hgates hs hmarked hfinished
      · exact ensures_reconcileUnfinished hgates hs hmarked (by simpa using hfinished)
    apply Ensures.bind hreconcile
    · rintro s' ⟨p, requeueAfter⟩ hends
      apply (yields_updateJobSetStatus p s').bind
      rintro s'' ⟨⟩ rfl
      exact hends
    · exact fun _ _ hends => hends

end Stages

end JobSetOperator.Convergence
