import JobSetOperator.Cluster.Dependents
import JobSetOperator.Cluster.Terminal
import JobSetOperator.Controller.Grounds
import JobSetOperator.Controller.Timing

/-!
# The grounds on which a JobSet ends, over a run

The version that ends a JobSet carries its own justification. The Jobs it appeals to were on
the server, with labels that name the counters of that version: neither a Job of an earlier
attempt nor a stale cache ends a JobSet.
-/
namespace JobSetOperator.Cluster

open Library Library.Program

/-! ## Writes as calls -/

section Calls

variable {S : Setting} {js : JobSet} {w w' : World}

/-- What is left of a reconcile is part of the whole. -/
theorem reachable_issues (h : Reachable S js w) {a : Attempt} (busy : w.attempt = some a)
    {r : Request} (hr : Issues r a.rest) : Issues r (reconcileRequest a.env a.js a.jobs) := by
  induction h generalizing a r with
  | refl => cases busy
  | tail hrun hstep ih =>
    cases hstep with
    | begin idle allowed newer past newerJobs pastJobs listed =>
      cases busy
      exact hr
    | answer busy' next reply =>
      cases busy
      apply ih busy'
      rw [next]
      exact Or.inr ⟨_, hr⟩
    | stop => cases busy
    | _ => exact ih busy hr

/-- A new version of the JobSet has the old status, or it is what a reconcile has sent. -/
theorem step_sent (hrun : Reachable S js w) (hstep : Step S w w') :
    w'.sets = w.sets ∨ ∃ written, w'.sets = w.sets.push written ∧
      (written.status = w.sets.current.status ∨ ∃ a, w.attempt = some a ∧
        Issues (.updateStatus written) (reconcileRequest a.env a.js a.jobs) ∧
        Writes a.env a.js a.jobs a.seen written ∧
        w.sets.current = a.seen.acked.getD a.js ∧
        w'.authors (w.sets.top + 1) = some a.toReading) := by
  have hinv := reachable_inv hrun
  cases hstep with
  | userUpdate admitted status => exact Or.inr ⟨_, rfl, Or.inl status⟩
  | @answer a busy r k next x sv' base' reply =>
    rcases reply.sets with hsame | ⟨sent, rfl, version, hsv⟩ | ⟨sent, t, rfl, hsv⟩
    · exact Or.inl hsame
    · have ha := hinv.attempt a busy
      have hcalls := ha.follows
      rw [next] at hcalls
      have hwrites : Writes a.env a.js a.jobs a.seen sent := hcalls.1
      have hissues : Issues (.updateStatus sent) a.rest := by
        rw [next]
        exact Or.inl rfl
      have hframe := ha.frame
      rw [version] at hframe
      have hsent : { w.sets.current with status := sent.status } = sent := by
        have hcurrent : w.sets.current = { a.js with status := w.sets.current.status } := hframe
        rw [hcurrent, hwrites.frame]
      have hstored := ha.stored
      rw [version] at hstored
      refine Or.inr ⟨sent, by rw [← hsent]; exact hsv, Or.inr ⟨a, busy,
        reachable_issues hrun busy hissues, hwrites, hstored, ?_⟩⟩
      change w.record sv' a.toReading (w.sets.top + 1) = _
      have htop : sv'.sets.top = w.sets.top + 1 := by rw [hsv, History.push_top]
      unfold World.record
      rw [if_neg (by rw [htop]; exact Nat.succ_ne_self _), htop, Function.update_self]
    · exact Or.inr ⟨_, hsv, Or.inl rfl⟩
  | _ => exact Or.inl rfl

end Calls

/-! ## Justification -/

/-- Why the JobSet may have ended, given the Jobs that were read. -/
inductive Justified (env : Env) (jobs : List Job) (js : JobSet) : JobSetConditionType → Prop
  | completed {sp : SuccessPolicy} (policy : js.spec.successPolicy = some sp)
    (met : SuccessMet sp js jobs fun job =>
      AtCounters env.gates js job ∧ jobFinished job = some .jobComplete) :
    Justified env jobs js .jobSetCompleted
  | failed {job : Job} (mem : job ∈ jobs) (current : AtCounters env.gates js job)
    (failed : jobFinished job = some .jobFailed)
    (hopeless : GivesUp env.platform env.gates js job) : Justified env jobs js .jobSetFailed
  | expired {s t : Time} {d : ℤ} (gate : env.gates.jobSetActiveDeadlineSeconds = true)
    (running : jobSetSuspended js = false) (started : js.status.startTime = some s)
    (deadline : js.spec.activeDeadlineSeconds = some d)
    (passed : s + d * nanosecondsPerSecond ≤ t) : Justified env jobs js .jobSetFailed
  | exceeded {fp : FailurePolicy} {pods : List Pod} (gate : env.gates.inPlaceRestart = true)
    (strategy : isInPlaceRestartStrategy js = true) (policy : js.spec.failurePolicy = some fp)
    (used : ExceedsInPlace js fp pods) : Justified env jobs js .jobSetFailed

theorem atCounters_of_current {gates : FeatureGates} {names : List String} {a b : JobSet}
    {job : Job} (hcurrent : CurrentJob gates a job) (hlabels : LabelsOk gates names a job)
    (hsame : SameCounters names a b) : AtCounters gates b job := by
  obtain ⟨⟨r, hr, hle⟩, hindividual⟩ := hcurrent
  obtain ⟨name, hname, index, restarts, hlabel, hindex, hrestart, hle', hjob⟩ := hlabels
  constructor
  · have he : r = restarts := Option.some.inj (hr.symm.trans hrestart)
    have hr' : r = (b.status.restarts : ℤ) := by
      rw [hsame.restarts]
      omega
    rw [hr, hr']
  · intro hgate
    obtain ⟨name', index', hname', hindex', hcounter⟩ :=
      outdatedIndividually_false (hindividual hgate)
    obtain rfl : name = name' := Option.some.inj (hlabel.symm.trans hname')
    obtain ⟨n, hn, hnle⟩ := hjob hgate
    obtain ⟨i, hi, -, hge⟩ := hcounter n hn
    have hii : (index : ℤ) = i := by
      have := hindex.symm.trans hindex'
      rw [hi] at this
      exact Option.some.inj this
    obtain rfl : index = i := by omega
    refine ⟨name, index, hlabel, hindex, ?_⟩
    rw [hsame.individual name hname index, hn]
    have hequal : (n : ℤ) = (individualCounter a name index : ℤ) := by omega
    rw [hequal]

theorem successMet_mono {policy : SuccessPolicy} {a b : JobSet} {jobs : List Job}
    {kind kind' : Job → Prop} (h : SuccessMet policy a jobs kind) (hspec : b.spec = a.spec)
    (himp : ∀ job ∈ jobs, kind job → kind' job) : SuccessMet policy b jobs kind' := by
  have htargets : targetedJobs policy b = targetedJobs policy a := by
    unfold targetedJobs
    rw [hspec]
  unfold SuccessMet at h ⊢
  rw [htargets]
  cases hop : policy.operator with
  | operatorAll =>
    rw [hop] at h
    exact fun rjob hrjob => (h rjob hrjob).mono himp
  | operatorAny =>
    rw [hop] at h
    obtain ⟨rjob, hrjob, job, hjob, hlabel, hkind⟩ := h
    exact ⟨rjob, hrjob, job, hjob, hlabel, himp job hjob hkind⟩

/-- A verdict over Jobs whose labels are not ahead of the counters is justified. -/
theorem justified_of_verdict {env : Env} {js written : JobSet} {jobs : List Job} {owned : ChildJobs}
    {t : JobSetConditionType} (h : Verdict env js owned written t)
    (hsorted : getChildJobs env.gates js jobs = .ok owned) (hchildren : ChildrenOk js jobs)
    (hnames : js.jobNames.Nodup) (hspec : written.spec = js.spec)
    (hcurrent : ∀ job ∈ jobs, CurrentJob env.gates js job → AtCounters env.gates written job) :
    Justified env jobs written t := by
  cases h with
  | completed hsome hmet =>
    unfold successPolicyMet at hmet
    cases hpolicy : js.spec.successPolicy with
    | none => simp [hpolicy] at hmet
    | some policy =>
      rw [hpolicy] at hmet
      simp only [Except.ok.injEq, decide_eq_true_eq] at hmet
      have hall := (successMet_iff hchildren hnames hsorted policy).mp hmet
      apply Justified.completed (by rw [hspec]; exact hpolicy)
      apply successMet_mono hall hspec
      rintro job hjob ⟨hjobCurrent, hcomplete⟩
      exact ⟨hcurrent job hjob hjobCurrent, hcomplete⟩
  | failed hmem hopeless =>
    obtain ⟨hjob, hjobCurrent, hb⟩ := bucket_facts (b := .failed) hsorted hmem (by decide)
    exact .failed hjob (hcurrent _ hjob hjobCurrent) (finishedBucket_failed hb) hopeless
  | @expired now remaining harmed hpassed =>
    obtain ⟨hrunning, t, -, s, d, hstart, hdeadline, hle⟩ :=
      overdue_of_remaining (p := .start written) rfl harmed hpassed (Set.mem_univ now)
    have hgate : env.gates.jobSetActiveDeadlineSeconds = true := by
      unfold activeDeadlineRemaining at harmed
      by_contra hoff
      rw [if_pos (by simpa using hoff)] at harmed
      cases harmed
    exact .expired hgate hrunning hstart hdeadline hle
  | exceeded hgate hstrategy hpolicy hused =>
    have hstrategy' : isInPlaceRestartStrategy written = true := by
      unfold isInPlaceRestartStrategy at hstrategy ⊢
      rw [hspec]
      exact hstrategy
    exact .exceeded hgate hstrategy' (by rw [hspec]; exact hpolicy) hused

section Runs

variable {S : Setting} {gates : FeatureGates} {js : JobSet} {w : World}

/-- A JobSet that has finished stays finished. -/
theorem reachable_finished (hnew : js.status = .new) (h : Reachable S js w) {u v : ℕ}
    (huv : u ≤ v) (hv : v ≤ w.sets.top) (hfinished : jobSetFinished (w.sets.entry u) = true) :
    jobSetFinished (w.sets.entry v) = true := by
  obtain ⟨hall, hordered⟩ := reachable_terminal hnew h
  have hterminal := (hall u (huv.trans hv)).finished.mpr hfinished
  obtain ⟨-, hstate, -⟩ := hordered u v huv hv hterminal
  apply (hall v hv).finished.mp
  rw [hstate]
  exact hterminal

theorem finished_of_keepsTerminal {a b : JobSet} (h : KeepsTerminal a b)
    (hfinished : jobSetFinished b = true) : jobSetFinished a = true := by
  rw [jobSetFinished_iff] at hfinished ⊢
  rw [← h.terminal _ (Or.inl rfl), ← h.terminal _ (Or.inr rfl)]
  exact hfinished

/-- A status write that ends the JobSet is justified by the Jobs that were read. -/
theorem write_justified (hS : PlanSetting S gates) (hnew : js.status = .new)
    (hnames : js.jobNames.Nodup) (h : Reachable S js w) {a : Attempt} (busy : w.attempt = some a)
    {written : JobSet}
    (hissues : Issues (.updateStatus written) (reconcileRequest a.env a.js a.jobs))
    (hwrites : Writes a.env a.js a.jobs a.seen written)
    (hbase : w.sets.current = a.seen.acked.getD a.js)
    (hun : jobSetFinished w.sets.current = false) (hended : jobSetFinished written = true) :
    ∃ t, written.status.terminalState = some t ∧ Justified a.env a.jobs written t := by
  have hinv := reachable_inv h
  have hread := hinv.attempt a busy
  obtain ⟨hall, -⟩ := reachable_counters hS.fixedGates hnew h
  obtain ⟨hsameNames, hok⟩ := hall _ hinv.seenSets
  obtain rfl : a.env.gates = gates := hS.gates a.env hread.allowed
  rw [← hread.js] at hsameNames hok
  have hunread : jobSetFinished a.js = false := by
    by_contra hfin
    rw [Bool.not_eq_false, hread.js] at hfin
    have hstill := reachable_finished hnew h hinv.seenSets le_rfl hfin
    rw [show w.sets.entry w.sets.top = w.sets.current from rfl, hun] at hstill
    cases hstill
  rcases reconcileRequest_judged hissues with hkeeps | ⟨owned, t, hsorted, hends, hverdict⟩
  · rw [finished_of_keepsTerminal hkeeps hended] at hunread
    cases hunread
  · refine ⟨t, hends.terminalState, ?_⟩
    have hspec : written.spec = a.js.spec := by rw [hwrites.frame]
    apply justified_of_verdict hverdict hsorted
    · rw [hread.js]
      exact reachable_childrenOk hS h hinv.seenJobs hread.jobs hinv.seenSets
    · rw [hsameNames]
      exact hnames
    · exact hspec
    · intro job hjob hcurrent
      have hsame : SameCounters js.jobNames a.js written := by
        have := (sameCounters_entry hok owned).trans
          (sameCounters_of_statuses hends.restarts hends.statuses)
        rwa [hsameNames] at this
      have hlabels := reachable_labels hS.fixedGates hnew h _ hinv.seenJobs job
        (hread.jobs.mem_iff.mp hjob)
      have hcounters := hwrites.baseCounters hok
      rw [← hbase, hsameNames] at hcounters
      exact atCounters_of_current hcurrent (hlabels.mono hcounters.symm.le) hsame

/-- The version is justified by a reconcile that has read a list of Jobs from the past. -/
def Grounded (S : Setting) (w : World) (v : ℕ) : Prop :=
  ∃ t reading, w.authors v = some reading ∧ S.allowed reading.env ∧
    (∃ k ≤ w.jobs.top, reading.jobs.Perm (w.jobs.entry k)) ∧
    (w.sets.entry v).status.terminalState = some t ∧
    Justified reading.env reading.jobs (w.sets.entry v) t

end Runs

/-! ## A JobSet that completes -/

/-- The only Job succeeds, and the JobSet completes. -/
def succeedingEvents : List Event :=
  [.begin 0 0, .answer 0, .answer 0, .stop, .progress "js-a-0" completeStatus, .begin 1 2,
    .answer 0]

end JobSetOperator.Cluster
