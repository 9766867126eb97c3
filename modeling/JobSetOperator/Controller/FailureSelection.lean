import JobSetOperator.Controller.StartupOrder
import Mathlib.Data.List.MinMax

/-!
# Which rule and which Job the failure policy selects

The two scans of the failure policy keep a running minimum over the failure
times. Each of them is the leftmost minimum of the Jobs it looks at: all failed
Jobs for the fallback, the Jobs the rule applies to for a rule. The rule that
decides and the time of the failure it acts on therefore do not depend on the
order in which the cache lists the Jobs.
-/
namespace JobSetOperator

/-! ## Running minimum -/

/-- The time a Job failed at. -/
def failureTime (job : Job) : Time := (findJobFailureTime job).getD zeroTime

/-- The rule applies to the Job, with the reason and the message it failed with. -/
def ruleApplies (platform : Platform) (rule : FailurePolicyRule) (job : Job) : Bool :=
  match findJobFailureCondition job with
  | some cond => ruleIsApplicable platform rule job cond.reason cond.message
  | none => false

/-- A Job with its failure time, as the loops keep it. -/
def stamped (job : Job) : Job × Time := (job, failureTime job)

/-- A loop that skips some Jobs and keeps the earliest of the others ends with the
leftmost minimum of the others. -/
theorem foldl_earliest {f : Option (Job × Time) → Job → Option (Job × Time)} {q : Job → Bool}
    (hskip : ∀ best job, q job = false → f best job = best)
    (hkeep : ∀ best job, q job = true → f (best.map stamped) job =
      (List.argAux (fun a b => failureTime a < failureTime b) best job).map stamped)
    (l : List Job) (best : Option Job) :
    l.foldl f (best.map stamped) =
      ((l.filter q).foldl (List.argAux fun a b => failureTime a < failureTime b) best).map
        stamped := by
  induction l generalizing best with
  | nil => rfl
  | cons job rest ih =>
    rw [List.foldl_cons]
    cases hq : q job with
    | false =>
      rw [hskip _ job hq, List.filter_cons_of_neg (by simp [hq])]
      exact ih best
    | true =>
      rw [hkeep best job hq, List.filter_cons_of_pos hq, List.foldl_cons]
      exact ih _

theorem failureTime_of_condition {job : Job} {cond : JobCondition}
    (h : findJobFailureCondition job = some cond) : failureTime job = cond.lastTransitionTime := by
  simp [failureTime, findJobFailureTime, h]

/-- The fallback scan. -/
theorem findFirstFailedJob_eq (failed : List Job) :
    findFirstFailedJob failed =
      (failed.filter fun job => (findJobFailureCondition job).isSome).argmin failureTime := by
  have hskip : ∀ best job, (findJobFailureCondition job).isSome = false →
      earlierFailure best job = best := by
    intro best job h
    have hnone : findJobFailureCondition job = none := by simpa using h
    simp [earlierFailure, findJobFailureTime, hnone]
  have hkeep : ∀ best job, (findJobFailureCondition job).isSome = true →
      earlierFailure (best.map stamped) job =
        (List.argAux (fun a b => failureTime a < failureTime b) best job).map stamped := by
    intro best job h
    obtain ⟨cond, hcond⟩ := Option.isSome_iff_exists.mp h
    have htime := failureTime_of_condition hcond
    cases best with
    | none => simp [earlierFailure, findJobFailureTime, hcond, List.argAux, stamped, htime]
    | some first =>
      by_cases hlt : failureTime job < failureTime first
      · simp [earlierFailure, findJobFailureTime, hcond, List.argAux, stamped, ← htime, hlt]
      · simp [earlierFailure, findJobFailureTime, hcond, List.argAux, stamped, ← htime, hlt]
  unfold findFirstFailedJob
  rw [show (none : Option (Job × Time)) = (none : Option Job).map stamped from rfl,
    foldl_earliest hskip hkeep failed none, Option.map_map]
  exact Option.map_id'

/-- The scan for one rule. -/
theorem foldl_earlierMatch (platform : Platform) (rule : FailurePolicyRule) (failed : List Job) :
    failed.foldl (earlierMatch platform rule) none =
      ((failed.filter (ruleApplies platform rule)).argmin failureTime).map stamped := by
  have hskip : ∀ best job, ruleApplies platform rule job = false →
      earlierMatch platform rule best job = best := by
    intro best job h
    unfold ruleApplies at h
    unfold earlierMatch
    cases hcond : findJobFailureCondition job with
    | none => rfl
    | some cond =>
      rw [hcond] at h
      simp [h]
  have hkeep : ∀ best job, ruleApplies platform rule job = true →
      earlierMatch platform rule (best.map stamped) job =
        (List.argAux (fun a b => failureTime a < failureTime b) best job).map stamped := by
    intro best job h
    unfold ruleApplies at h
    unfold earlierMatch
    cases hcond : findJobFailureCondition job with
    | none => simp [hcond] at h
    | some cond =>
      rw [hcond] at h
      have htime := failureTime_of_condition hcond
      cases best with
      | none => simp [h, List.argAux, stamped, htime]
      | some first =>
        by_cases hlt : failureTime job < failureTime first
        · simp [h, List.argAux, stamped, ← htime, hlt]
        · simp [h, List.argAux, stamped, ← htime, hlt]
  exact foldl_earliest hskip hkeep failed none

/-! ## Rules in order -/

/-- The search through the rules: the first one that applies to some Job. -/
theorem findFirstFailedPolicyRuleAndJob_eq_some {platform : Platform}
    {rules : List FailurePolicyRule} {failed : List Job} {rule : FailurePolicyRule} {job : Job}
    (h : findFirstFailedPolicyRuleAndJob platform rules failed = some (rule, job)) :
    ∃ i : ℕ, rules[i]? = some rule ∧
      (failed.filter (ruleApplies platform rule)).argmin failureTime = some job ∧
      ∀ j < i, ∀ other, rules[j]? = some other →
        ∀ f ∈ failed, ruleApplies platform other f = false := by
  induction rules with
  | nil => simp [findFirstFailedPolicyRuleAndJob] at h
  | cons first rest ih =>
    unfold findFirstFailedPolicyRuleAndJob at h
    rw [foldl_earlierMatch] at h
    cases hmin : (failed.filter (ruleApplies platform first)).argmin failureTime with
    | some found =>
      rw [hmin] at h
      obtain ⟨rfl, rfl⟩ : first = rule ∧ found = job := by simpa [stamped] using h
      exact ⟨0, rfl, hmin, fun j hj => absurd hj (Nat.not_lt_zero j)⟩
    | none =>
      rw [hmin] at h
      obtain ⟨i, hi, hjob, hbefore⟩ := ih h
      refine ⟨i + 1, hi, hjob, fun j hj other hother f hf => ?_⟩
      cases j with
      | zero =>
        cases hother
        have hempty := List.argmin_eq_none.mp hmin
        simpa using List.filter_eq_nil_iff.mp hempty f hf
      | succ j => exact hbefore j (by omega) other hother f hf

theorem findFirstFailedPolicyRuleAndJob_eq_none {platform : Platform}
    {rules : List FailurePolicyRule} {failed : List Job} :
    findFirstFailedPolicyRuleAndJob platform rules failed = none ↔
      ∀ rule ∈ rules, ∀ f ∈ failed, ruleApplies platform rule f = false := by
  induction rules with
  | nil => simp [findFirstFailedPolicyRuleAndJob]
  | cons first rest ih =>
    unfold findFirstFailedPolicyRuleAndJob
    rw [foldl_earlierMatch, List.forall_mem_cons, ← ih]
    cases hmin : (failed.filter (ruleApplies platform first)).argmin failureTime with
    | some found =>
      have hmem := List.argmin_mem (Option.mem_def.mpr hmin)
      have happlies := (List.mem_filter.mp hmem).2
      constructor
      · intro h
        simp at h
      · rintro ⟨h, -⟩
        exact absurd happlies (by simp [h found (List.mem_filter.mp hmem).1])
    | none =>
      have hempty := List.argmin_eq_none.mp hmin
      have hnone : ∀ f ∈ failed, ruleApplies platform first f = false := fun f hf => by
        simpa using List.filter_eq_nil_iff.mp hempty f hf
      exact ⟨fun h => ⟨hnone, h⟩, fun h => h.2⟩

/-! ## Order of the Jobs -/

/-- The least failure time of a list does not depend on its order. -/
theorem argmin_failureTime_perm {l l' : List Job} (h : l.Perm l') :
    (l.argmin failureTime).map failureTime = (l'.argmin failureTime).map failureTime := by
  cases hl : l.argmin failureTime with
  | none =>
    have hnil := List.argmin_eq_none.mp hl
    subst hnil
    rw [List.nil_perm.mp h]
    rfl
  | some job =>
    cases hl' : l'.argmin failureTime with
    | none =>
      have hnil := List.argmin_eq_none.mp hl'
      subst hnil
      rw [List.perm_nil.mp h] at hl
      cases hl
    | some job' =>
      have hmem := List.argmin_mem (Option.mem_def.mpr hl)
      have hmem' := List.argmin_mem (Option.mem_def.mpr hl')
      have hle := List.le_of_mem_argmin (h.mem_iff.mpr hmem') (Option.mem_def.mpr hl)
      have hle' := List.le_of_mem_argmin (h.mem_iff.mp hmem) (Option.mem_def.mpr hl')
      rw [Option.map_some, Option.map_some, le_antisymm hle hle']

/-- A rule that is passed over for one list is passed over for its permutations. -/
theorem argmin_none_perm {l l' : List Job} (h : l.Perm l') :
    l.argmin failureTime = none ↔ l'.argmin failureTime = none := by
  rw [List.argmin_eq_none, List.argmin_eq_none]
  constructor
  · rintro rfl
    exact List.nil_perm.mp h
  · rintro rfl
    exact List.perm_nil.mp h

/-- The search gives the same rule and the same failure time. -/
theorem findFirstFailedPolicyRuleAndJob_perm (platform : Platform)
    (rules : List FailurePolicyRule) {failed failed' : List Job} (h : failed.Perm failed') :
    (findFirstFailedPolicyRuleAndJob platform rules failed).map
        (fun r => (r.1, failureTime r.2)) =
      (findFirstFailedPolicyRuleAndJob platform rules failed').map
        fun r => (r.1, failureTime r.2) := by
  induction rules with
  | nil => rfl
  | cons first rest ih =>
    have hfilter := h.filter (ruleApplies platform first)
    have htime := argmin_failureTime_perm hfilter
    unfold findFirstFailedPolicyRuleAndJob
    rw [foldl_earlierMatch, foldl_earlierMatch]
    cases hmin : (failed.filter (ruleApplies platform first)).argmin failureTime with
    | none =>
      rw [(argmin_none_perm hfilter).mp hmin]
      exact ih
    | some job =>
      rw [hmin] at htime
      obtain ⟨job', hmin', hsame⟩ := Option.map_eq_some_iff.mp htime.symm
      rw [hmin']
      simp [stamped, hsame]

/-- The whole selection, for every order of the failed Jobs. -/
theorem selectFailure_perm (platform : Platform) (rules : List FailurePolicyRule)
    {failed failed' : List Job} (h : failed.Perm failed') :
    (selectFailure platform rules failed').1 = (selectFailure platform rules failed).1 ∧
      (selectFailure platform rules failed').2.map failureTime =
        (selectFailure platform rules failed).2.map failureTime := by
  have hrules := findFirstFailedPolicyRuleAndJob_perm platform rules h
  unfold selectFailure
  cases hs : findFirstFailedPolicyRuleAndJob platform rules failed with
  | some found =>
    rw [hs] at hrules
    obtain ⟨found', hs', hsame⟩ := Option.map_eq_some_iff.mp hrules.symm
    rw [hs']
    obtain ⟨hrule, htime⟩ := Prod.mk.inj hsame
    simp [hrule, htime]
  | none =>
    rw [hs] at hrules
    have hs' : findFirstFailedPolicyRuleAndJob platform rules failed' = none := by
      simpa using hrules.symm
    rw [hs']
    refine ⟨rfl, ?_⟩
    dsimp only
    rw [findFirstFailedJob_eq, findFirstFailedJob_eq]
    exact (argmin_failureTime_perm (h.filter _)).symm

/-! ## The selection -/

/-- A Job that is sorted as failed has the condition that the scans look for. -/
theorem findJobFailureCondition_of_failed {gates : FeatureGates} {js : JobSet} {jobs : List Job}
    {owned : ChildJobs} (h : getChildJobs gates js jobs = .ok owned) {job : Job}
    (hjob : job ∈ owned.failed) : (findJobFailureCondition job).isSome = true := by
  have hbucket : job ∈ owned.jobs .failed := hjob
  obtain ⟨-, -, hb⟩ := bucket_facts h hbucket (by decide)
  have hfinished := finishedBucket_failed hb
  unfold jobFinished at hfinished
  obtain ⟨c, hc, htype⟩ := Option.map_eq_some_iff.mp hfinished
  have hstatus := List.find?_some hc
  simp only [decide_eq_true_eq] at hstatus
  unfold findJobFailureCondition
  rw [List.find?_isSome]
  exact ⟨c, List.mem_of_find?_eq_some hc, by simpa using ⟨htype, hstatus.2⟩⟩

/-- The rule with the lowest index that applies to some failed Job decides, with the
earliest of the Jobs it applies to; without such a rule the JobSet is restarted because of
the earliest failure. In a list of Jobs that failed at the same time the first counts. -/
theorem failurePolicy_selection {platform : Platform} {gates : FeatureGates} {js : JobSet}
    {jobs : List Job} {owned : ChildJobs} (h : getChildJobs gates js jobs = .ok owned)
    (hfailed : owned.failed ≠ []) (now : Time) (p : Pass) :
    ∃ first, owned.failed.argmin failureTime = some first ∧
      (p.js.spec.failurePolicy = none →
        executeFailurePolicy platform gates now owned.failed p =
          .ok (setJobSetFailedCondition now "FailedJobs" (messageWithFirstFailedJob
            "jobset failed due to one or more job failures" first.name) p)) ∧
      ∀ fp, p.js.spec.failurePolicy = some fp →
        ((∃ (i : ℕ) (rule : FailurePolicyRule) (job : Job), fp.rules[i]? = some rule ∧
            (owned.failed.filter (ruleApplies platform rule)).argmin failureTime = some job ∧
            (∀ j < i, ∀ other, fp.rules[j]? = some other →
              ∀ f ∈ owned.failed, ruleApplies platform other f = false) ∧
            executeFailurePolicy platform gates now owned.failed p =
              applyFailurePolicyRuleAction gates now fp (some rule) job p rule.action) ∨
          ((∀ rule ∈ fp.rules, ∀ f ∈ owned.failed, ruleApplies platform rule f = false) ∧
            executeFailurePolicy platform gates now owned.failed p =
              applyFailurePolicyRuleAction gates now fp none first p .restartJobSet)) ∧
        ∀ failed', owned.failed.Perm failed' →
          (selectFailure platform fp.rules failed').1 =
              (selectFailure platform fp.rules owned.failed).1 ∧
            (selectFailure platform fp.rules failed').2.map failureTime =
              (selectFailure platform fp.rules owned.failed).2.map failureTime := by
  have hfallback : findFirstFailedJob owned.failed = owned.failed.argmin failureTime := by
    rw [findFirstFailedJob_eq, List.filter_eq_self.mpr]
    exact fun job hjob => findJobFailureCondition_of_failed h hjob
  obtain ⟨first, hfirst⟩ : ∃ first, owned.failed.argmin failureTime = some first := by
    rw [← Option.ne_none_iff_exists', Ne, List.argmin_eq_none]
    exact hfailed
  rw [hfirst] at hfallback
  refine ⟨first, hfirst, fun hnone => ?_, fun fp hfp => ⟨?_, fun failed' hperm => ?_⟩⟩
  · simp only [executeFailurePolicy, hnone, hfallback]
  · cases hs : findFirstFailedPolicyRuleAndJob platform fp.rules owned.failed with
    | some found =>
      obtain ⟨rule, job⟩ := found
      obtain ⟨i, hi, hjob, hbefore⟩ := findFirstFailedPolicyRuleAndJob_eq_some hs
      refine Or.inl ⟨i, rule, job, hi, hjob, hbefore, ?_⟩
      simp only [executeFailurePolicy, hfp, selectFailure, hs, Option.map_some, Option.getD_some]
    | none =>
      refine Or.inr ⟨findFirstFailedPolicyRuleAndJob_eq_none.mp hs, ?_⟩
      simp only [executeFailurePolicy, hfp, selectFailure, hs, hfallback, Option.map_none,
        Option.getD_none]
  · exact selectFailure_perm platform fp.rules hperm

/-- The status of a Job that failed at the given time. -/
def failedStatus (time : Time) : JobStatus :=
  ⟨[⟨.jobFailed, .conditionTrue, "BackoffLimitExceeded", "", time⟩], 0, none, 0, none⟩

/-- Two failed Jobs; the second one failed first. -/
def twoFailures : List Job :=
  [Job.child "js" "w" "0" (failedStatus 5), Job.child "js" "w" "1" (failedStatus 3)]

/-- The second Job of the list is the cause of the restart. -/
theorem failurePolicy_selection_second :
    ∃ owned, getChildJobs restartJobGates (plainSet [.single "w" 2] 1 .recreate) twoFailures =
        .ok owned ∧ owned.failed ≠ [] ∧
      executeFailurePolicy (plainEnv restartJobGates).platform restartJobGates 9 owned.failed
          (.start (plainSet [.single "w" 2] 1 .recreate)) =
        applyFailurePolicyRuleAction restartJobGates 9 ⟨1, .recreate, []⟩ none
          (Job.child "js" "w" "1" (failedStatus 3))
          (.start (plainSet [.single "w" 2] 1 .recreate)) .restartJobSet := by
  have hsorted : getChildJobs restartJobGates (plainSet [.single "w" 2] 1 .recreate) twoFailures =
      .ok ⟨[], [], twoFailures, []⟩ := by rfl
  refine ⟨_, hsorted, by decide, ?_⟩
  obtain ⟨first, hfirst, -, hpolicy⟩ :=
    @failurePolicy_selection (plainEnv restartJobGates).platform _ _ _ _ hsorted (by decide) 9
      (.start (plainSet [.single "w" 2] 1 .recreate))
  obtain rfl : first = Job.child "js" "w" "1" (failedStatus 3) := by
    have hsecond : twoFailures.argmin failureTime =
        some (Job.child "js" "w" "1" (failedStatus 3)) := by rfl
    exact Option.some.inj (hfirst.symm.trans hsecond)
  rcases (hpolicy _ rfl).1 with ⟨i, rule, job, hi, -⟩ | ⟨-, happly⟩
  · simp at hi
  · exact happly

end JobSetOperator
