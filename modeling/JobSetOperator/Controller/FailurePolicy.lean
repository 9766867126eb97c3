import JobSetOperator.Controller.ChildJobs

/-!
# The failure policy

Selection of the rule and the failed Job it applies to, and the five actions.
An action either fails the JobSet, restarts all of it, or restarts one Job; the
lemma `executeFailurePolicy_cases` says so once, with the checks each branch has
passed, and nothing else about the policy is unfolded afterwards.
-/
namespace JobSetOperator

/-! ## Selecting the rule and the Job -/

/-- `findJobFailureCondition`. -/
def findJobFailureCondition (job : Job) : Option JobCondition :=
  job.status.conditions.find? fun c => c.type = .jobFailed ∧ c.status = .conditionTrue

/-- `findJobFailureTime`. -/
def findJobFailureTime (job : Job) : Option Time :=
  (findJobFailureCondition job).map (·.lastTransitionTime)

/-- One turn of the loop of `findFirstFailedJob`: keep the earliest failure seen so far. -/
def earlierFailure (best : Option (Job × Time)) (job : Job) : Option (Job × Time) :=
  match findJobFailureTime job, best with
  | some failureTime, some (_, firstFailureTime) =>
    if failureTime < firstFailureTime then some (job, failureTime) else best
  | some failureTime, none => some (job, failureTime)
  | none, best => best

/-- `findFirstFailedJob`. -/
def findFirstFailedJob (failedJobs : List Job) : Option Job :=
  (failedJobs.foldl earlierFailure none).map (·.1)

/-- `anyMatchFound`: an invalid pattern is skipped. -/
def anyMatchFound (platform : Platform) (patterns : List String) (message : String) : Bool :=
  patterns.any fun pattern => platform.matchString pattern message = some true

/-- `parentReplicatedJobName`. -/
def parentReplicatedJobName (job : Job) : Option String :=
  (job.labels.lookup replicatedJobNameKey).filter fun name => name ≠ ""

/-- `ruleIsApplicable`. -/
def ruleIsApplicable (platform : Platform) (rule : FailurePolicyRule) (failedJob : Job)
    (jobFailureReason jobFailureMessage : String) : Bool :=
  decide (rule.onJobFailureReasons = [] ∨ jobFailureReason ∈ rule.onJobFailureReasons) &&
  decide (rule.onJobFailureMessagePatterns = [] ∨
    anyMatchFound platform rule.onJobFailureMessagePatterns jobFailureMessage) &&
  match parentReplicatedJobName failedJob with
  | some parent => decide (rule.targetReplicatedJobs = [] ∨ parent ∈ rule.targetReplicatedJobs)
  | none => false

/-- One turn of the inner loop of `findFirstFailedPolicyRuleAndJob`. -/
def earlierMatch (platform : Platform) (rule : FailurePolicyRule) (best : Option (Job × Time))
    (failedJob : Job) : Option (Job × Time) :=
  match findJobFailureCondition failedJob with
  | some cond =>
    let jobFailedEarlier : Bool :=
      match best with
      | some (_, matchedFailureTime) => cond.lastTransitionTime < matchedFailureTime
      | none => true
    if ruleIsApplicable platform rule failedJob cond.reason cond.message && jobFailedEarlier then
      some (failedJob, cond.lastTransitionTime)
    else best
  | none => best

/-- `findFirstFailedPolicyRuleAndJob`. -/
def findFirstFailedPolicyRuleAndJob (platform : Platform) :
    List FailurePolicyRule → List Job → Option (FailurePolicyRule × Job)
  | [], _ => none
  | rule :: rules, failedOwnedJobs =>
    match failedOwnedJobs.foldl (earlierMatch platform rule) none with
    | some (job, _) => some (rule, job)
    | none => findFirstFailedPolicyRuleAndJob platform rules failedOwnedJobs

/-- The rule that decides, if any, and the Job its action is applied with. -/
def selectFailure (platform : Platform) (rules : List FailurePolicyRule) (failed : List Job) :
    Option FailurePolicyRule × Option Job :=
  match findFirstFailedPolicyRuleAndJob platform rules failed with
  | some (rule, job) => (some rule, some job)
  | none => (none, findFirstFailedJob failed)

/-! ## Budgets -/

/-- `sumJobRestartsCountTowardsMax`. -/
def sumJobRestartsCountTowardsMax (js : JobSet) : ℕ :=
  (js.status.replicatedJobsStatus.map fun rjs => rjs.jobRestartsCountTowardsMax.sum).sum

/-- `totalRestartsCountTowardsMax`. -/
def totalRestartsCountTowardsMax (js : JobSet) : ℕ :=
  js.status.restartsCountTowardsMax + sumJobRestartsCountTowardsMax js

/-! ## Actions -/

/-- `messageWithFirstFailedJob`. -/
def messageWithFirstFailedJob (msg firstFailedJobName : String) : String :=
  msg ++ " (first failed job: " ++ firstFailedJobName ++ ")"

/-- The assignment to `js.Status`. -/
def Pass.withStatus (p : Pass) (status : JobSetStatus) : Pass :=
  { p with js := { p.js with status := status } }

def Pass.requestUpdate (p : Pass) : Pass := { p with opts := { p.opts with shouldUpdate := true } }

/-- The counters after a restart of the whole JobSet. -/
def restartedStatus (gates : FeatureGates) (shouldCountTowardsMax : Bool) (status : JobSetStatus) :
    JobSetStatus :=
  { status with
    restarts := status.restarts + 1
    executionAttempts :=
      if gates.executionAttemptsTracking then
        some (match status.executionAttempts with
          | none => status.restarts + 1
          | some attempts => attempts + 1)
      else status.executionAttempts
    restartsCountTowardsMax :=
      if shouldCountTowardsMax then status.restartsCountTowardsMax + 1
      else status.restartsCountTowardsMax }

/-- `failurePolicyRecreateAll`. -/
def failurePolicyRecreateAll (gates : FeatureGates) (now : Time) (shouldCountTowardsMax : Bool)
    (event : EventParams) (condOpts : ConditionOpts) (p : Pass) : Pass :=
  let p := p.withStatus (restartedStatus gates shouldCountTowardsMax p.js.status)
  enqueueEvent (setCondition now condOpts p.requestUpdate) event

/-- Rewrite the first entry with the name, as the setters of the restart lists do. -/
def updateStatusOf (name : String) (f : ReplicatedJobStatus → ReplicatedJobStatus) :
    List ReplicatedJobStatus → List ReplicatedJobStatus
  | [] => []
  | rjs :: rest => if rjs.name = name then f rjs :: rest else rjs :: updateStatusOf name f rest

/-- `setJobRestarts`. -/
def setJobRestarts (name : String) (jobRestarts : List ℕ) (p : Pass) : Pass :=
  p.withStatus { p.js.status with
    replicatedJobsStatus := updateStatusOf name (fun rjs => { rjs with jobRestarts := jobRestarts })
      p.js.status.replicatedJobsStatus }

/-- `setJobRestartsCountTowardsMax`. -/
def setJobRestartsCountTowardsMax (name : String) (counted : List ℕ) (p : Pass) : Pass :=
  p.withStatus { p.js.status with
    replicatedJobsStatus := updateStatusOf name (fun rjs => { rjs with jobRestartsCountTowardsMax := counted })
      p.js.status.replicatedJobsStatus }

/-- `list[index] += 1`, after the bounds check of the code; Go panics below zero. -/
def incrementAt (list : List ℕ) (index : ℤ) : Except String (List ℕ) :=
  if index ≥ list.length then .error "index out of bounds for replicated job"
  else if index < 0 then .error "index out of range"
  else .ok (list.modify index.toNat (· + 1))

/-- `failurePolicyRecreateJob`. -/
def failurePolicyRecreateJob (matchingFailedJob : Job) (shouldCountTowardsMax : Bool)
    (event : EventParams) (p : Pass) : Except String Pass := do
  let replicatedJobName ← requireLabel matchingFailedJob replicatedJobNameKey
  let jobIndexStr ← requireLabel matchingFailedJob jobIndexKey
  let jobIndex ← requireInt jobIndexKey jobIndexStr
  let jobRestarts ← incrementAt (getJobRestarts p.js replicatedJobName) jobIndex
  let p := setJobRestarts replicatedJobName jobRestarts p
  if shouldCountTowardsMax then
    let counted ← incrementAt (getJobRestartsCountTowardsMax p.js replicatedJobName) jobIndex
    pure (enqueueEvent
      (setJobRestartsCountTowardsMax replicatedJobName counted p).requestUpdate event)
  else pure (enqueueEvent p.requestUpdate event)

/-- The reason of the restarting condition. -/
def restartingReason (rule : Option FailurePolicyRule) : String :=
  match rule with
  | some rule => "FailurePolicy_" ++ rule.name
  | none => "DefaultFailurePolicy"

/-- The common body of the two actions that restart the whole JobSet. -/
def restartAll (gates : FeatureGates) (now : Time) (count : Bool) (reason base : String)
    (rule : Option FailurePolicyRule) (job : Job) (p : Pass) : Pass :=
  let eventMessage := messageWithFirstFailedJob base job.name
  failurePolicyRecreateAll gates now count ⟨eventTypeWarning, reason, eventMessage⟩
    (conditionOpts eventTypeWarning .jobSetRestarting .conditionTrue (restartingReason rule)
      eventMessage) p

def reachedMaxRestarts (now : Time) (job : Job) (p : Pass) : Pass :=
  setJobSetFailedCondition now "ReachedMaxRestarts" (messageWithFirstFailedJob
    "jobset failed due to reaching max number of restarts" job.name) p

/-- `failJobSetActionApplier`. -/
def failJobSetActionApplier (now : Time) (job : Job) (p : Pass) : Except String Pass :=
  .ok (setJobSetFailedCondition now "FailJobSetFailurePolicyAction"
    (messageWithFirstFailedJob "applying FailJobSet failure policy action" job.name) p)

/-- `restartJobSetActionApplier`. -/
def restartJobSetActionApplier (gates : FeatureGates) (now : Time) (fp : FailurePolicy)
    (rule : Option FailurePolicyRule) (job : Job) (p : Pass) : Except String Pass :=
  if (gates.restartJob ∧ (totalRestartsCountTowardsMax p.js : ℤ) ≥ fp.maxRestarts) ∨
      (p.js.status.restartsCountTowardsMax : ℤ) ≥ fp.maxRestarts then
    .ok (reachedMaxRestarts now job p)
  else
    .ok (restartAll gates now true "RestartJobSetFailurePolicyAction"
      "applying RestartJobSet failure policy action" rule job p)

/-- `restartJobSetAndIgnoreMaxRestartsActionApplier`. -/
def restartJobSetAndIgnoreMaxRestartsActionApplier (gates : FeatureGates) (now : Time)
    (rule : Option FailurePolicyRule) (job : Job) (p : Pass) : Except String Pass :=
  .ok (restartAll gates now false "RestartJobSetAndIgnoreMaxRestartsFailurePolicyAction"
    "applying RestartJobSetAndIgnoreMaxRestarts failure policy action" rule job p)

/-- `restartJobActionApplier`. -/
def restartJobActionApplier (gates : FeatureGates) (now : Time) (fp : FailurePolicy)
    (job : Job) (p : Pass) : Except String Pass :=
  if !gates.restartJob then
    .error "RestartJob failure policy action cannot be used when the feature gate RestartJob is disabled"
  else if (totalRestartsCountTowardsMax p.js : ℤ) ≥ fp.maxRestarts then
    .ok (reachedMaxRestarts now job p)
  else
    failurePolicyRecreateJob job true ⟨eventTypeWarning, "RestartJobFailurePolicyAction",
      messageWithFirstFailedJob "applying RestartJob failure policy action" job.name⟩ p

/-- `restartJobAndIgnoreMaxRestartsActionApplier`. -/
def restartJobAndIgnoreMaxRestartsActionApplier (gates : FeatureGates) (job : Job) (p : Pass) :
    Except String Pass :=
  if !gates.restartJob then
    .error "RestartJobAndIgnoreMaxRestarts failure policy action cannot be used when the feature gate RestartJob is disabled"
  else
    failurePolicyRecreateJob job false
      ⟨eventTypeWarning, "RestartJobAndIgnoreMaxRestartsFailurePolicyAction",
        messageWithFirstFailedJob "applying RestartJobAndIgnoreMaxRestarts failure policy action"
          job.name⟩ p

/-- `applyFailurePolicyRuleAction`, dispatching through `actionFunctionMap`. -/
def applyFailurePolicyRuleAction (gates : FeatureGates) (now : Time) (fp : FailurePolicy)
    (rule : Option FailurePolicyRule) (job : Job) (p : Pass) :
    FailurePolicyAction → Except String Pass
  | .failJobSet => failJobSetActionApplier now job p
  | .restartJobSet => restartJobSetActionApplier gates now fp rule job p
  | .restartJobSetAndIgnoreMaxRestarts =>
    restartJobSetAndIgnoreMaxRestartsActionApplier gates now rule job p
  | .restartJob => restartJobActionApplier gates now fp job p
  | .restartJobAndIgnoreMaxRestarts => restartJobAndIgnoreMaxRestartsActionApplier gates job p

/-- `executeFailurePolicy`. Without a matching rule the action is RestartJobSet. -/
def executeFailurePolicy (platform : Platform) (gates : FeatureGates) (now : Time)
    (failed : List Job) (p : Pass) : Except String Pass :=
  match p.js.spec.failurePolicy with
  | none =>
    match findFirstFailedJob failed with
    | none => .error "nil pointer dereference"
    | some job => .ok (setJobSetFailedCondition now "FailedJobs"
        (messageWithFirstFailedJob "jobset failed due to one or more job failures" job.name) p)
  | some fp =>
    match selectFailure platform fp.rules failed with
    | (_, none) => .error "nil pointer dereference"
    | (rule, some job) =>
      applyFailurePolicyRuleAction gates now fp rule job p
        ((rule.map (·.action)).getD .restartJobSet)

/-! ## What the policy can do -/

/-- The Job a restart is applied with. -/
def failureCause (platform : Platform) (js : JobSet) (failed : List Job) : Option Job :=
  js.spec.failurePolicy.bind fun fp => (selectFailure platform fp.rules failed).2

/-- A loop that keeps the best Job so far ends with one of the list. -/
theorem foldl_best {f : Option (Job × Time) → Job → Option (Job × Time)}
    (hf : ∀ best job, f best job = best ∨ ∃ t, f best job = some (job, t)) (l : List Job)
    (best : Option (Job × Time)) :
    l.foldl f best = best ∨ ∃ job ∈ l, ∃ t, l.foldl f best = some (job, t) := by
  induction l generalizing best with
  | nil => exact Or.inl rfl
  | cons job rest ih =>
    rw [List.foldl_cons]
    rcases ih (f best job) with h | ⟨j, hj, t, h⟩
    · rcases hf best job with hb | ⟨t, ht⟩
      · exact Or.inl (h.trans hb)
      · exact Or.inr ⟨job, List.mem_cons_self, t, h.trans ht⟩
    · exact Or.inr ⟨j, List.mem_cons_of_mem _ hj, t, h⟩

theorem earlierFailure_cases (best : Option (Job × Time)) (job : Job) :
    earlierFailure best job = best ∨ ∃ t, earlierFailure best job = some (job, t) := by
  unfold earlierFailure
  split
  · split_ifs
    · exact Or.inr ⟨_, rfl⟩
    · exact Or.inl rfl
  · exact Or.inr ⟨_, rfl⟩
  · exact Or.inl rfl

theorem earlierMatch_cases (platform : Platform) (rule : FailurePolicyRule)
    (best : Option (Job × Time)) (job : Job) :
    earlierMatch platform rule best job = best ∨
      ∃ t, earlierMatch platform rule best job = some (job, t) := by
  unfold earlierMatch
  split
  · dsimp only
    split_ifs
    · exact Or.inr ⟨_, rfl⟩
    · exact Or.inl rfl
  · exact Or.inl rfl

theorem findFirstFailedJob_mem {failed : List Job} {job : Job}
    (h : findFirstFailedJob failed = some job) : job ∈ failed := by
  unfold findFirstFailedJob at h
  rcases foldl_best earlierFailure_cases failed none with hf | ⟨j, hj, t, hf⟩
  · simp [hf] at h
  · rw [hf] at h
    cases h
    exact hj

theorem findFirstFailedPolicyRuleAndJob_mem {platform : Platform} {rules : List FailurePolicyRule}
    {failed : List Job} {rule : FailurePolicyRule} {job : Job}
    (h : findFirstFailedPolicyRuleAndJob platform rules failed = some (rule, job)) :
    job ∈ failed := by
  induction rules with
  | nil => simp [findFirstFailedPolicyRuleAndJob] at h
  | cons first rest ih =>
    unfold findFirstFailedPolicyRuleAndJob at h
    rcases foldl_best (earlierMatch_cases platform first) failed none with hf | ⟨j, hj, t, hf⟩
    · rw [hf] at h
      exact ih h
    · rw [hf] at h
      cases h
      exact hj

/-- The cause of a restart is one of the failed Jobs. -/
theorem failureCause_mem {platform : Platform} {js : JobSet} {failed : List Job} {job : Job}
    (h : failureCause platform js failed = some job) : job ∈ failed := by
  unfold failureCause at h
  cases hfp : js.spec.failurePolicy with
  | none => simp [hfp] at h
  | some fp =>
    rw [hfp, Option.bind_some] at h
    unfold selectFailure at h
    split at h
    · rename_i hs
      cases h
      exact findFirstFailedPolicyRuleAndJob_mem hs
    · exact findFirstFailedJob_mem h

/-- A successful run of the policy fails the JobSet, restarts it, or restarts one
Job. A restart that counts has passed the budget check of its action. The deadline is no
reason to fail here. -/
theorem executeFailurePolicy_cases {platform : Platform} {gates : FeatureGates} {now : Time}
    {failed : List Job} {p p' : Pass}
    (h : executeFailurePolicy platform gates now failed p = .ok p') :
    (∃ reason msg, reason ≠ "DeadlineExceeded" ∧
      p' = setJobSetFailedCondition now reason msg p) ∨
    (∃ fp job count event condOpts, p.js.spec.failurePolicy = some fp ∧
      failureCause platform p.js failed = some job ∧ condOpts.condition.type = .jobSetRestarting ∧
      (count = true → (p.js.status.restartsCountTowardsMax : ℤ) < fp.maxRestarts ∧
        (gates.restartJob = true → (totalRestartsCountTowardsMax p.js : ℤ) < fp.maxRestarts)) ∧
      p' = failurePolicyRecreateAll gates now count event condOpts p) ∨
    (∃ fp job count event, p.js.spec.failurePolicy = some fp ∧
      failureCause platform p.js failed = some job ∧ gates.restartJob = true ∧
      (count = true → (totalRestartsCountTowardsMax p.js : ℤ) < fp.maxRestarts) ∧
      failurePolicyRecreateJob job count event p = .ok p') := by
  unfold executeFailurePolicy at h
  cases hfp : p.js.spec.failurePolicy with
  | none =>
    rw [hfp] at h
    cases hj : findFirstFailedJob failed with
    | none => simp [hj] at h
    | some job =>
      simp only [hj, Except.ok.injEq] at h
      exact Or.inl ⟨_, _, by simp, h.symm⟩
  | some fp =>
    rw [hfp] at h
    rcases hs : selectFailure platform fp.rules failed with ⟨rule, _ | job⟩
    · simp [hs] at h
    · have hcause : failureCause platform p.js failed = some job := by
        simp [failureCause, hfp, hs]
      simp only [hs] at h
      cases ha : (rule.map (·.action)).getD .restartJobSet with
      | failJobSet =>
        simp only [ha, applyFailurePolicyRuleAction, failJobSetActionApplier, Except.ok.injEq] at h
        exact Or.inl ⟨_, _, by simp, h.symm⟩
      | restartJobSet =>
        simp only [ha, applyFailurePolicyRuleAction, restartJobSetActionApplier] at h
        split_ifs at h with hb
        · simp only [Except.ok.injEq] at h
          exact Or.inl ⟨_, _, by simp, h.symm⟩
        · simp only [Except.ok.injEq] at h
          push Not at hb
          exact Or.inr (Or.inl ⟨fp, job, true, _, _, rfl, hcause, rfl,
            fun _ => ⟨hb.2, hb.1⟩, h.symm⟩)
      | restartJobSetAndIgnoreMaxRestarts =>
        simp only [ha, applyFailurePolicyRuleAction,
          restartJobSetAndIgnoreMaxRestartsActionApplier, Except.ok.injEq] at h
        exact Or.inr (Or.inl ⟨fp, job, false, _, _, rfl, hcause, rfl, by simp, h.symm⟩)
      | restartJob =>
        simp only [ha, applyFailurePolicyRuleAction, restartJobActionApplier] at h
        split_ifs at h with hg hb
        · simp only [Except.ok.injEq] at h
          exact Or.inl ⟨_, _, by simp, h.symm⟩
        · exact Or.inr (Or.inr ⟨fp, job, true, _, rfl, hcause, by simpa using hg,
            fun _ => not_le.mp hb, h⟩)
      | restartJobAndIgnoreMaxRestarts =>
        simp only [ha, applyFailurePolicyRuleAction,
          restartJobAndIgnoreMaxRestartsActionApplier] at h
        split_ifs at h with hg
        exact Or.inr (Or.inr ⟨fp, job, false, _, rfl, hcause, by simpa using hg, by simp, h⟩)

end JobSetOperator
