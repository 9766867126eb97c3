import JobSetOperator.Api.Types

/-!
# Conditions of a JobSet

`setCondition` and `updateCondition` of the JobSet controller, with the
in-memory state of one reconcile attempt: the JobSet it mutates, the pending
status update with its events, and the metrics it has already increased.
The lemmas say once which conditions one call can change.
-/
namespace JobSetOperator

/-- A computation in two parts succeeds through its first part. -/
theorem except_bind_ok {ε α β : Type} {x : Except ε α} {f : α → Except ε β} {b : β}
    (h : x >>= f = .ok b) : ∃ a, x = .ok a ∧ f a = .ok b := by
  cases x with
  | error e => cases h
  | ok a => exact ⟨a, rfl, h⟩

theorem except_ok_bind {ε α β : Type} (a : α) (f : α → Except ε β) :
    (Except.ok a : Except ε α) >>= f = f a := rfl

structure EventParams where
  eventType : String
  eventReason : String
  eventMessage : String
  deriving DecidableEq, Repr

structure StatusUpdateOpts where
  shouldUpdate : Bool
  events : List EventParams
  deriving DecidableEq, Repr

inductive Metric
  | jobSetCompleted
  | jobSetFailed
  | jobSetActiveDeadlineExceeded
  deriving DecidableEq, Repr

/-- What one reconcile attempt holds in memory. -/
structure Pass where
  js : JobSet
  opts : StatusUpdateOpts
  metrics : List Metric

/-- The state at the start of an attempt. -/
def Pass.start (js : JobSet) : Pass := ⟨js, ⟨false, []⟩, []⟩

structure ConditionOpts where
  eventType : String
  condition : Condition

def eventTypeNormal := "Normal"
def eventTypeWarning := "Warning"

/-- `exclusiveConditions`: only the two startup policy conditions exclude each other. -/
def exclusiveConditions (cond1 cond2 : Condition) : Bool :=
  (cond1.type = .jobSetStartupPolicyInProgress ∧ cond2.type = .jobSetStartupPolicyCompleted) ∨
    (cond1.type = .jobSetStartupPolicyCompleted ∧ cond2.type = .jobSetStartupPolicyInProgress)

/-- The loop of `updateCondition`. It returns the rewritten list, whether a
condition of the type was found and whether anything changed. The new condition
is threaded through because the loop overwrites its transition time. -/
def updateConditionLoop : List Condition → Condition → List Condition × Bool × Bool
  | [], _ => ([], false, false)
  | currCond :: rest, newCond =>
    if newCond.type = currCond.type then
      if newCond.status ≠ currCond.status then
        let r := updateConditionLoop rest newCond
        (newCond :: r.1, true, true)
      else if newCond.reason ≠ currCond.reason ∨ newCond.message ≠ currCond.message then
        -- only the texts changed: the condition keeps its transition time
        let kept := { newCond with lastTransitionTime := currCond.lastTransitionTime }
        let r := updateConditionLoop rest kept
        (kept :: r.1, true, true)
      else
        let r := updateConditionLoop rest newCond
        (currCond :: r.1, true, r.2.2)
    else if exclusiveConditions currCond newCond ∧ currCond.status = .conditionTrue ∧
        newCond.status = .conditionTrue then
      let r := updateConditionLoop rest newCond
      ({ currCond with status := .conditionFalse } :: r.1, r.2.1, true)
    else
      let r := updateConditionLoop rest newCond
      (currCond :: r.1, r.2.1, r.2.2)

/-- `updateCondition`: the new list and whether a status update is needed. -/
def updateCondition (now : Time) (conditions : List Condition) (opts : ConditionOpts) :
    List Condition × Bool :=
  let newCond := { opts.condition with lastTransitionTime := now }
  let r := updateConditionLoop conditions newCond
  if !r.2.1 ∧ newCond.status = .conditionTrue then (r.1 ++ [newCond], true) else (r.1, r.2.2)

/-- `enqueueEvent`. -/
def enqueueEvent (p : Pass) (event : EventParams) : Pass :=
  { p with opts := { p.opts with events := p.opts.events ++ [event] } }

/-- `setCondition`. -/
def setCondition (now : Time) (condOpts : ConditionOpts) (p : Pass) : Pass :=
  let r := updateCondition now p.js.status.conditions condOpts
  if r.2 then
    enqueueEvent
      { p with
        js := { p.js with status := { p.js.status with conditions := r.1 } }
        opts := { p.opts with shouldUpdate := true } }
      ⟨condOpts.eventType, condOpts.condition.reason, condOpts.condition.message⟩
  else p

/-- A condition request, before its transition time is known. -/
def conditionOpts (eventType : String) (type : JobSetConditionType) (status : ConditionStatus)
    (reason message : String) : ConditionOpts :=
  ⟨eventType, ⟨type, status, reason, message, 0⟩⟩

def setRestartingConditionFalse (now : Time) (reason message : String) (p : Pass) : Pass :=
  setCondition now
    (conditionOpts eventTypeNormal .jobSetRestarting .conditionFalse reason message) p

def setJobSetCompletedCondition (now : Time) (p : Pass) : Pass :=
  let p := setCondition now (conditionOpts eventTypeNormal .jobSetCompleted .conditionTrue
    "AllJobsCompleted" "jobset completed successfully") p
  let p := setRestartingConditionFalse now "JobSetCompleted" "jobset completed successfully" p
  { p with
    js := { p.js with status := { p.js.status with terminalState := some .jobSetCompleted } }
    metrics := p.metrics ++ [.jobSetCompleted] }

def setJobSetFailedCondition (now : Time) (reason msg : String) (p : Pass) : Pass :=
  let p := setCondition now
    (conditionOpts eventTypeWarning .jobSetFailed .conditionTrue reason msg) p
  let p := setRestartingConditionFalse now "JobSetFailed" "jobset failed" p
  { p with
    js := { p.js with status := { p.js.status with terminalState := some .jobSetFailed } }
    metrics := p.metrics ++ [.jobSetFailed] }

def setJobSetSuspendedCondition (now : Time) (p : Pass) : Pass :=
  let p := setCondition now (conditionOpts eventTypeNormal .jobSetSuspended .conditionTrue
    "SuspendedJobs" "jobset is suspended") p
  setRestartingConditionFalse now "JobSetSuspended" "jobset is suspended" p

def setJobSetResumedCondition (now : Time) (p : Pass) : Pass :=
  setCondition now (conditionOpts eventTypeNormal .jobSetSuspended .conditionFalse
    "ResumeJobs" "jobset is resumed") p

def setInOrderStartupPolicyInProgressCondition (now : Time) (p : Pass) : Pass :=
  setCondition now (conditionOpts eventTypeNormal .jobSetStartupPolicyInProgress .conditionTrue
    "InOrderStartupPolicyInProgress" "in order startup policy is in progress") p

def setInOrderStartupPolicyCompletedCondition (now : Time) (p : Pass) : Pass :=
  setCondition now (conditionOpts eventTypeNormal .jobSetStartupPolicyCompleted .conditionTrue
    "InOrderStartupPolicyCompleted" "in order startup policy has completed") p

/-! ## Which conditions a call changes -/

/-- Some listed condition of the type is true. -/
def CondTrue (conditions : List Condition) (type : JobSetConditionType) : Prop :=
  ∃ c ∈ conditions, c.type = type ∧ c.status = .conditionTrue

/-- The two conditions that end a JobSet. -/
def JobSetConditionType.terminal (t : JobSetConditionType) : Prop :=
  t = .jobSetCompleted ∨ t = .jobSetFailed

theorem not_condTrue_nil (t : JobSetConditionType) : ¬ CondTrue [] t := by
  rintro ⟨c, hc, -⟩
  simp at hc

theorem condTrue_cons {c : Condition} {cs : List Condition} {t : JobSetConditionType} :
    CondTrue (c :: cs) t ↔ (c.type = t ∧ c.status = .conditionTrue) ∨ CondTrue cs t := by
  simp [CondTrue, or_and_right, exists_or]

theorem condTrue_append_singleton {c : Condition} {cs : List Condition} {t : JobSetConditionType} :
    CondTrue (cs ++ [c]) t ↔ CondTrue cs t ∨ (c.type = t ∧ c.status = .conditionTrue) := by
  simp [CondTrue, or_and_right, exists_or]

theorem jobSetFinished_iff (js : JobSet) :
    jobSetFinished js = true ↔ CondTrue js.status.conditions .jobSetCompleted ∨
      CondTrue js.status.conditions .jobSetFailed := by
  simp only [jobSetFinished, List.any_eq_true, decide_eq_true_eq, CondTrue]
  constructor
  · rintro ⟨c, hc, ht | ht, hs⟩
    · exact Or.inl ⟨c, hc, ht, hs⟩
    · exact Or.inr ⟨c, hc, ht, hs⟩
  · rintro (⟨c, hc, ht, hs⟩ | ⟨c, hc, ht, hs⟩)
    · exact ⟨c, hc, Or.inl ht, hs⟩
    · exact ⟨c, hc, Or.inr ht, hs⟩

/-- The loop leaves the truth of every other terminal condition alone. -/
theorem updateConditionLoop_other (cs : List Condition) (new : Condition)
    {t : JobSetConditionType} (ht : t.terminal) (hne : new.type ≠ t) :
    CondTrue (updateConditionLoop cs new).1 t ↔ CondTrue cs t := by
  induction cs generalizing new with
  | nil => rfl
  | cons c cs ih =>
    unfold updateConditionLoop
    split_ifs with h1 h2 h3 h4
    · simp only [condTrue_cons, ih new hne, ← h1, hne, false_and]
    · have hk := ih { new with lastTransitionTime := c.lastTransitionTime } hne
      simp only [condTrue_cons, hk, ← h1, hne, false_and]
    · simp only [condTrue_cons, ih new hne]
    · -- an exclusive condition is a startup policy condition, so not terminal
      have hc : c.type ≠ t := by
        rcases ht with rfl | rfl <;> rcases (by simpa [exclusiveConditions] using h4.1) with h | h <;>
          simp [h.1]
      simp only [condTrue_cons, ih new hne, hc, false_and]
    · simp only [condTrue_cons, ih new hne]

theorem updateCondition_other (now : Time) (cs : List Condition) (o : ConditionOpts)
    {t : JobSetConditionType} (ht : t.terminal) (hne : o.condition.type ≠ t) :
    CondTrue (updateCondition now cs o).1 t ↔ CondTrue cs t := by
  unfold updateCondition
  dsimp only
  split_ifs
  · rw [condTrue_append_singleton,
      updateConditionLoop_other _ { o.condition with lastTransitionTime := now } ht hne]
    simp [hne]
  · exact updateConditionLoop_other _ { o.condition with lastTransitionTime := now } ht hne

/-- Where the loop has found a condition of the type, the list holds the new one, up to its
message and its transition time. -/
theorem updateConditionLoop_found (cs : List Condition) (new : Condition)
    (hf : (updateConditionLoop cs new).2.1 = true) :
    ∃ c ∈ (updateConditionLoop cs new).1, c.type = new.type ∧ c.status = new.status ∧
      c.reason = new.reason := by
  induction cs generalizing new with
  | nil => simp [updateConditionLoop] at hf
  | cons c cs ih =>
    unfold updateConditionLoop at hf ⊢
    split_ifs at hf ⊢ with h1 h2 h3 h4
    · exact ⟨new, by simp, rfl, rfl, rfl⟩
    · exact ⟨_, List.mem_cons_self, rfl, rfl, rfl⟩
    · have htexts := not_or.mp h3
      exact ⟨c, by simp, h1.symm, (not_ne_iff.mp h2).symm, (not_ne_iff.mp htexts.1).symm⟩
    · obtain ⟨c', hc', h⟩ := ih new hf
      exact ⟨c', List.mem_cons_of_mem _ hc', h⟩
    · obtain ⟨c', hc', h⟩ := ih new hf
      exact ⟨c', List.mem_cons_of_mem _ hc', h⟩

/-- A condition that is set to true is there, with its reason. -/
theorem updateCondition_found (now : Time) (cs : List Condition) (o : ConditionOpts)
    (hs : o.condition.status = .conditionTrue) :
    ∃ c ∈ (updateCondition now cs o).1, c.type = o.condition.type ∧ c.status = .conditionTrue ∧
      c.reason = o.condition.reason := by
  unfold updateCondition
  dsimp only
  split_ifs with h
  · exact ⟨_, List.mem_append_right _ List.mem_cons_self, rfl, hs, rfl⟩
  · have hf : (updateConditionLoop cs { o.condition with lastTransitionTime := now }).2.1 = true := by
      simpa [hs] using h
    obtain ⟨c, hc, htype, hstatus, hreason⟩ :=
      updateConditionLoop_found cs { o.condition with lastTransitionTime := now } hf
    exact ⟨c, hc, htype, hstatus.trans hs, hreason⟩

theorem updateCondition_true (now : Time) (cs : List Condition) (o : ConditionOpts)
    (hs : o.condition.status = .conditionTrue) :
    CondTrue (updateCondition now cs o).1 o.condition.type := by
  obtain ⟨c, hc, htype, hstatus, -⟩ := updateCondition_found now cs o hs
  exact ⟨c, hc, htype, hstatus⟩

/-- A call that asks for no status update leaves the list as it was. -/
theorem updateConditionLoop_unchanged (cs : List Condition) (new : Condition)
    (h : (updateConditionLoop cs new).2.2 = false) : (updateConditionLoop cs new).1 = cs := by
  induction cs generalizing new with
  | nil => rfl
  | cons c cs ih =>
    unfold updateConditionLoop at h ⊢
    split_ifs at h ⊢ with h1 h2 h3 h4
    · exact congrArg (c :: ·) (ih new h)
    · exact congrArg (c :: ·) (ih new h)

theorem updateCondition_unchanged (now : Time) (cs : List Condition) (o : ConditionOpts)
    (h : (updateCondition now cs o).2 = false) : (updateCondition now cs o).1 = cs := by
  unfold updateCondition at h ⊢
  dsimp only at h ⊢
  split_ifs at h ⊢
  exact updateConditionLoop_unchanged _ _ h

/-- Whatever the branch, `setCondition` installs the updated list and touches
no other part of the JobSet. -/
theorem setCondition_js (now : Time) (o : ConditionOpts) (p : Pass) :
    (setCondition now o p).js = { p.js with status := { p.js.status with
      conditions := (updateCondition now p.js.status.conditions o).1 } } := by
  unfold setCondition
  dsimp only
  split_ifs with h
  · rfl
  · rw [updateCondition_unchanged now _ o (by simpa using h)]

theorem setCondition_metrics (now : Time) (o : ConditionOpts) (p : Pass) :
    (setCondition now o p).metrics = p.metrics := by
  unfold setCondition
  dsimp only
  split_ifs <;> rfl

/-- A condition that becomes true asks for a status update. -/
theorem setCondition_update {now : Time} {o : ConditionOpts} {p : Pass}
    (hs : o.condition.status = .conditionTrue)
    (h : ¬ CondTrue p.js.status.conditions o.condition.type) :
    (setCondition now o p).opts.shouldUpdate = true := by
  unfold setCondition
  dsimp only
  split_ifs with hu
  · rfl
  · have htrue := updateCondition_true now p.js.status.conditions o hs
    rw [updateCondition_unchanged now _ o (by simpa using hu)] at htrue
    exact absurd htrue h

theorem setCondition_shouldUpdate {now : Time} {o : ConditionOpts} {p : Pass}
    (h : p.opts.shouldUpdate = true) : (setCondition now o p).opts.shouldUpdate = true := by
  unfold setCondition
  dsimp only
  split_ifs
  · rfl
  · exact h

end JobSetOperator
