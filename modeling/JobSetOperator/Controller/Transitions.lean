import JobSetOperator.Controller.Settling
import JobSetOperator.Library.Keyed

/-!
# Runs of condition requests

A list of conditions that starts empty and is changed by `setCondition` only. The
types stay different, the two startup policy conditions are never both true, and
only a request for true adds a type. The transition times follow the status except
where a request turns the other startup policy condition false: that condition
keeps the time at which it turned true.
-/
namespace JobSetOperator

open Library

/-- A call of `setCondition` at a time. -/
structure ConditionCall where
  now : Time
  opts : ConditionOpts

/-- The pass after the calls. -/
def setConditions (calls : List ConditionCall) (p : Pass) : Pass :=
  calls.foldl (fun p call => setCondition call.now call.opts p) p

/-- The pass of a JobSet without conditions. -/
def unconditioned (js : JobSet) : Pass :=
  .start { js with status := { js.status with conditions := [] } }

/-- The conditions after the calls. -/
def conditionsAfter (js : JobSet) (calls : List ConditionCall) : List Condition :=
  (setConditions calls (unconditioned js)).js.status.conditions

theorem setConditions_append (calls : List ConditionCall) (call : ConditionCall) (p : Pass) :
    setConditions (calls ++ [call]) p = setCondition call.now call.opts (setConditions calls p) := by
  simp [setConditions]

theorem conditionsAfter_append (js : JobSet) (calls : List ConditionCall) (call : ConditionCall) :
    conditionsAfter js (calls ++ [call]) =
      (updateCondition call.now (conditionsAfter js calls) call.opts).1 := by
  unfold conditionsAfter
  rw [setConditions_append, setCondition_js]

/-! ## The list -/

/-- What holds of the conditions after the calls. -/
structure ConditionsOk (calls : List ConditionCall) (p : Pass) : Prop where
  distinct : (p.js.status.conditions.map (·.type)).Nodup
  exclusive : ¬ (CondTrue p.js.status.conditions .jobSetStartupPolicyInProgress ∧
    CondTrue p.js.status.conditions .jobSetStartupPolicyCompleted)
  asked : ∀ c ∈ p.js.status.conditions, ∃ call ∈ calls,
    call.opts.condition.type = c.type ∧ call.opts.condition.status = .conditionTrue
  repeated : ∀ call ∈ calls.getLast?, ∀ now opts,
    setCondition now call.opts { p with opts := opts } = { p with opts := opts }

theorem updateConditionLoop_types (cs : List Condition) (new : Condition) :
    (updateConditionLoop cs new).1.map (·.type) = cs.map (·.type) := by
  induction cs generalizing new with
  | nil => rfl
  | cons c cs ih =>
    unfold updateConditionLoop
    split_ifs with htype
    · simp [ih, htype]
    · simp [ih, htype]
    · simp [ih]
    · simp [ih]
    · simp [ih]

theorem updateCondition_nodup (now : Time) {cs : List Condition} (o : ConditionOpts)
    (h : (cs.map (·.type)).Nodup) : ((updateCondition now cs o).1.map (·.type)).Nodup := by
  unfold updateCondition
  dsimp only
  split_ifs with hnew
  · have hmissing : ¬ ∃ c ∈ cs, c.type = o.condition.type := by
      rw [← updateConditionLoop_found_iff cs { o.condition with lastTransitionTime := now }]
      simpa using hnew.1
    rw [List.map_append, updateConditionLoop_types, List.map_singleton, List.nodup_append]
    refine ⟨h, List.nodup_singleton _, ?_⟩
    intro t ht t' ht' heq
    obtain ⟨c, hc, rfl⟩ := List.mem_map.mp ht
    rw [List.mem_singleton] at ht'
    exact hmissing ⟨c, hc, heq.trans ht'⟩
  · rw [updateConditionLoop_types]
    exact h

/-- A condition becomes true by a request for it only. -/
theorem condTrue_of_updateCondition {now : Time} {cs : List Condition} {o : ConditionOpts}
    {t : JobSetConditionType} (h : CondTrue (updateCondition now cs o).1 t) :
    CondTrue cs t ∨ (o.condition.type = t ∧ o.condition.status = .conditionTrue) := by
  obtain ⟨c', hc', rfl, htrue⟩ := h
  rcases of_mem_updateCondition hc' with ⟨c, hc, hr⟩ | ⟨rfl, hasked⟩
  · have htype := hr.type
    unfold Rewritten at hr
    split_ifs at hr with hsame hexclusive
    · exact Or.inr ⟨hr.1.symm, hr.2.1.symm.trans htrue⟩
    · rw [hr] at htrue
      cases htrue
    · rw [hr] at htrue
      exact Or.inl ⟨c, hc, htype.symm, htrue⟩
  · exact Or.inr ⟨rfl, hasked⟩

theorem updateCondition_exclusive {now : Time} {cs : List Condition} {o : ConditionOpts}
    (h : ¬ (CondTrue cs .jobSetStartupPolicyInProgress ∧
      CondTrue cs .jobSetStartupPolicyCompleted)) :
    ¬ (CondTrue (updateCondition now cs o).1 .jobSetStartupPolicyInProgress ∧
      CondTrue (updateCondition now cs o).1 .jobSetStartupPolicyCompleted) := by
  have hsettled := settledIn_updateCondition now cs o
  rintro ⟨hprogress, hcompleted⟩
  obtain ⟨c, hc, hctype, hctrue⟩ := id hprogress
  obtain ⟨d, hd, hdtype, hdtrue⟩ := id hcompleted
  rcases condTrue_of_updateCondition hprogress with hold | ⟨htype, hasked⟩
  · rcases condTrue_of_updateCondition hcompleted with hold' | ⟨htype, hasked⟩
    · exact h ⟨hold, hold'⟩
    · exact hsettled.excluded hc hasked (by simp [exclusiveConditions, hctype, htype]) hctrue
  · exact hsettled.excluded hd hasked (by simp [exclusiveConditions, hdtype, htype]) hdtrue

theorem ConditionsOk.next {calls : List ConditionCall} {p : Pass} (h : ConditionsOk calls p)
    (call : ConditionCall) :
    ConditionsOk (calls ++ [call]) (setCondition call.now call.opts p) := by
  constructor
  · rw [setCondition_js]
    exact updateCondition_nodup call.now call.opts h.distinct
  · rw [setCondition_js]
    exact updateCondition_exclusive h.exclusive
  · rw [setCondition_js]
    intro c' hc'
    rcases of_mem_updateCondition hc' with ⟨c, hc, hr⟩ | ⟨rfl, hasked⟩
    · obtain ⟨earlier, hearlier, htype, hasked⟩ := h.asked c hc
      exact ⟨earlier, List.mem_append_left _ hearlier, htype.trans hr.type.symm, hasked⟩
    · exact ⟨call, by simp, rfl, hasked⟩
  · intro last hlast now opts
    obtain rfl : call = last := by simpa using hlast
    apply setCondition_of_settled
    rw [setCondition_js]
    exact settledIn_updateCondition call.now _ call.opts

/-- After any calls on an empty list the types are different, the startup policy conditions
exclude each other, every listed type was asked to be true, and the last call is settled. -/
theorem conditions_invariant (js : JobSet) (calls : List ConditionCall) :
    ConditionsOk calls (setConditions calls (unconditioned js)) := by
  induction calls using List.reverseRecOn with
  | nil =>
    constructor
    · exact List.nodup_nil
    · exact fun h => not_condTrue_nil _ h.1
    · exact fun c hc => absurd hc List.not_mem_nil
    · simp
  | append_singleton calls call ih =>
    rw [setConditions_append]
    exact ih.next call

/-! ## Transition times -/

/-- The status listed for a type. -/
def statusOf (cs : List Condition) (type : JobSetConditionType) : Option ConditionStatus :=
  (cs.find? fun c => c.type = type).map (·.status)

/-- The call that follows the earlier ones changes the status of the type; being added
counts. -/
def changes (js : JobSet) (earlier : List ConditionCall) (call : ConditionCall)
    (type : JobSetConditionType) : Bool :=
  statusOf (conditionsAfter js (earlier ++ [call])) type ≠ statusOf (conditionsAfter js earlier) type

/-- The time of the last change, with the newest call first. -/
def lastChangeFrom (js : JobSet) (type : JobSetConditionType) : List ConditionCall → Option Time
  | [] => none
  | call :: earlier =>
    if changes js earlier.reverse call type then some call.now else lastChangeFrom js type earlier

/-- The time of the last call that changed the status of the type. -/
def lastChange (js : JobSet) (calls : List ConditionCall) (type : JobSetConditionType) :
    Option Time :=
  lastChangeFrom js type calls.reverse

theorem lastChange_append (js : JobSet) (calls : List ConditionCall) (call : ConditionCall)
    (type : JobSetConditionType) :
    lastChange js (calls ++ [call]) type =
      if changes js calls call type then some call.now else lastChange js calls type := by
  simp [lastChange, lastChangeFrom]

/-- The transition times are the times of the last changes. -/
def TimesRight (js : JobSet) (calls : List ConditionCall) : Prop :=
  ∀ c ∈ conditionsAfter js calls, lastChange js calls c.type = some c.lastTransitionTime

/-- A request for the condition turns the listed one false. -/
def Flips (new c : Condition) : Prop :=
  exclusiveConditions c new = true ∧ c.status = .conditionTrue ∧ new.status = .conditionTrue

instance (new c : Condition) : Decidable (Flips new c) := inferInstanceAs (Decidable (_ ∧ _ ∧ _))

/-- What the loop makes of a condition that is the only one of its type. -/
def rewriteCondition (new c : Condition) : Condition :=
  if new.type = c.type then
    if new.status ≠ c.status then new
    else if new.reason ≠ c.reason ∨ new.message ≠ c.message then
      { new with lastTransitionTime := c.lastTransitionTime }
    else c
  else if Flips new c then { c with status := .conditionFalse }
  else c

theorem updateConditionLoop_eq {cs : List Condition} (hn : (cs.map (·.type)).Nodup)
    (new : Condition) : (updateConditionLoop cs new).1 = cs.map (rewriteCondition new) := by
  induction cs generalizing new with
  | nil => rfl
  | cons c cs ih =>
    obtain ⟨hfirst, hrest⟩ := List.nodup_cons.mp hn
    unfold updateConditionLoop
    rw [List.map_cons]
    split_ifs with htype hstatus htext hexclusive
    · dsimp only
      rw [ih hrest, rewriteCondition, if_pos htype, if_pos hstatus]
    · -- the time that is kept reaches no other condition, since the types are different
      have hothers : ∀ d ∈ cs, rewriteCondition
          { new with lastTransitionTime := c.lastTransitionTime } d = rewriteCondition new d := by
        intro d hd
        have hne : new.type ≠ d.type := fun heq =>
          hfirst (List.mem_map.mpr ⟨d, hd, heq.symm.trans htype⟩)
        unfold rewriteCondition
        rw [if_neg hne, if_neg hne]
        rfl
      dsimp only
      rw [ih hrest, List.map_congr_left hothers, rewriteCondition, if_pos htype, if_neg hstatus,
        if_pos htext]
    · dsimp only
      rw [ih hrest, rewriteCondition, if_pos htype, if_neg hstatus, if_neg htext]
    · have hflips : Flips new c := hexclusive
      dsimp only
      rw [ih hrest, rewriteCondition, if_neg htype, if_pos hflips]
    · have hflips : ¬ Flips new c := hexclusive
      dsimp only
      rw [ih hrest, rewriteCondition, if_neg htype, if_neg hflips]

theorem statusOf_of_mem {cs : List Condition} (hn : (cs.map (·.type)).Nodup) {c : Condition}
    (h : c ∈ cs) : statusOf cs c.type = some c.status := by
  unfold statusOf
  rw [find?_of_nodup hn h]
  rfl

theorem statusOf_eq_none {cs : List Condition} {type : JobSetConditionType}
    (h : ¬ ∃ c ∈ cs, c.type = type) : statusOf cs type = none := by
  unfold statusOf
  rw [List.find?_eq_none.mpr fun c hc => by simpa using fun heq => h ⟨c, hc, heq⟩]
  rfl

theorem rewriteCondition_type (new c : Condition) : (rewriteCondition new c).type = c.type := by
  unfold rewriteCondition
  split_ifs with htype <;> simp [htype]

/-- A condition that is rewritten has the new time exactly if its status changes, unless it
is turned false from outside. -/
theorem rewriteCondition_time {new c : Condition}
    (hflips : Flips new c → c.lastTransitionTime = new.lastTransitionTime) :
    (if decide ((rewriteCondition new c).status ≠ c.status) = true then some new.lastTransitionTime
      else some c.lastTransitionTime) = some (rewriteCondition new c).lastTransitionTime := by
  unfold rewriteCondition
  by_cases htype : new.type = c.type
  · rw [if_pos htype]
    by_cases hstatus : new.status = c.status
    · rw [if_neg (not_not.mpr hstatus)]
      by_cases htext : new.reason ≠ c.reason ∨ new.message ≠ c.message
      · simp [if_pos htext, hstatus]
      · simp [if_neg htext]
    · simp [hstatus]
  · rw [if_neg htype]
    by_cases hflip : Flips new c
    · simp [if_pos hflip, hflip.2.1, hflips hflip]
    · simp [if_neg hflip]

/-- Where the conditions of the new list come from, when the types are different. -/
theorem mem_updateCondition_iff {now : Time} {cs : List Condition} {o : ConditionOpts}
    (hn : (cs.map (·.type)).Nodup) {c' : Condition} :
    c' ∈ (updateCondition now cs o).1 ↔
      (∃ c ∈ cs, c' = rewriteCondition { o.condition with lastTransitionTime := now } c) ∨
      (c' = { o.condition with lastTransitionTime := now } ∧
        o.condition.status = .conditionTrue ∧ ¬ ∃ c ∈ cs, c.type = o.condition.type) := by
  have hfound := updateConditionLoop_found_iff cs { o.condition with lastTransitionTime := now }
  have hmap := updateConditionLoop_eq hn { o.condition with lastTransitionTime := now }
  unfold updateCondition
  dsimp only at hfound ⊢
  rw [hmap]
  split_ifs with hnew
  · have hmissing : ¬ ∃ c ∈ cs, c.type = o.condition.type := by
      rw [← hfound]
      simpa using hnew.1
    rw [List.mem_append, List.mem_map, List.mem_singleton]
    constructor
    · rintro (⟨c, hc, rfl⟩ | rfl)
      · exact Or.inl ⟨c, hc, rfl⟩
      · exact Or.inr ⟨rfl, hnew.2, hmissing⟩
    · rintro (⟨c, hc, rfl⟩ | ⟨rfl, -, -⟩)
      · exact Or.inl ⟨c, hc, rfl⟩
      · exact Or.inr rfl
  · rw [List.mem_map]
    constructor
    · rintro ⟨c, hc, rfl⟩
      exact Or.inl ⟨c, hc, rfl⟩
    · rintro (⟨c, hc, rfl⟩ | ⟨-, htrue, hmissing⟩)
      · exact ⟨c, hc, rfl⟩
      · rw [← hfound] at hmissing
        exact absurd ⟨by simpa using hmissing, htrue⟩ hnew

section Step

variable {js : JobSet} {calls : List ConditionCall}

theorem conditionsAfter_nodup (js : JobSet) (calls : List ConditionCall) :
    ((conditionsAfter js calls).map (·.type)).Nodup :=
  (conditions_invariant js calls).distinct

/-- A listed condition that is rewritten has changed exactly if its status is another one. -/
theorem changes_rewritten {call : ConditionCall} {c : Condition} (hc : c ∈ conditionsAfter js calls) :
    changes js calls call c.type = decide ((rewriteCondition
      { call.opts.condition with lastTransitionTime := call.now } c).status ≠ c.status) := by
  have hmem : rewriteCondition { call.opts.condition with lastTransitionTime := call.now } c ∈
      conditionsAfter js (calls ++ [call]) := by
    rw [conditionsAfter_append, mem_updateCondition_iff (conditionsAfter_nodup js calls)]
    exact Or.inl ⟨c, hc, rfl⟩
  have hafter := statusOf_of_mem (conditionsAfter_nodup js (calls ++ [call])) hmem
  rw [rewriteCondition_type] at hafter
  unfold changes
  rw [hafter, statusOf_of_mem (conditionsAfter_nodup js calls) hc]
  simp

/-- The times stay right unless a call turns another condition false at a later time. -/
theorem TimesRight.next (h : TimesRight js calls) {call : ConditionCall}
    (hflips : ∀ c ∈ conditionsAfter js calls, Flips call.opts.condition c →
      c.lastTransitionTime = call.now) : TimesRight js (calls ++ [call]) := by
  intro c' hc'
  rw [lastChange_append]
  rw [conditionsAfter_append, mem_updateCondition_iff (conditionsAfter_nodup js calls)] at hc'
  rcases hc' with ⟨c, hc, rfl⟩ | ⟨rfl, htrue, hmissing⟩
  · rw [rewriteCondition_type, changes_rewritten hc, h c hc]
    exact rewriteCondition_time (hflips c hc)
  · have hadded : changes js calls call call.opts.condition.type = true := by
      have hmem : { call.opts.condition with lastTransitionTime := call.now } ∈
          conditionsAfter js (calls ++ [call]) := by
        rw [conditionsAfter_append, mem_updateCondition_iff (conditionsAfter_nodup js calls)]
        exact Or.inr ⟨rfl, htrue, hmissing⟩
      have hafter := statusOf_of_mem (conditionsAfter_nodup js (calls ++ [call])) hmem
      unfold changes
      rw [statusOf_eq_none hmissing, hafter]
      simp
    rw [if_pos hadded]

/-- A call that turns another condition false leaves its time behind. -/
theorem TimesRight.flips {call : ConditionCall} (h : TimesRight js (calls ++ [call]))
    {c : Condition} (hc : c ∈ conditionsAfter js calls) (hflip : Flips call.opts.condition c) :
    c.lastTransitionTime = call.now := by
  have hne : call.opts.condition.type ≠ c.type := fun heq => by
    have hnot := not_exclusive_same heq.symm
    rw [hflip.1] at hnot
    cases hnot
  have hrewritten : rewriteCondition { call.opts.condition with lastTransitionTime := call.now } c =
      { c with status := .conditionFalse } := by
    have hflip' : Flips { call.opts.condition with lastTransitionTime := call.now } c := hflip
    rw [rewriteCondition, if_neg hne, if_pos hflip']
  have hmem : { c with status := .conditionFalse } ∈ conditionsAfter js (calls ++ [call]) := by
    rw [conditionsAfter_append, mem_updateCondition_iff (conditionsAfter_nodup js calls)]
    exact Or.inl ⟨c, hc, hrewritten.symm⟩
  have hright := h _ hmem
  rw [lastChange_append, changes_rewritten hc, hrewritten] at hright
  simpa [hflip.2.1] using hright.symm

end Step

/-- After each call every listed condition has the time of its last status change exactly if
no call turns the other startup policy condition false at a later time than it turned true. -/
theorem transition_times_iff (js : JobSet) (calls : List ConditionCall) :
    (∀ earlier, earlier <+: calls → TimesRight js earlier) ↔
      ∀ earlier call, earlier ++ [call] <+: calls → ∀ c ∈ conditionsAfter js earlier,
        Flips call.opts.condition c → c.lastTransitionTime = call.now := by
  constructor
  · intro h earlier call hprefix c hc hflip
    exact (h _ hprefix).flips hc hflip
  · intro h earlier
    induction earlier using List.reverseRecOn with
    | nil => exact fun _ c hc => absurd hc List.not_mem_nil
    | append_singleton earlier call ih =>
      intro hprefix
      exact (ih ((List.prefix_append _ _).trans hprefix)).next (h earlier call hprefix)

/-- The startup of a JobSet with the InOrder policy: in progress, then completed. -/
def startupCalls : List ConditionCall :=
  [⟨1, conditionOpts eventTypeNormal .jobSetStartupPolicyInProgress .conditionTrue
      "InOrderStartupPolicyInProgress" "in order startup policy is in progress"⟩,
    ⟨2, conditionOpts eventTypeNormal .jobSetStartupPolicyCompleted .conditionTrue
      "InOrderStartupPolicyCompleted" "in order startup policy has completed"⟩]

/-- The condition that turns false keeps the time at which it turned true. -/
theorem transition_time_left_behind :
    (startupCalls.map (·.now)).Pairwise (· ≤ ·) ∧
    (∃ c ∈ conditionsAfter .zero startupCalls, c.type = .jobSetStartupPolicyInProgress ∧
      c.status = .conditionFalse ∧ c.lastTransitionTime = 1 ∧
      lastChange .zero startupCalls c.type = some 2) ∧
    ¬ TimesRight .zero startupCalls := by
  have hlisted : ∃ c ∈ conditionsAfter .zero startupCalls, c.type = .jobSetStartupPolicyInProgress ∧
      c.status = .conditionFalse ∧ c.lastTransitionTime = 1 ∧
      lastChange .zero startupCalls c.type = some 2 :=
    ⟨_, List.mem_cons_self, rfl, rfl, rfl, by decide⟩
  refine ⟨by decide, hlisted, fun hright => ?_⟩
  obtain ⟨c, hc, -, -, htime, hlast⟩ := hlisted
  have hsame := (hright c hc).symm.trans hlast
  rw [htime] at hsame
  cases hsame

end JobSetOperator
