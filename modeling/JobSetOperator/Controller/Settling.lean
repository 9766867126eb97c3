import JobSetOperator.Controller.Conditions

/-!
# Condition requests that settle

A request for a condition is settled once the list says what it asks for; a
settled request changes nothing and asks for no status update, whatever the
clock says. One call settles its request and keeps the requests it does not
compete with, so that a second pass with the same requests is quiet.
-/
namespace JobSetOperator

/-! ## One request -/

/-- The list says what the request asks for. -/
structure SettledIn (o : ConditionOpts) (cs : List Condition) : Prop where
  same {c : Condition} (mem : c ∈ cs) (type : c.type = o.condition.type) :
    c.status = o.condition.status ∧ c.reason = o.condition.reason ∧
      c.message = o.condition.message
  found (status : o.condition.status = .conditionTrue) : ∃ c ∈ cs, c.type = o.condition.type
  excluded {c : Condition} (mem : c ∈ cs) (status : o.condition.status = .conditionTrue)
    (exclusive : exclusiveConditions c o.condition = true) : c.status ≠ .conditionTrue

/-- What the loop of `updateCondition` makes of one condition, up to its transition time. -/
def Rewritten (new c c' : Condition) : Prop :=
  if new.type = c.type then
    c'.type = new.type ∧ c'.status = new.status ∧ c'.reason = new.reason ∧ c'.message = new.message
  else if exclusiveConditions c new ∧ c.status = .conditionTrue ∧ new.status = .conditionTrue then
    c' = { c with status := .conditionFalse }
  else c' = c

theorem not_exclusive_same {c c' : Condition} (h : c.type = c'.type) :
    exclusiveConditions c c' = false := by
  unfold exclusiveConditions
  rw [h]
  cases c'.type <;> rfl

theorem Rewritten.type {new c c' : Condition} (h : Rewritten new c c') : c'.type = c.type := by
  unfold Rewritten at h
  split_ifs at h with htype hexclusive
  · exact h.1.trans htype
  · rw [h]
  · rw [h]

theorem updateConditionLoop_rewritten (cs : List Condition) (new : Condition) :
    List.Forall₂ (Rewritten new) cs (updateConditionLoop cs new).1 := by
  induction cs generalizing new with
  | nil => exact List.Forall₂.nil
  | cons c cs ih =>
    unfold updateConditionLoop
    split_ifs with htype hstatus htext hexclusive
    · apply List.Forall₂.cons _ (ih new)
      simp [Rewritten, htype]
    · -- the condition that goes on differs in its transition time only
      apply List.Forall₂.cons _ (ih { new with lastTransitionTime := c.lastTransitionTime })
      simp [Rewritten, htype]
    · apply List.Forall₂.cons _ (ih new)
      simp only [not_not, ne_eq, not_or] at hstatus htext
      simp [Rewritten, htype, hstatus, htext]
    · apply List.Forall₂.cons _ (ih new)
      simp only [Rewritten, if_neg htype, if_pos hexclusive]
    · apply List.Forall₂.cons _ (ih new)
      simp only [Rewritten, if_neg htype, if_neg hexclusive]

theorem updateConditionLoop_found_iff (cs : List Condition) (new : Condition) :
    (updateConditionLoop cs new).2.1 = true ↔ ∃ c ∈ cs, c.type = new.type := by
  induction cs generalizing new with
  | nil => simp [updateConditionLoop]
  | cons c cs ih =>
    unfold updateConditionLoop
    split_ifs with htype
    · simp [htype]
    · simp [htype]
    · simp [htype]
    · simp [ih, Ne.symm htype]
    · simp [ih, Ne.symm htype]

/-- The loop changes nothing exactly when every condition agrees with the new one. -/
theorem updateConditionLoop_flag_iff (cs : List Condition) (new : Condition) :
    (updateConditionLoop cs new).2.2 = false ↔ ∀ c ∈ cs,
      (c.type = new.type → c.status = new.status ∧ c.reason = new.reason ∧
        c.message = new.message) ∧
      (exclusiveConditions c new = true → new.status = .conditionTrue →
        c.status ≠ .conditionTrue) := by
  induction cs generalizing new with
  | nil => simp [updateConditionLoop]
  | cons c cs ih =>
    rw [List.forall_mem_cons]
    unfold updateConditionLoop
    split_ifs with htype hstatus htext hexclusive
    · simp only [false_iff, not_and]
      exact fun h => absurd (h.1 htype.symm).1.symm hstatus
    · simp only [false_iff, not_and]
      intro h
      obtain ⟨-, hreason, hmessage⟩ := h.1 htype.symm
      exact absurd htext (by simp [hreason, hmessage])
    · simp only [not_not, ne_eq, not_or] at hstatus htext
      have hnot := not_exclusive_same htype.symm
      simp [ih, hstatus, htext, hnot]
    · simp only [false_iff, not_and]
      exact fun h => absurd hexclusive.2.1 (h.2 hexclusive.1 hexclusive.2.2)
    · rw [ih]
      constructor
      · intro h
        refine ⟨⟨fun he => absurd he.symm htype, fun hx hn hc => ?_⟩, h⟩
        exact hexclusive ⟨hx, hc, hn⟩
      · exact fun h => h.2

/-- A request asks for no status update exactly when it is settled. -/
theorem updateCondition_flag_iff (now : Time) (cs : List Condition) (o : ConditionOpts) :
    (updateCondition now cs o).2 = false ↔ SettledIn o cs := by
  have hflag := updateConditionLoop_flag_iff cs { o.condition with lastTransitionTime := now }
  have hfound := updateConditionLoop_found_iff cs { o.condition with lastTransitionTime := now }
  unfold updateCondition
  dsimp only at hflag hfound ⊢
  split_ifs with h
  · simp only [false_iff]
    intro hs
    have hmissing := h.1
    rw [hfound.mpr (hs.found h.2)] at hmissing
    cases hmissing
  · rw [hflag]
    constructor
    · intro hall
      constructor
      · exact fun hc htype => (hall _ hc).1 htype
      · intro htrue
        have hthere : ¬ (!(updateConditionLoop cs
            { o.condition with lastTransitionTime := now }).2.1) = true := fun hf => h ⟨hf, htrue⟩
        exact hfound.mp (by simpa using hthere)
      · exact fun hc htrue hx => (hall _ hc).2 hx htrue
    · exact fun hs c hc => ⟨hs.same hc, fun hx htrue => hs.excluded hc htrue hx⟩

/-- Where the conditions of the new list come from. -/
theorem of_mem_updateCondition {now : Time} {cs : List Condition} {o : ConditionOpts}
    {c' : Condition} (h : c' ∈ (updateCondition now cs o).1) :
    (∃ c ∈ cs, Rewritten o.condition c c') ∨
      (c' = { o.condition with lastTransitionTime := now } ∧
        o.condition.status = .conditionTrue) := by
  have hloop := updateConditionLoop_rewritten cs { o.condition with lastTransitionTime := now }
  have hback : c' ∈ (updateConditionLoop cs { o.condition with lastTransitionTime := now }).1 →
      ∃ c ∈ cs, Rewritten o.condition c c' := by
    intro hmem
    obtain ⟨i, hi, rfl⟩ := List.getElem_of_mem hmem
    have hi' : i < cs.length := hloop.length_eq ▸ hi
    exact ⟨cs[i], List.getElem_mem hi', hloop.get hi' hi⟩
  unfold updateCondition at h
  dsimp only at h
  split_ifs at h with happend
  · rcases List.mem_append.mp h with h | h
    · exact Or.inl (hback h)
    · exact Or.inr ⟨List.mem_singleton.mp h, happend.2⟩
  · exact Or.inl (hback h)

/-- No condition leaves the list. -/
theorem exists_mem_updateCondition (now : Time) {cs : List Condition} (o : ConditionOpts)
    {c : Condition} (h : c ∈ cs) :
    ∃ c' ∈ (updateCondition now cs o).1, Rewritten o.condition c c' := by
  have hloop := updateConditionLoop_rewritten cs { o.condition with lastTransitionTime := now }
  obtain ⟨i, hi, rfl⟩ := List.getElem_of_mem h
  have hi' := hloop.length_eq ▸ hi
  have hmem := List.getElem_mem hi'
  unfold updateCondition
  dsimp only
  split_ifs
  · exact ⟨_, List.mem_append_left _ hmem, hloop.get hi hi'⟩
  · exact ⟨_, hmem, hloop.get hi hi'⟩

/-- A call settles its request. -/
theorem settledIn_updateCondition (now : Time) (cs : List Condition) (o : ConditionOpts) :
    SettledIn o (updateCondition now cs o).1 := by
  constructor
  · intro c' hc' htype
    rcases of_mem_updateCondition hc' with ⟨c, hc, hr⟩ | ⟨rfl, -⟩
    · have hold := hr.type
      rw [Rewritten, if_pos (by rw [← htype, hold])] at hr
      exact hr.2
    · exact ⟨rfl, rfl, rfl⟩
  · intro htrue
    obtain ⟨c, hc, htype, -⟩ := updateCondition_found now cs o htrue
    exact ⟨c, hc, htype⟩
  · intro c' hc' htrue hx
    rcases of_mem_updateCondition hc' with ⟨c, hc, hr⟩ | ⟨rfl, -⟩
    · have hold := hr.type
      have hx' : exclusiveConditions c o.condition = true := by
        unfold exclusiveConditions at hx ⊢
        rwa [hold] at hx
      unfold Rewritten at hr
      split_ifs at hr with hsame hexclusive
      · rw [not_exclusive_same hsame.symm] at hx'
        cases hx'
      · simp [hr]
      · rw [hr]
        exact fun hc => hexclusive ⟨hx', hc, htrue⟩
    · have hnot : exclusiveConditions { o.condition with lastTransitionTime := now } o.condition =
          false := not_exclusive_same rfl
      rw [hnot] at hx
      cases hx

/-- The two requests do not compete: they are the same one, or neither touches what the
other asks for. -/
def Compatible (o o' : ConditionOpts) : Prop :=
  o = o' ∨ (o.condition.type ≠ o'.condition.type ∧
    exclusiveConditions o.condition o'.condition = false)

/-- A call keeps the settled requests it does not compete with. -/
theorem SettledIn.updateCondition {o o' : ConditionOpts} {cs : List Condition}
    (h : SettledIn o cs) (hcompatible : Compatible o o') (now : Time) :
    SettledIn o (updateCondition now cs o').1 := by
  rcases hcompatible with rfl | ⟨hne, hnot⟩
  · exact settledIn_updateCondition now cs o
  -- a condition of the type of `o` is left alone
  have hkept : ∀ c c', c.type = o.condition.type → Rewritten o'.condition c c' → c' = c := by
    intro c c' htype hr
    have hnot' : exclusiveConditions c o'.condition = false := by
      unfold exclusiveConditions at hnot ⊢
      rwa [htype]
    rw [Rewritten, if_neg (by rw [htype]; exact hne.symm), if_neg (by simp [hnot'])] at hr
    exact hr
  constructor
  · intro c' hc' htype
    rcases of_mem_updateCondition hc' with ⟨c, hc, hr⟩ | ⟨rfl, -⟩
    · have hold := hr.type.symm.trans htype
      rw [hkept c c' hold hr]
      exact h.same hc hold
    · exact absurd htype.symm hne
  · intro htrue
    obtain ⟨c, hc, htype⟩ := h.found htrue
    obtain ⟨c', hc', hr⟩ := exists_mem_updateCondition now o' hc
    exact ⟨c', hc', hr.type.trans htype⟩
  · intro c' hc' htrue hx
    rcases of_mem_updateCondition hc' with ⟨c, hc, hr⟩ | ⟨rfl, -⟩
    · have hx' : exclusiveConditions c o.condition = true := by
        unfold exclusiveConditions at hx ⊢
        rwa [hr.type] at hx
      have hold := h.excluded hc htrue hx'
      unfold Rewritten at hr
      split_ifs at hr with hsame hexclusive
      · -- a condition that excludes `o` has another type than `o'`
        exfalso
        unfold exclusiveConditions at hx' hnot
        rw [← hsame] at hx'
        simp only [decide_eq_true_eq, decide_eq_false_iff_not] at hx' hnot
        exact hnot (hx'.symm.imp And.symm And.symm)
      · simp [hr]
      · rwa [hr]
    · exfalso
      unfold exclusiveConditions at hx hnot
      simp only [decide_eq_true_eq, decide_eq_false_iff_not] at hx hnot
      exact hnot (hx.symm.imp And.symm And.symm)

/-! ## The requests of a pass -/

/-- The pass makes the requests one after the other, each with a reading of its own. -/
inductive Asks : List ConditionOpts → Pass → Pass → Prop
  | nil (p : Pass) : Asks [] p p
  | cons {o : ConditionOpts} {os : List ConditionOpts} {p p' : Pass} (now : Time)
    (rest : Asks os (setCondition now o p) p') : Asks (o :: os) p p'

theorem Asks.single (now : Time) (o : ConditionOpts) (p : Pass) :
    Asks [o] p (setCondition now o p) :=
  .cons now (.nil _)

theorem Asks.append {os os' : List ConditionOpts} {p q r : Pass} (h : Asks os p q)
    (h' : Asks os' q r) : Asks (os ++ os') p r := by
  induction h with
  | nil p => exact h'
  | cons now _ ih => exact .cons now (ih h')

/-- Requests change nothing but the conditions. -/
theorem Asks.js {os : List ConditionOpts} {p p' : Pass} (h : Asks os p p') :
    p'.js = { p.js with status := { p.js.status with conditions := p'.js.status.conditions } } := by
  induction h with
  | nil p => rfl
  | cons now _ ih =>
    rw [setCondition_js] at ih
    exact ih

theorem Asks.metrics {os : List ConditionOpts} {p p' : Pass} (h : Asks os p p') :
    p'.metrics = p.metrics := by
  induction h with
  | nil p => rfl
  | cons now _ ih => rw [ih, setCondition_metrics]

theorem Asks.shouldUpdate {os : List ConditionOpts} {p p' : Pass} (h : Asks os p p')
    (hu : p.opts.shouldUpdate = true) : p'.opts.shouldUpdate = true := by
  induction h with
  | nil p => exact hu
  | cons now _ ih => exact ih (setCondition_shouldUpdate hu)

theorem setCondition_of_settled {now : Time} {o : ConditionOpts} {p : Pass}
    (h : SettledIn o p.js.status.conditions) : setCondition now o p = p := by
  unfold setCondition
  dsimp only
  rw [if_neg (by simp [(updateCondition_flag_iff now _ o).mpr h])]

theorem setCondition_of_unsettled {now : Time} {o : ConditionOpts} {p : Pass}
    (h : ¬ SettledIn o p.js.status.conditions) :
    (setCondition now o p).opts.shouldUpdate = true := by
  have hflag : (updateCondition now p.js.status.conditions o).2 = true := by
    rw [← Bool.not_eq_false, updateCondition_flag_iff]
    exact h
  unfold setCondition
  dsimp only
  rw [if_pos hflag]
  rfl

/-- Settled requests leave the pass as it is. -/
theorem Asks.of_settled {os : List ConditionOpts} {p p' : Pass} (h : Asks os p p')
    (hs : ∀ o ∈ os, SettledIn o p.js.status.conditions) : p' = p := by
  induction h with
  | nil p => rfl
  | cons now _ ih =>
    obtain ⟨hfirst, hrest⟩ := List.forall_mem_cons.mp hs
    rw [setCondition_of_settled hfirst] at ih
    exact ih hrest

/-- A request that is not settled asks for a status update. -/
theorem Asks.of_unsettled {os : List ConditionOpts} {p p' : Pass} (h : Asks os p p')
    (hs : ¬ ∀ o ∈ os, SettledIn o p.js.status.conditions) : p'.opts.shouldUpdate = true := by
  induction h with
  | nil p => simp at hs
  | @cons o os p p' now rest ih =>
    by_cases hfirst : SettledIn o p.js.status.conditions
    · rw [setCondition_of_settled hfirst] at ih
      exact ih fun hrest => hs (List.forall_mem_cons.mpr ⟨hfirst, hrest⟩)
    · exact rest.shouldUpdate (setCondition_of_unsettled hfirst)

theorem Asks.keeps {os : List ConditionOpts} {p p' : Pass} (h : Asks os p p') {o : ConditionOpts}
    (hs : SettledIn o p.js.status.conditions) (hcompatible : ∀ o' ∈ os, Compatible o o') :
    SettledIn o p'.js.status.conditions := by
  induction h with
  | nil p => exact hs
  | @cons first rest p p' now _ ih =>
    obtain ⟨hfirst, hrest⟩ := List.forall_mem_cons.mp hcompatible
    apply ih _ hrest
    rw [setCondition_js]
    exact hs.updateCondition hfirst now

/-- Requests that do not compete are settled together. -/
theorem Asks.settles {os : List ConditionOpts} {p p' : Pass} (h : Asks os p p')
    (hcompatible : os.Pairwise Compatible) : ∀ o ∈ os, SettledIn o p'.js.status.conditions := by
  induction h with
  | nil p => simp
  | @cons o os p p' now rest ih =>
    obtain ⟨hfirst, hothers⟩ := List.pairwise_cons.mp hcompatible
    rw [List.forall_mem_cons]
    constructor
    · apply rest.keeps _ hfirst
      rw [setCondition_js]
      exact settledIn_updateCondition now _ o
    · exact ih hothers

/-- Requests for other conditions do not finish a JobSet. -/
theorem Asks.condTrue {os : List ConditionOpts} {p p' : Pass} (h : Asks os p p')
    {t : JobSetConditionType} (ht : t.terminal) (hos : ∀ o ∈ os, o.condition.type ≠ t) :
    CondTrue p'.js.status.conditions t ↔ CondTrue p.js.status.conditions t := by
  induction h with
  | nil p => rfl
  | cons now _ ih =>
    obtain ⟨hfirst, hrest⟩ := List.forall_mem_cons.mp hos
    rw [ih hrest, setCondition_js]
    exact updateCondition_other now _ _ ht hfirst

end JobSetOperator
