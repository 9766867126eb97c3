import JobSetOperator.Scheduling.Server

/-!
# The scheduling objects converge

One pass of `reconcileSchedulingObjects` over objects that hold the desired ones
creates what is missing and patches minimums, and nothing else. It is followed
object by object: what each step may send, and what it leaves in the store. A
pass that returns without an error leaves every object as desired, and a pass over
such objects only reads.
-/
namespace JobSetOperator

open Library

/-- The calls of a pass that may create or update, but deletes nothing. -/
def Permits (create update : Prop) : SchedulingRequest → Prop
  | .getWorkload _ | .getPodGroup _ | .listPodGroups _ => True
  | .createWorkload _ _ | .createPodGroup _ _ => create
  | .updateWorkload _ _ | .updatePodGroup _ _ => update
  | .deleteWorkload _ | .deletePodGroup _ => False

/-! ## One object -/

section Object

variable {α : Type} (kind : Kind α)

/-- The object is missing or holds the desired one; if `exact`, also in its minimum. -/
def ObjectAt (exact : Prop) (Holds Normalizes : α → Prop) (s : SchedulingStore) (name : String) :
    Prop :=
  ∀ stored, kind.get s name = some stored →
    ∃ spec, stored = .live spec ∧ Holds spec ∧ (exact → Normalizes spec)

/-- The object is stored from the desired one. -/
def Settled (Normalizes : α → Prop) (s : SchedulingStore) (name : String) : Prop :=
  ∃ spec, kind.get s name = some (.live spec) ∧ Normalizes spec

/-- What the step for one object leaves, from `s`. -/
structure ObjectStep (faults exact : Prop) (Holds Normalizes : α → Prop) (s : SchedulingStore)
    (name : String) (materializes : Prop) (s' : SchedulingStore) (res : Except String Bool) :
    Prop where
  changed : ∃ after, s' = kind.set s name after
  at_name : ObjectAt kind exact Holds Normalizes s' name
  present (h : (kind.get s name).isSome = true) : (kind.get s' name).isSome = true
  same (h : Settled kind Normalizes s name) : s' = s
  ok {b : Bool} (h : res = .ok b) : b = true ∧ Settled kind Normalizes s' name
  returns (hf : ¬ faults) (hm : materializes) : ∃ b, res = .ok b

variable {kind} {faults exact materializes : Prop} {Holds Normalizes : α → Prop}
  {s : SchedulingStore} {name : String}

/-- An error before any write. -/
theorem ObjectStep.failed (hat : ObjectAt kind exact Holds Normalizes s name) (err : String)
    (h : ¬ faults → materializes → False) :
    ObjectStep kind faults exact Holds Normalizes s name materializes s (.error err) where
  changed := ⟨_, (kind.set_get s name).symm⟩
  at_name := hat
  present h := h
  same _ := rfl
  ok h := by cases h
  returns hf hm := (h hf hm).elim

/-- Nothing to do. -/
theorem ObjectStep.quiet (hat : ObjectAt kind exact Holds Normalizes s name)
    (h : Settled kind Normalizes s name) :
    ObjectStep kind faults exact Holds Normalizes s name materializes s (.ok true) where
  changed := ⟨_, (kind.set_get s name).symm⟩
  at_name := hat
  present h := h
  same _ := rfl
  ok hb := by
    cases hb
    exact ⟨rfl, h⟩
  returns _ _ := ⟨true, rfl⟩

/-- A write that leaves the desired object. -/
theorem ObjectStep.wrote {spec : α} {s' : SchedulingStore} {res : Except String Bool}
    (hs : s' = kind.set s name (some (.live spec))) (hholds : Holds spec) (hnorm : Normalizes spec)
    (hun : ¬ Settled kind Normalizes s name)
    (hres : res = .ok true ∨ faults ∧ ∃ err, res = .error err) :
    ObjectStep kind faults exact Holds Normalizes s name materializes s' res := by
  have hname : kind.get s' name = some (.live spec) := by
    rw [hs]
    exact kind.get_set ..
  refine ⟨⟨_, hs⟩, ?_, ?_, fun h => (hun h).elim, ?_, ?_⟩
  · intro stored hstored
    rw [hname] at hstored
    cases hstored
    exact ⟨spec, rfl, hholds, fun _ => hnorm⟩
  · intro _
    rw [hname]
    rfl
  · intro b hb
    rcases hres with rfl | ⟨-, err, rfl⟩
    · cases hb
      exact ⟨rfl, spec, hname, hnorm⟩
    · cases hb
  · intro hf _
    rcases hres with rfl | ⟨hfault, -⟩
    · exact ⟨true, rfl⟩
    · exact (hf hfault).elim

theorem not_settled_of_missing (h : kind.get s name = none) : ¬ Settled kind Normalizes s name := by
  rintro ⟨spec, hspec, -⟩
  rw [h] at hspec
  cases hspec

end Object

section Steps

variable {faults create update exact : Prop} {platform : Platform} {lib : BuilderLibrary}
  {js : JobSet} {s : SchedulingStore}

/-! ## One PodGroup -/

/-- A PodGroup with the desired minimum is left alone. -/
theorem reconcileExistingPodGroup_same {name : String} {spec desired : PodGroupSpec}
    (h : desired.Holds spec)
    (hsame : spec.schedulingPolicy.minCountDiffers desired.schedulingPolicy = false) :
    reconcileExistingPodGroup platform js name (.live spec) desired = .done true := by
  unfold reconcileExistingPodGroup
  simp [Stored.live, h.equal, hsame]

/-- A PodGroup with another minimum is updated. -/
theorem reconcileExistingPodGroup_patch {name : String} {spec desired : PodGroupSpec}
    (h : desired.Holds spec)
    (hdiffers : spec.schedulingPolicy.minCountDiffers desired.schedulingPolicy = true) :
    reconcileExistingPodGroup platform js name (.live spec) desired =
      .call (.updatePodGroup name (spec.patchMinCount desired)) fun outcome =>
        orFail ("patching PodGroup " ++ name ++ " minCount: ") outcome >>= fun _ => pure true := by
  unfold reconcileExistingPodGroup
  simp only [Stored.live, h.equal, hdiffers, Bool.not_true, Bool.false_eq_true, if_false,
    Option.isSome_none, if_true]
  rfl

/-- The step for one PodGroup: it creates a missing one and patches a minimum. -/
theorem reconcilePodGroup_ensures (hlib : lib.Copies) {tmpl : PodGroupTemplate} {name : String}
    (hname : schedulingPodGroupName platform js tmpl.name = name)
    (hat : ObjectAt podGroups exact tmpl.podGroup.Holds tmpl.podGroup.Normalizes s name)
    (hcreate : podGroups.get s name = none → create)
    (hupdate : (podGroups.get s name).isSome = true →
      ¬ Settled podGroups tmpl.podGroup.Normalizes s name → update) :
    Program.Ensures (serves faults) (Permits create update)
      (ObjectStep podGroups faults exact tmpl.podGroup.Holds tmpl.podGroup.Normalizes s name
        (∃ spec, lib.newPodGroup (buildOpts platform js) tmpl = .ok spec))
      s (reconcilePodGroup platform lib js tmpl) := by
  unfold reconcilePodGroup
  dsimp only
  rw [hname]
  cases hnew : lib.newPodGroup (buildOpts platform js) tmpl with
  | error err =>
    refine ObjectStep.failed hat _ fun _ hm => ?_
    obtain ⟨spec, hspec⟩ := hm
    cases hspec
  | ok desired =>
    obtain rfl := hlib.podGroup hnew
    refine ⟨trivial, ?_⟩
    rintro x s₁ ⟨rfl, rfl | ⟨hfault, err, rfl⟩⟩
    · cases hstored : podGroups.get s₁ name with
      | none =>
        have hun : ¬ Settled podGroups tmpl.podGroup.Normalizes s₁ name :=
          not_settled_of_missing hstored
        refine ⟨hcreate hstored, ?_⟩
        rintro x s₂ (⟨rfl, after, ⟨-, spec, hspec, rfl⟩, hs⟩ | ⟨rfl, hsome, rfl⟩ |
          ⟨hfault, ⟨err, rfl⟩, rfl | ⟨after, ⟨-, spec, hspec, rfl⟩, hs⟩⟩)
        · exact ObjectStep.wrote hs hspec.holds hspec hun (Or.inl rfl)
        · rw [hstored] at hsome
          cases hsome
        · exact ObjectStep.failed hat _ fun hf _ => hf hfault
        · exact ObjectStep.wrote hs hspec.holds hspec hun (Or.inr ⟨hfault, _, rfl⟩)
      | some stored =>
        obtain ⟨spec, rfl, hholds, hexact⟩ := hat stored hstored
        change Program.Ensures _ _ _ s₁
          (reconcileExistingPodGroup platform js name (.live spec) tmpl.podGroup)
        cases hdiffers : spec.schedulingPolicy.minCountDiffers tmpl.podGroup.schedulingPolicy with
        | false =>
          rw [reconcileExistingPodGroup_same hholds hdiffers]
          exact ObjectStep.quiet hat ⟨spec, hstored, hholds.exact hdiffers⟩
        | true =>
          have hun : ¬ Settled podGroups tmpl.podGroup.Normalizes s₁ name := by
            rintro ⟨spec', hspec', hnorm⟩
            rw [hstored] at hspec'
            cases hspec'
            rw [hnorm.schedulingPolicy, PodGroupPolicy.minCountDiffers_self] at hdiffers
            cases hdiffers
          rw [reconcileExistingPodGroup_patch hholds hdiffers]
          refine ⟨hupdate (by rw [hstored]; rfl) hun, ?_⟩
          rintro x s₂ (⟨rfl, after, ⟨old, spec', hold, hspec', rfl⟩, hs⟩ | ⟨-, hnone, -⟩ |
            ⟨hfault, ⟨err, rfl⟩, rfl | ⟨after, ⟨old, spec', hold, hspec', rfl⟩, hs⟩⟩)
          · rw [hstored] at hold
            cases hold
            have hnorm := hholds.patched hspec'
            exact ObjectStep.wrote hs hnorm.holds hnorm hun (Or.inl rfl)
          · rw [hstored] at hnone
            cases hnone
          · exact ObjectStep.failed hat _ fun hf _ => hf hfault
          · rw [hstored] at hold
            cases hold
            have hnorm := hholds.patched hspec'
            exact ObjectStep.wrote hs hnorm.holds hnorm hun (Or.inr ⟨hfault, _, rfl⟩)
    · exact ObjectStep.failed hat _ fun hf _ => hf hfault

/-! ## The Workload -/

/-- The templates of the Workload hold the desired ones. -/
def WorkloadSpec.HoldsTemplates (desired stored : WorkloadSpec) : Prop :=
  List.Forall₂ PodGroupTemplate.Holds desired.podGroupTemplates stored.podGroupTemplates

/-- The templates of the Workload are stored from the desired ones. -/
def WorkloadSpec.KeepsTemplates (desired stored : WorkloadSpec) : Prop :=
  List.Forall₂ PodGroupTemplate.Normalizes desired.podGroupTemplates stored.podGroupTemplates

theorem WorkloadSpec.KeepsTemplates.holds {desired stored : WorkloadSpec}
    (h : desired.KeepsTemplates stored) : desired.HoldsTemplates stored :=
  List.Forall₂.imp (fun _ _ h => h.holds) h

theorem reconcileExistingWorkload_same {spec desired : WorkloadSpec}
    (h : desired.HoldsTemplates spec) (hsame : (workloadWithPatchedMinCounts spec desired).2 = false) :
    reconcileExistingWorkload platform js (.live spec) desired = .done true := by
  unfold reconcileExistingWorkload
  simp [Stored.live, not_workloadNeedsRecreation h, hsame]

theorem reconcileExistingWorkload_patch {spec desired : WorkloadSpec}
    (h : desired.HoldsTemplates spec)
    (hdiffers : (workloadWithPatchedMinCounts spec desired).2 = true) :
    reconcileExistingWorkload platform js (.live spec) desired =
      .call (.updateWorkload (workloadName platform js)
        (workloadWithPatchedMinCounts spec desired).1) fun outcome =>
          orFail "patching Workload minCount: " outcome >>= fun _ => pure true := by
  unfold reconcileExistingWorkload
  simp only [Stored.live, not_workloadNeedsRecreation h, hdiffers, Bool.not_true,
    Bool.false_eq_true, if_false, Option.isSome_none, if_true]
  rfl

/-- The step for the Workload: it creates a missing one and patches minimums. -/
theorem reconcileWorkload_ensures {desired : WorkloadSpec}
    (hat : ObjectAt workloads exact desired.HoldsTemplates desired.KeepsTemplates s
      (workloadName platform js))
    (hcreate : workloads.get s (workloadName platform js) = none → create)
    (hupdate : (workloads.get s (workloadName platform js)).isSome = true →
      ¬ Settled workloads desired.KeepsTemplates s (workloadName platform js) → update) :
    Program.Ensures (serves faults) (Permits create update)
      (ObjectStep workloads faults exact desired.HoldsTemplates desired.KeepsTemplates s
        (workloadName platform js) True)
      s (reconcileWorkload platform js desired) := by
  unfold reconcileWorkload
  dsimp only
  refine ⟨trivial, ?_⟩
  rintro x s₁ ⟨rfl, rfl | ⟨hfault, err, rfl⟩⟩
  · cases hstored : workloads.get s₁ (workloadName platform js) with
    | none =>
      have hun : ¬ Settled workloads desired.KeepsTemplates s₁ (workloadName platform js) :=
        not_settled_of_missing hstored
      refine ⟨hcreate hstored, ?_⟩
      rintro x s₂ (⟨rfl, after, ⟨-, spec, hspec, rfl⟩, hs⟩ | ⟨rfl, hsome, rfl⟩ |
        ⟨hfault, ⟨err, rfl⟩, rfl | ⟨after, ⟨-, spec, hspec, rfl⟩, hs⟩⟩)
      · have hkeeps : desired.KeepsTemplates spec := hspec.templates
        exact ObjectStep.wrote hs hkeeps.holds hkeeps hun (Or.inl rfl)
      · rw [hstored] at hsome
        cases hsome
      · exact ObjectStep.failed hat _ fun hf _ => hf hfault
      · have hkeeps : desired.KeepsTemplates spec := hspec.templates
        exact ObjectStep.wrote hs hkeeps.holds hkeeps hun (Or.inr ⟨hfault, _, rfl⟩)
    | some stored =>
      obtain ⟨spec, rfl, hholds, hexact⟩ := hat stored hstored
      change Program.Ensures _ _ _ s₁ (reconcileExistingWorkload platform js (.live spec) desired)
      cases hdiffers : (workloadWithPatchedMinCounts spec desired).2 with
      | false =>
        rw [reconcileExistingWorkload_same hholds hdiffers]
        exact ObjectStep.quiet hat ⟨spec, hstored, normalizes_of_unpatched hholds hdiffers⟩
      | true =>
        have hun : ¬ Settled workloads desired.KeepsTemplates s₁ (workloadName platform js) := by
          rintro ⟨spec', hspec', hkeeps⟩
          rw [hstored] at hspec'
          cases hspec'
          have hsame := unpatched_of_normalizes hkeeps
          rw [workloadWithPatchedMinCounts, hsame] at hdiffers
          cases hdiffers
        rw [reconcileExistingWorkload_patch hholds hdiffers]
        refine ⟨hupdate (by rw [hstored]; rfl) hun, ?_⟩
        rintro x s₂ (⟨rfl, after, ⟨old, spec', hold, hspec', rfl⟩, hs⟩ | ⟨-, hnone, -⟩ |
          ⟨hfault, ⟨err, rfl⟩, rfl | ⟨after, ⟨old, spec', hold, hspec', rfl⟩, hs⟩⟩)
        · rw [hstored] at hold
          cases hold
          have hkeeps : desired.KeepsTemplates spec' :=
            normalizes_of_patched hholds hspec'.templates
          exact ObjectStep.wrote hs hkeeps.holds hkeeps hun (Or.inl rfl)
        · rw [hstored] at hnone
          cases hnone
        · exact ObjectStep.failed hat _ fun hf _ => hf hfault
        · rw [hstored] at hold
          cases hold
          have hkeeps : desired.KeepsTemplates spec' :=
            normalizes_of_patched hholds hspec'.templates
          exact ObjectStep.wrote hs hkeeps.holds hkeeps hun (Or.inr ⟨hfault, _, rfl⟩)
  · exact ObjectStep.failed hat _ fun hf _ => hf hfault

/-! ## The loop over the PodGroups -/

theorem ObjectAt.congr {α : Type} {kind : Kind α} {Holds Normalizes : α → Prop}
    {s s' : SchedulingStore} {name : String} (h : ObjectAt kind exact Holds Normalizes s name)
    (heq : kind.get s' name = kind.get s name) : ObjectAt kind exact Holds Normalizes s' name := by
  intro stored hstored
  exact h stored (heq.symm.trans hstored)

theorem Settled.congr {α : Type} {kind : Kind α} {Normalizes : α → Prop} {s s' : SchedulingStore}
    {name : String} (h : Settled kind Normalizes s name)
    (heq : kind.get s' name = kind.get s name) : Settled kind Normalizes s' name := by
  obtain ⟨spec, hspec, hnorm⟩ := h
  exact ⟨spec, heq.trans hspec, hnorm⟩

theorem podGroups_set_of_ne {name other : String} (h : other ≠ name)
    (after : Option (Stored PodGroupSpec)) :
    podGroups.get (podGroups.set s name after) other = podGroups.get s other :=
  Function.update_of_ne h ..

/-- What the loop over some templates leaves, from `s`. -/
structure LoopStep (faults exact : Prop) (platform : Platform) (lib : BuilderLibrary) (js : JobSet)
    (templates : List PodGroupTemplate) (s s' : SchedulingStore) (res : Except String Unit) :
    Prop where
  workloads : s'.workloads = s.workloads
  others {name : String}
    (h : name ∉ templates.map fun tmpl => schedulingPodGroupName platform js tmpl.name) :
    podGroups.get s' name = podGroups.get s name
  at_names : ∀ tmpl ∈ templates, ObjectAt podGroups exact tmpl.podGroup.Holds
    tmpl.podGroup.Normalizes s' (schedulingPodGroupName platform js tmpl.name)
  present : ∀ tmpl ∈ templates,
    (podGroups.get s (schedulingPodGroupName platform js tmpl.name)).isSome = true →
      (podGroups.get s' (schedulingPodGroupName platform js tmpl.name)).isSome = true
  same (h : ∀ tmpl ∈ templates, Settled podGroups tmpl.podGroup.Normalizes s
    (schedulingPodGroupName platform js tmpl.name)) : s' = s
  ok (h : res = .ok ()) : ∀ tmpl ∈ templates, Settled podGroups tmpl.podGroup.Normalizes s'
    (schedulingPodGroupName platform js tmpl.name)
  returns (hf : ¬ faults) (hm : ∀ tmpl ∈ templates,
    ∃ spec, lib.newPodGroup (buildOpts platform js) tmpl = .ok spec) : res = .ok ()

/-- The loop when the first step has ended with an error. -/
theorem LoopStep.of_error {tmpl : PodGroupTemplate} {rest : List PodGroupTemplate}
    {s' : SchedulingStore} {err : String}
    (hnodup : ((tmpl :: rest).map fun t => schedulingPodGroupName platform js t.name).Nodup)
    (hat : ∀ t ∈ rest, ObjectAt podGroups exact t.podGroup.Holds t.podGroup.Normalizes s
      (schedulingPodGroupName platform js t.name))
    (h : ObjectStep podGroups faults exact tmpl.podGroup.Holds tmpl.podGroup.Normalizes s
      (schedulingPodGroupName platform js tmpl.name)
      (∃ spec, lib.newPodGroup (buildOpts platform js) tmpl = .ok spec) s' (.error err)) :
    LoopStep faults exact platform lib js (tmpl :: rest) s s' (.error err) := by
  obtain ⟨after, rfl⟩ := h.changed
  rw [List.map_cons, List.nodup_cons] at hnodup
  have hne : ∀ t ∈ rest, schedulingPodGroupName platform js t.name ≠
      schedulingPodGroupName platform js tmpl.name := by
    intro t ht heq
    exact hnodup.1 (List.mem_map.mpr ⟨t, ht, heq⟩)
  refine ⟨rfl, fun hname => ?_, ?_, ?_, fun hs => ?_, fun hok => (by cases hok), fun hf hm => ?_⟩
  · exact podGroups_set_of_ne (fun heq => hname (by simp [heq])) after
  · exact List.forall_mem_cons.mpr
      ⟨h.at_name, fun t ht => (hat t ht).congr (podGroups_set_of_ne (hne t ht) after)⟩
  · refine List.forall_mem_cons.mpr ⟨h.present, fun t ht hsome => ?_⟩
    rwa [podGroups_set_of_ne (hne t ht) after]
  · exact h.same (hs tmpl List.mem_cons_self)
  · obtain ⟨b, hb⟩ := h.returns hf (hm tmpl List.mem_cons_self)
    cases hb

/-- The loop goes on after its first step. -/
theorem LoopStep.cons {tmpl : PodGroupTemplate} {rest : List PodGroupTemplate}
    {mid s' : SchedulingStore} {res : Except String Unit}
    (hnodup : ((tmpl :: rest).map fun t => schedulingPodGroupName platform js t.name).Nodup)
    (hfirst : ObjectStep podGroups faults exact tmpl.podGroup.Holds tmpl.podGroup.Normalizes s
      (schedulingPodGroupName platform js tmpl.name)
      (∃ spec, lib.newPodGroup (buildOpts platform js) tmpl = .ok spec) mid (.ok true))
    (hrest : LoopStep faults exact platform lib js rest mid s' res) :
    LoopStep faults exact platform lib js (tmpl :: rest) s s' res := by
  obtain ⟨after, rfl⟩ := hfirst.changed
  rw [List.map_cons, List.nodup_cons] at hnodup
  have hne : ∀ t ∈ rest, schedulingPodGroupName platform js t.name ≠
      schedulingPodGroupName platform js tmpl.name := by
    intro t ht heq
    exact hnodup.1 (List.mem_map.mpr ⟨t, ht, heq⟩)
  have hown := hrest.others hnodup.1
  refine ⟨hrest.workloads, fun hname => ?_, ?_, ?_, fun hs => ?_, fun hok => ?_, fun hf hm => ?_⟩
  · rw [List.map_cons, List.mem_cons, not_or] at hname
    rw [hrest.others hname.2, podGroups_set_of_ne hname.1 after]
  · exact List.forall_mem_cons.mpr ⟨hfirst.at_name.congr hown, hrest.at_names⟩
  · refine List.forall_mem_cons.mpr ⟨fun hsome => ?_, fun t ht hsome => ?_⟩
    · rw [hown]
      exact hfirst.present hsome
    · apply hrest.present t ht
      rwa [podGroups_set_of_ne (hne t ht) after]
  · have hsame := hfirst.same (hs tmpl List.mem_cons_self)
    rw [hsame] at hrest
    exact hrest.same fun t ht => hs t (List.mem_cons_of_mem _ ht)
  · exact List.forall_mem_cons.mpr ⟨(hfirst.ok rfl).2.congr hown, hrest.ok hok⟩
  · exact hrest.returns hf fun t ht => hm t (List.mem_cons_of_mem _ ht)

theorem reconcilePodGroups_ensures (hlib : lib.Copies) {templates : List PodGroupTemplate}
    (hnodup : (templates.map fun tmpl => schedulingPodGroupName platform js tmpl.name).Nodup)
    (hat : ∀ tmpl ∈ templates, ObjectAt podGroups exact tmpl.podGroup.Holds
      tmpl.podGroup.Normalizes s (schedulingPodGroupName platform js tmpl.name))
    (hcreate : ∀ tmpl ∈ templates,
      podGroups.get s (schedulingPodGroupName platform js tmpl.name) = none → create)
    (hupdate : ∀ tmpl ∈ templates,
      (podGroups.get s (schedulingPodGroupName platform js tmpl.name)).isSome = true →
      ¬ Settled podGroups tmpl.podGroup.Normalizes s
        (schedulingPodGroupName platform js tmpl.name) → update) :
    Program.Ensures (serves faults) (Permits create update)
      (LoopStep faults exact platform lib js templates s) s
      (reconcilePodGroups platform lib js templates) := by
  induction templates generalizing s with
  | nil => exact ⟨rfl, fun _ => rfl, by simp, by simp, fun _ => rfl, by simp, fun _ _ => rfl⟩
  | cons tmpl rest ih =>
    have hrest := List.nodup_cons.mp hnodup
    obtain ⟨hatFirst, hatRest⟩ := List.forall_mem_cons.mp hat
    obtain ⟨hcreateFirst, hcreateRest⟩ := List.forall_mem_cons.mp hcreate
    obtain ⟨hupdateFirst, hupdateRest⟩ := List.forall_mem_cons.mp hupdate
    have hstep : Program.Ensures (serves faults) (Permits create update) _ s _ :=
      reconcilePodGroup_ensures hlib rfl hatFirst hcreateFirst hupdateFirst
    refine hstep.bind (fun mid b hfirst => ?_) fun mid err hfirst =>
      LoopStep.of_error hnodup hatRest hfirst
    obtain ⟨rfl, -⟩ := hfirst.ok rfl
    obtain ⟨after, hmid⟩ := hfirst.changed
    -- the step before has not touched the PodGroups of the rest
    have hframe : ∀ t ∈ rest, podGroups.get mid (schedulingPodGroupName platform js t.name) =
        podGroups.get s (schedulingPodGroupName platform js t.name) := by
      intro t ht
      rw [hmid]
      exact podGroups_set_of_ne
        (fun heq => hrest.1 (List.mem_map.mpr ⟨t, ht, heq⟩)) after
    have hloop : Program.Ensures (serves faults) (Permits create update) _ mid _ :=
      ih hrest.2 (fun t ht => (hatRest t ht).congr (hframe t ht))
      (fun t ht hnone => hcreateRest t ht (by rwa [hframe t ht] at hnone))
      (fun t ht hsome hun => hupdateRest t ht (by rwa [hframe t ht] at hsome)
        fun hsettled => hun (hsettled.congr (hframe t ht)))
    exact hloop.mono (fun _ h => h) fun s' res h => LoopStep.cons hnodup hfirst h

end Steps

/-! ## One pass -/

section Pass

variable (platform : Platform) (js : JobSet) (wl : WorkloadSpec)

/-- The objects are missing or hold the desired ones; if `exact`, also in their minimums. -/
structure Aligned (exact : Prop) (s : SchedulingStore) : Prop where
  workload : ObjectAt workloads exact wl.HoldsTemplates wl.KeepsTemplates s
    (workloadName platform js)
  podGroup : ∀ tmpl ∈ wl.podGroupTemplates, ObjectAt podGroups exact tmpl.podGroup.Holds
    tmpl.podGroup.Normalizes s (schedulingPodGroupName platform js tmpl.name)

/-- All objects exist. -/
structure Present (s : SchedulingStore) : Prop where
  workload : (workloads.get s (workloadName platform js)).isSome = true
  podGroup : ∀ tmpl ∈ wl.podGroupTemplates,
    (podGroups.get s (schedulingPodGroupName platform js tmpl.name)).isSome = true

/-- All objects are stored from the desired ones. -/
structure AllSettled (s : SchedulingStore) : Prop where
  workload : Settled workloads wl.KeepsTemplates s (workloadName platform js)
  podGroup : ∀ tmpl ∈ wl.podGroupTemplates, Settled podGroups tmpl.podGroup.Normalizes s
    (schedulingPodGroupName platform js tmpl.name)

/-- What a pass leaves, from `s`. -/
structure PassStep (faults exact : Prop) (lib : BuilderLibrary) (s s' : SchedulingStore)
    (res : Except String Unit) : Prop where
  aligned : Aligned platform js wl exact s'
  present (h : Present platform js wl s) : Present platform js wl s'
  same (h : AllSettled platform js wl s) : s' = s
  ok (h : res = .ok ()) : AllSettled platform js wl s'
  returns (hf : ¬ faults) (hm : ∀ tmpl ∈ wl.podGroupTemplates,
    ∃ spec, lib.newPodGroup (buildOpts platform js) tmpl = .ok spec) : res = .ok ()

variable {platform js wl} {faults create update exact : Prop} {lib : BuilderLibrary}
  {s : SchedulingStore}

/-- A settled object is one of the aligned ones, whatever is asked of the minimums. -/
theorem AllSettled.aligned (h : AllSettled platform js wl s) :
    Aligned platform js wl exact s := by
  constructor
  · intro stored hstored
    obtain ⟨spec, hspec, hkeeps⟩ := h.workload
    rw [hspec] at hstored
    cases hstored
    exact ⟨spec, rfl, hkeeps.holds, fun _ => hkeeps⟩
  · intro tmpl htmpl stored hstored
    obtain ⟨spec, hspec, hnorm⟩ := h.podGroup tmpl htmpl
    rw [hspec] at hstored
    cases hstored
    exact ⟨spec, rfl, hnorm.holds, fun _ => hnorm⟩

theorem AllSettled.present (h : AllSettled platform js wl s) : Present platform js wl s := by
  constructor
  · obtain ⟨spec, hspec, -⟩ := h.workload
    rw [hspec]
    rfl
  · intro tmpl htmpl
    obtain ⟨spec, hspec, -⟩ := h.podGroup tmpl htmpl
    rw [hspec]
    rfl

/-- Objects that exist and are exact are settled. -/
theorem Present.settled (h : Present platform js wl s) (hat : Aligned platform js wl True s) :
    AllSettled platform js wl s := by
  constructor
  · obtain ⟨stored, hstored⟩ := Option.isSome_iff_exists.mp h.workload
    obtain ⟨spec, rfl, -, hkeeps⟩ := hat.workload stored hstored
    exact ⟨spec, hstored, hkeeps trivial⟩
  · intro tmpl htmpl
    obtain ⟨stored, hstored⟩ := Option.isSome_iff_exists.mp (h.podGroup tmpl htmpl)
    obtain ⟨spec, rfl, -, hnorm⟩ := hat.podGroup tmpl htmpl stored hstored
    exact ⟨spec, hstored, hnorm trivial⟩

/-- A pass that stops at the Workload. -/
theorem PassStep.of_error {mid : SchedulingStore} {err : String}
    (hat : Aligned platform js wl exact s)
    (h : ObjectStep workloads faults exact wl.HoldsTemplates wl.KeepsTemplates s
      (workloadName platform js) True mid (.error err)) :
    PassStep platform js wl faults exact lib s mid (.error err) := by
  obtain ⟨after, rfl⟩ := h.changed
  refine ⟨⟨h.at_name, fun tmpl htmpl => ?_⟩, fun hp => ⟨h.present hp.workload, hp.podGroup⟩,
    fun hs => h.same hs.workload, fun hok => (by cases hok), fun hf _ => ?_⟩
  · exact (hat.podGroup tmpl htmpl).congr rfl
  · obtain ⟨b, hb⟩ := h.returns hf trivial
    cases hb

/-- A pass that goes on to the PodGroups. -/
theorem PassStep.of_loop {mid s' : SchedulingStore} {res : Except String Unit}
    (h : ObjectStep workloads faults exact wl.HoldsTemplates wl.KeepsTemplates s
      (workloadName platform js) True mid (.ok true))
    (hloop : LoopStep faults exact platform lib js wl.podGroupTemplates mid s' res) :
    PassStep platform js wl faults exact lib s s' res := by
  obtain ⟨after, rfl⟩ := h.changed
  have hworkload : workloads.get s' (workloadName platform js) =
      workloads.get (workloads.set s (workloadName platform js) after) (workloadName platform js) :=
    congrFun hloop.workloads _
  refine ⟨⟨h.at_name.congr hworkload, hloop.at_names⟩, fun hp => ⟨?_, ?_⟩, fun hs => ?_,
    fun hok => ⟨(h.ok rfl).2.congr hworkload, hloop.ok hok⟩, hloop.returns⟩
  · rw [hworkload]
    exact h.present hp.workload
  · intro tmpl htmpl
    exact hloop.present tmpl htmpl (hp.podGroup tmpl htmpl)
  · have hsame := h.same hs.workload
    rw [hsame] at hloop
    exact hloop.same hs.podGroup

/-- A pass over aligned objects creates what is missing, patches minimums and leaves
everything as desired. -/
theorem reconcileSchedulingObjects_ensures (hlib : lib.Copies) {scheduling : JobSetScheduling}
    (hwl : buildWorkload platform lib js scheduling = .ok wl)
    (hnodup : (wl.podGroupTemplates.map fun tmpl =>
      schedulingPodGroupName platform js tmpl.name).Nodup)
    (hat : Aligned platform js wl exact s) (hcreate : ¬ Present platform js wl s → create)
    (hupdate : ¬ AllSettled platform js wl s → update) :
    Program.Ensures (serves faults) (Permits create update)
      (PassStep platform js wl faults exact lib s) s
      (reconcileSchedulingObjects platform lib js scheduling) := by
  unfold reconcileSchedulingObjects
  rw [hwl]
  have hmissing : workloads.get s (workloadName platform js) = none → create := by
    intro hnone
    refine hcreate fun hp => ?_
    have hsome := hp.workload
    rw [hnone] at hsome
    cases hsome
  refine (reconcileWorkload_ensures hat.workload hmissing fun _ hun =>
    hupdate fun hs => hun hs.workload).bind (fun mid b h => ?_) fun mid err h => PassStep.of_error hat h
  obtain ⟨rfl, -⟩ := h.ok rfl
  -- the step for the Workload has not touched the PodGroups
  have hframe : ∀ name, podGroups.get mid name = podGroups.get s name := by
    obtain ⟨after, rfl⟩ := h.changed
    exact fun _ => rfl
  have hmissing : ∀ tmpl ∈ wl.podGroupTemplates,
      podGroups.get mid (schedulingPodGroupName platform js tmpl.name) = none → create := by
    intro tmpl htmpl hnone
    refine hcreate fun hp => ?_
    have hsome := hp.podGroup tmpl htmpl
    rw [← hframe, hnone] at hsome
    cases hsome
  exact (reconcilePodGroups_ensures hlib hnodup
    (fun tmpl htmpl => (hat.podGroup tmpl htmpl).congr (hframe _)) hmissing fun tmpl htmpl _ hun =>
      hupdate fun hs => hun ((hs.podGroup tmpl htmpl).congr (hframe _))).mono (fun _ hr => hr)
    fun s' res hstep => PassStep.of_loop h hstep

end Pass

end JobSetOperator
