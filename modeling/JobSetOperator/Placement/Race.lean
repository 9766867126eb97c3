import JobSetOperator.Placement.Followers

/-!
# Followers created while their leader moves

One Job with exclusive placement. Its controller creates pods; a follower passes
`Default`, then `ValidateCreate`, and is then persisted, and leaders are scheduled,
replaced and deleted between these steps. The pod controller reconciles every leader
event that passes its filter, and tries again after an error. The nodes stay as they are.
-/
namespace JobSetOperator.Placement

open Library

/-! ## The pods of the Job -/

/-- The pod template of the Job, with the Job as its controller. -/
structure JobTemplate where
  pod : Pod
  jobSet : String
  replicatedJob : String
  jobIndex : String
  key : String
  topologyKey : String
  owner : ℕ
  jobSet_label : pod.labels.lookup jobSetNameKey = some jobSet
  replicatedJob_label : pod.labels.lookup replicatedJobNameKey = some replicatedJob
  jobIndex_label : pod.labels.lookup jobIndexKey = some jobIndex
  key_label : pod.labels.lookup jobKey = some key
  jobSet_annotation : (pod.annotations.lookup jobSetNameKey).isSome = true
  exclusive : pod.annotations.lookup exclusiveKey = some topologyKey
  no_strategy : pod.annotations.lookup nodeSelectorStrategyKey = none
  controlled : pod.controller = some owner
  unscheduled : pod.nodeName = ""
  fresh : live pod = true

/-- The name of the Job's pods with a completion index, without their suffix. -/
def JobTemplate.baseName (j : JobTemplate) (index : ℕ) : String :=
  genPodName j.jobSet j.replicatedJob j.jobIndex (itoa index)

/-- The pod the Job controller sends for creation. -/
def JobTemplate.newPod (j : JobTemplate) (index : ℕ) (suffix : String) : Pod :=
  { j.pod with
    name := j.baseName index ++ "-" ++ suffix
    annotations := j.pod.annotations.insert jobCompletionIndexAnnotation (itoa index) }

/-- A generated suffix is the last part of a name, so the index entry is the rest. -/
theorem removePodNameSuffix_append {jobSet replicatedJob jobIndex podIndex suffix : String}
    (h : '-' ∉ suffix.toList) :
    removePodNameSuffix (genPodName jobSet replicatedJob jobIndex podIndex ++ "-" ++ suffix) =
      .ok (genPodName jobSet replicatedJob jobIndex podIndex) := by
  have hlist : (genPodName jobSet replicatedJob jobIndex podIndex ++ "-" ++ suffix).toList =
      (genPodName jobSet replicatedJob jobIndex podIndex).toList ++ '-' :: suffix.toList := by
    simp
  have hsplit := List.splitOn_append_cons_self (a := '-')
    (genPodName jobSet replicatedJob jobIndex podIndex).toList suffix.toList
  rw [List.splitOn_eq_singleton h] at hsplit
  have hbase : (genPodName jobSet replicatedJob jobIndex podIndex).toList =
      jobSet.toList ++ '-' :: (replicatedJob.toList ++ '-' :: (jobIndex.toList ++ '-' ::
        podIndex.toList)) := by
    simp [genPodName]
  have hlength : 4 ≤ ((genPodName jobSet replicatedJob jobIndex podIndex).toList.splitOn '-').length := by
    have hpos : ∀ xs : List Char, 1 ≤ (xs.splitOn '-').length := fun xs =>
      List.length_pos_iff.mpr (List.splitOn_ne_nil _ _)
    rw [hbase, List.splitOn_append_cons_self, List.splitOn_append_cons_self,
      List.splitOn_append_cons_self]
    simp only [List.length_append]
    have h₁ := hpos jobSet.toList
    have h₂ := hpos replicatedJob.toList
    have h₃ := hpos jobIndex.toList
    have h₄ := hpos podIndex.toList
    omega
  unfold removePodNameSuffix
  rw [hlist, hsplit]
  have hlt : ¬ ((genPodName jobSet replicatedJob jobIndex podIndex).toList.splitOn '-' ++
      [suffix.toList]).length < 5 := by
    simp only [List.length_append, List.length_singleton]
    omega
  simp only [hlt, if_false, List.dropLast_concat, List.intercalate_splitOn, String.ofList_toList]

theorem JobTemplate.baseName_injective (j : JobTemplate) {a b : ℕ}
    (h : j.baseName a = j.baseName b) : a = b := by
  unfold JobTemplate.baseName genPodName at h
  have := itoa_injective (String.append_right_inj _ |>.mp h)
  exact_mod_cast this

/-- What a pod keeps of the template it was made from. -/
structure JobTemplate.Made (j : JobTemplate) (index : ℕ) (p : Pod) : Prop where
  base : indexPodName p = some (j.baseName index)
  leader_iff : isLeaderPod p = true ↔ index = 0
  key_label : p.labels.lookup jobKey = some j.key
  jobSet_annotation : (p.annotations.lookup jobSetNameKey).isSome = true
  exclusive : p.annotations.lookup exclusiveKey = some j.topologyKey
  no_strategy : p.annotations.lookup nodeSelectorStrategyKey = none
  controlled : p.controller = some j.owner

/-- The two pods differ in nothing that identifies a pod. -/
structure Pod.Alike (p q : Pod) : Prop where
  name : q.name = p.name
  annotations : q.annotations = p.annotations
  key_label : q.labels.lookup jobKey = p.labels.lookup jobKey
  controller : q.controller = p.controller

theorem JobTemplate.Made.of_alike {j : JobTemplate} {index : ℕ} {p q : Pod} (h : j.Made index p)
    (ha : p.Alike q) : j.Made index q := by
  constructor
  · rw [← h.base]
    simp [indexPodName, ha.name, ha.annotations]
  · rw [← h.leader_iff]
    simp [isLeaderPod, ha.annotations]
  · rw [ha.key_label, h.key_label]
  · rw [ha.annotations, h.jobSet_annotation]
  · rw [ha.annotations, h.exclusive]
  · rw [ha.annotations, h.no_strategy]
  · rw [ha.controller, h.controlled]

theorem JobTemplate.made_newPod (j : JobTemplate) (index : ℕ) {suffix : String}
    (h : '-' ∉ suffix.toList) : j.Made index (j.newPod index suffix) := by
  have hother : ∀ name, name ≠ jobCompletionIndexAnnotation →
      (j.newPod index suffix).annotations.lookup name = j.pod.annotations.lookup name :=
    fun name hne => Finmap.lookup_insert_of_ne _ hne
  have hexclusive : (j.newPod index suffix).annotations.lookup exclusiveKey =
      some j.topologyKey := by
    rw [hother _ (by decide), j.exclusive]
  constructor
  · have hname : removePodNameSuffix (j.newPod index suffix).name = .ok (j.baseName index) :=
      removePodNameSuffix_append h
    simp [indexPodName, hexclusive, hname, Except.toOption]
  · have hget : (j.newPod index suffix).annotations.get jobCompletionIndexAnnotation =
        itoa index := by
      simp [StrMap.get, JobTemplate.newPod]
    rw [isLeaderPod, hget, decide_eq_true_eq]
    constructor
    · intro h0
      have hzero : itoa index = itoa 0 := h0
      exact_mod_cast itoa_injective hzero
    · rintro rfl
      rfl
  · exact j.key_label
  · rw [hother _ (by decide), j.jobSet_annotation]
  · exact hexclusive
  · rw [hother _ (by decide), j.no_strategy]
  · exact j.controlled

/-! ## States and steps -/

/-- How far the creation of a follower has come. -/
inductive Stage
  | defaulted
  | validated
  deriving DecidableEq, Repr

structure Creation where
  pod : Pod
  stage : Stage

/-- The persisted pods, the followers on their way and the leaders to reconcile. -/
structure State where
  pods : List Pod
  creating : List Creation
  pending : List String

def State.start : State := ⟨[], [], []⟩

def State.view (s : State) (nodes : String → Option StrMap) : View := ⟨s.pods, nodes⟩

def State.names (s : State) : List String := s.pods.map (·.name)

/-- The queue after an event about the pod. -/
def State.notify (s : State) (p : Pod) : List String :=
  if eventFilter p then p.name :: s.pending else s.pending

/-- A change of one pod. -/
def State.modify (s : State) (p p' : Pod) : State :=
  { s with
    pods := s.pods.map fun q => if q.name = p.name then p' else q
    pending := s.notify p' }

/-- The conditions a reconcile has written for a pod, if any. -/
def writtenConditions (t : Trace) (name : String) : Option (List PodCondition) :=
  t.findSome? fun
    | ⟨.updatePodStatus pod, answer⟩ =>
      match answer with
      | .ok _ => if pod.name = name then some pod.conditions else none
      | .error _ => none
    | _ => none

/-- What a reconcile does to a pod: deleted pods have a deletion time from then on. -/
def effect (now : Time) (t : Trace) (p : Pod) : Pod :=
  { p with
    conditions := (writtenConditions t p.name).getD p.conditions
    deletionTimestamp :=
      if p.name ∈ deleted t then some (p.deletionTimestamp.getD now) else p.deletionTimestamp }

inductive Event
  | createLeader
  | schedule (p : Pod) (node : String)
  | progress
  | terminate
  | remove
  | startFollower (t : Trace)
  | validate
  | reject
  | persist
  | reconcile

/-- The steps of the Job's controller, the scheduler, the kubelets, the admission
chain and the pod controller. A leader is only created while no live one is there. -/
inductive Step (j : JobTemplate) (nodes : String → Option StrMap) : State → Event → State → Prop
  | createLeader {s : State} {suffix : String} {t : Trace} {pod : Pod}
      (hsuffix : '-' ∉ suffix.toList)
      (hnone : ∀ p ∈ s.pods, isLeaderPod p = true → live p = false) (hnew : pod.name ∉ s.names)
      (hdefault : Program.Path (s.view nodes).Answers (defaultPod (j.newPod 0 suffix)) t (.ok pod)) :
      Step j nodes s .createLeader { s with pods := s.pods ++ [pod] }
  | schedule {s : State} {p : Pod} {node : String} (hp : p ∈ s.pods) (hlive : live p = true)
      (hunscheduled : p.nodeName = "") (hnode : node ≠ "") :
      Step j nodes s (.schedule p node) (s.modify p { p with nodeName := node })
  | progress {s : State} {p : Pod} (phase : PodPhase) (hp : p ∈ s.pods)
      (hrunning : p.phase ≠ .podFailed ∧ p.phase ≠ .podSucceeded) :
      Step j nodes s .progress (s.modify p { p with phase := phase })
  | terminate {s : State} {p : Pod} (now : Time) (hp : p ∈ s.pods)
      (hdeleted : p.deletionTimestamp = none) :
      Step j nodes s .terminate (s.modify p { p with deletionTimestamp := some now })
  | remove {s : State} {p : Pod} (hp : p ∈ s.pods) :
      Step j nodes s .remove
        { s with pods := s.pods.filter (fun q => q.name ≠ p.name), pending := s.notify p }
  | startFollower {s : State} {index : ℕ} {suffix : String} {t : Trace} {pod : Pod}
      (hindex : index ≠ 0) (hsuffix : '-' ∉ suffix.toList)
      (hdefault : Program.Path (s.view nodes).Answers (defaultPod (j.newPod index suffix)) t
        (.ok pod)) :
      Step j nodes s (.startFollower t) { s with creating := s.creating ++ [⟨pod, .defaulted⟩] }
  | validate {s : State} {pod : Pod} {l₁ l₂ : List Creation} {t : Trace}
      (hcreating : s.creating = l₁ ++ ⟨pod, .defaulted⟩ :: l₂)
      (hvalid : Program.Path (s.view nodes).Answers (validateCreate pod) t (.ok ())) :
      Step j nodes s .validate { s with creating := l₁ ++ ⟨pod, .validated⟩ :: l₂ }
  | reject {s : State} {c : Creation} {l₁ l₂ : List Creation}
      (hcreating : s.creating = l₁ ++ c :: l₂) :
      Step j nodes s .reject { s with creating := l₁ ++ l₂ }
  | persist {s : State} {pod : Pod} {l₁ l₂ : List Creation}
      (hcreating : s.creating = l₁ ++ ⟨pod, .validated⟩ :: l₂) (hnew : pod.name ∉ s.names) :
      Step j nodes s .persist { s with pods := s.pods ++ [pod], creating := l₁ ++ l₂ }
  | reconcile {s : State} {name : String} {t : Trace} {res : Except String Unit} (now : Time)
      (hpending : name ∈ s.pending)
      (hpath : Program.Path (s.view nodes).Answers (reconcilePod name) t res) :
      Step j nodes s .reconcile
        { s with
          pods := s.pods.map (effect now t)
          pending := if res = .ok () then s.pending.filter (· ≠ name) else s.pending }

/-- The states of the runs whose steps meet the guard. -/
inductive Reach (j : JobTemplate) (nodes : String → Option StrMap) (guard : State → Event → Prop) :
    State → Prop
  | start : Reach j nodes guard .start
  | step {s s' : State} {e : Event} (h : Reach j nodes guard s) (hguard : guard s e)
      (hstep : Step j nodes s e s') : Reach j nodes guard s'

/-- The condition on the steps: when a leader gets its node, no follower on its way
selects another topology; and if the pod template itself selects a topology, the
list call of `Default` does not fail. -/
def Undisturbed (j : JobTemplate) (nodes : String → Option StrMap) (s : State) : Event → Prop
  | .schedule p node => isLeaderPod p = true → ∀ c ∈ s.creating, ∀ value value',
      (nodes node).bind (fun nodeLabels => nodeLabels.lookup j.topologyKey) = some value →
      followerPodTopology c.pod j.topologyKey = .ok value' → value' = value
  | .startFollower t => (∃ value, followerPodTopology j.pod j.topologyKey = .ok value) →
      ∀ name err, ⟨.listPodsByName name, Except.error err⟩ ∉ t
  | _ => True

/-- Every live follower selects the topology of every live scheduled leader. -/
def State.Repaired (j : JobTemplate) (nodes : String → Option StrMap) (s : State) : Prop :=
  ∀ leader ∈ s.pods, isLeaderPod leader = true → live leader = true → leader.nodeName ≠ "" →
    ∀ f ∈ s.pods, isLeaderPod f = false → live f = true →
      ∀ value, (s.view nodes).nodeTopology j.topologyKey leader = some value →
        followerPodTopology f j.topologyKey = .ok value

/-! ## Runs without failures -/

/-- The steps of a run in which no call fails; admission works on the oldest creation. -/
inductive Command
  | createLeader (suffix : String)
  | schedule (name node : String)
  | remove (name : String)
  | startFollower (index : ℕ) (suffix : String)
  | validate
  | persist
  | reconcile (name : String)

/-- The result of a program without failures. -/
def State.outcome {α : Type} (s : State) (nodes : String → Option StrMap) (p : Prog α) :
    Except String α := (Program.run (s.view nodes).answer p).2

def State.apply (j : JobTemplate) (nodes : String → Option StrMap) (s : State) :
    Command → Option State
  | .createLeader suffix =>
    match s.outcome nodes (defaultPod (j.newPod 0 suffix)) with
    | .ok pod =>
      if '-' ∉ suffix.toList ∧ (∀ p ∈ s.pods, isLeaderPod p = true → live p = false) ∧
          pod.name ∉ s.names then some { s with pods := s.pods ++ [pod] }
      else none
    | .error _ => none
  | .schedule name node => (s.pods.find? fun p => p.name = name).bind fun p =>
      if live p = true ∧ p.nodeName = "" ∧ node ≠ "" then
        some (s.modify p { p with nodeName := node })
      else none
  | .remove name => (s.pods.find? fun p => p.name = name).map fun p =>
      { s with pods := s.pods.filter (fun q => q.name ≠ p.name), pending := s.notify p }
  | .startFollower index suffix =>
    match s.outcome nodes (defaultPod (j.newPod index suffix)) with
    | .ok pod =>
      if index ≠ 0 ∧ '-' ∉ suffix.toList then
        some { s with creating := s.creating ++ [⟨pod, .defaulted⟩] }
      else none
    | .error _ => none
  | .validate =>
    match s.creating with
    | ⟨pod, .defaulted⟩ :: rest =>
      if s.outcome nodes (validateCreate pod) = .ok () then
        some { s with creating := ⟨pod, .validated⟩ :: rest }
      else none
    | _ => none
  | .persist =>
    match s.creating with
    | ⟨pod, .validated⟩ :: rest =>
      if pod.name ∉ s.names then some { s with pods := s.pods ++ [pod], creating := rest } else none
    | _ => none
  | .reconcile name =>
    if name ∈ s.pending then
      some { s with
        pods := s.pods.map (effect 0 (Program.run (s.view nodes).answer (reconcilePod name)).1)
        pending := if s.outcome nodes (reconcilePod name) = .ok () then
          s.pending.filter (· ≠ name) else s.pending }
    else none

/-- A run of commands that all pass the check. -/
def State.applyAll (j : JobTemplate) (nodes : String → Option StrMap)
    (check : State → Command → Bool) : State → List Command → Option State
  | s, [] => some s
  | s, c :: rest =>
    if check s c then (s.apply j nodes c).bind fun s' => s'.applyAll j nodes check rest else none

theorem State.path_outcome {α : Type} (s : State) (nodes : String → Option StrMap) {p : Prog α}
    {res : Except String α} (h : s.outcome nodes p = res) :
    Program.Path (s.view nodes).Answers p (Program.run (s.view nodes).answer p).1 res := by
  rw [← h]
  exact Program.path_run (s.view nodes).answers_answer p

/-- No leader gets its node while a follower is on its way. -/
def Command.calm (s : State) : Command → Bool
  | .schedule _ _ => s.creating.isEmpty
  | _ => true

theorem State.apply_step {j : JobTemplate} {nodes : String → Option StrMap} {s s' : State}
    {c : Command} (h : s.apply j nodes c = some s') : ∃ e, Step j nodes s e s' ∧
      (c.calm s = true → (¬ ∃ value, followerPodTopology j.pod j.topologyKey = .ok value) →
        Undisturbed j nodes s e) := by
  cases c with
  | createLeader suffix =>
    simp only [State.apply] at h
    split at h
    · rename_i pod hpod
      split_ifs at h with hcond
      cases h
      exact ⟨_, .createLeader hcond.1 hcond.2.1 hcond.2.2 (s.path_outcome nodes hpod),
        fun _ _ => trivial⟩
    · cases h
  | schedule name node =>
    obtain ⟨p, hfind, h⟩ := Option.bind_eq_some_iff.mp h
    split_ifs at h with hcond
    cases h
    refine ⟨_, .schedule (List.mem_of_find?_eq_some hfind) hcond.1 hcond.2.1 hcond.2.2, ?_⟩
    intro hcalm _ _ f hf
    simp [Command.calm] at hcalm
    simp [hcalm] at hf
  | remove name =>
    obtain ⟨p, hfind, rfl⟩ := Option.map_eq_some_iff.mp h
    exact ⟨_, .remove (List.mem_of_find?_eq_some hfind), fun _ _ => trivial⟩
  | startFollower index suffix =>
    simp only [State.apply] at h
    split at h
    · rename_i pod hpod
      split_ifs at h with hcond
      cases h
      exact ⟨_, .startFollower hcond.1 hcond.2 (s.path_outcome nodes hpod),
        fun _ hown hselects => (hown hselects).elim⟩
    · cases h
  | validate =>
    simp only [State.apply] at h
    split at h
    · rename_i pod rest hcreating
      split_ifs at h with hcond
      cases h
      exact ⟨_, @Step.validate j nodes s pod [] rest _ hcreating (s.path_outcome nodes hcond),
        fun _ _ => trivial⟩
    · cases h
  | persist =>
    simp only [State.apply] at h
    split at h
    · rename_i pod rest hcreating
      split_ifs at h with hcond
      cases h
      exact ⟨_, @Step.persist j nodes s pod [] rest hcreating hcond, fun _ _ => trivial⟩
    · cases h
  | reconcile name =>
    by_cases hcond : name ∈ s.pending
    · simp only [State.apply, if_pos hcond] at h
      cases h
      exact ⟨_, .reconcile 0 hcond (s.path_outcome nodes rfl), fun _ _ => trivial⟩
    · simp only [State.apply, if_neg hcond] at h
      cases h

theorem State.applyAll_reach {j : JobTemplate} {nodes : String → Option StrMap} {s s' : State}
    {guard : State → Event → Prop} {check : State → Command → Bool}
    (hcheck : ∀ s c s', check s c = true → s.apply j nodes c = some s' →
      ∃ e, guard s e ∧ Step j nodes s e s')
    (hs : Reach j nodes guard s) {commands : List Command}
    (h : s.applyAll j nodes check commands = some s') : Reach j nodes guard s' := by
  induction commands generalizing s with
  | nil =>
    cases h
    exact hs
  | cons c rest ih =>
    rw [State.applyAll] at h
    split_ifs at h with hc
    obtain ⟨s₁, h₁, hrest⟩ := Option.bind_eq_some_iff.mp h
    obtain ⟨e, hguard, hstep⟩ := hcheck s c s₁ hc h₁
    exact ih (hs.step hguard hstep) hrest

/-- The Job `js-w-0`, whose pods ask for exclusive zones. -/
def zoneJob : JobTemplate where
  pod := zonePod "" "" "" .podPending none
  jobSet := "js"
  replicatedJob := "w"
  jobIndex := "0"
  key := "k"
  topologyKey := "zone"
  owner := 1
  jobSet_label := by decide +kernel
  replicatedJob_label := by decide +kernel
  jobIndex_label := by decide +kernel
  key_label := by decide +kernel
  jobSet_annotation := by decide +kernel
  exclusive := by decide +kernel
  no_strategy := by decide +kernel
  controlled := rfl
  unscheduled := rfl
  fresh := by decide +kernel

end JobSetOperator.Placement
