import JobSetOperator.Placement.Race

/-!
# Repair of followers after a race

The invariant of the runs in which no leader gets its node while a follower with
another topology is on its way: the followers on their way agree with the scheduled
leader, and a leader that some follower does not follow waits for a reconcile.
Without this condition a follower keeps the topology that `Default` read.
-/
namespace JobSetOperator.Placement

open Library

/-! ## What the admission chain does -/

theorem labelPriority_alike (p : Pod) : p.Alike (labelPriority p) := by
  obtain ⟨labels, h⟩ := labelPriority_rest p
  constructor
  · rw [h]
  · rw [h]
  · exact labelPriority_lookup p (by decide)
  · rw [h]

section Admission

variable {j : JobTemplate} {nodes : String → Option StrMap} {v : View} {index : ℕ} {suffix : String}
  {t : Trace} {pod : Pod}

theorem defaultPod_newPod (j : JobTemplate) (index : ℕ) (hsuffix : '-' ∉ suffix.toList) :
    defaultPod (j.newPod index suffix) = patchPod (labelPriority (j.newPod index suffix)) := by
  have hmade := j.made_newPod index hsuffix
  have hset := Option.isNone_eq_false_iff.mpr hmade.jobSet_annotation
  simp [defaultPod, hset, hmade.no_strategy, hmade.exclusive]

theorem genLeaderPodName_newPod (j : JobTemplate) (index : ℕ) (suffix : String) :
    genLeaderPodName (labelPriority (j.newPod index suffix)) = .ok (j.baseName 0) := by
  have hlabels : (j.newPod index suffix).labels = j.pod.labels := rfl
  have h₁ := labelPriority_lookup (j.newPod index suffix)
    (by decide : jobSetNameKey ≠ priorityKey)
  have h₂ := labelPriority_lookup (j.newPod index suffix)
    (by decide : replicatedJobNameKey ≠ priorityKey)
  have h₃ := labelPriority_lookup (j.newPod index suffix)
    (by decide : jobIndexKey ≠ priorityKey)
  rw [hlabels, j.jobSet_label] at h₁
  rw [hlabels, j.replicatedJob_label] at h₂
  rw [hlabels, j.jobIndex_label] at h₃
  simp only [genLeaderPodName, requireLabel, h₁, h₂, h₃]
  rfl

/-- A leader leaves `Default` with its affinities, unscheduled and live. -/
theorem defaultPod_leader (hsuffix : '-' ∉ suffix.toList)
    (h : Program.Path v.Answers (defaultPod (j.newPod 0 suffix)) t (.ok pod)) :
    j.Made 0 pod ∧ pod.nodeName = "" := by
  have hmade := (j.made_newPod 0 hsuffix).of_alike (labelPriority_alike (j.newPod 0 suffix))
  have hleader := hmade.leader_iff.mpr rfl
  obtain ⟨labels, hrest⟩ := labelPriority_rest (j.newPod 0 suffix)
  rw [defaultPod_newPod j 0 hsuffix, patchPod, if_pos hleader] at h
  obtain ⟨-, hres⟩ := h
  cases hres
  refine ⟨hmade.of_alike ⟨rfl, rfl, rfl, rfl⟩, ?_⟩
  rw [hrest]
  exact j.unscheduled

/-- The lookup judges the listed pods, unless the list call fails. -/
theorem leaderPodForFollower_result {name : String} (hname : genLeaderPodName pod = .ok name)
    {lookup : Except String Pod}
    (h : Program.Path v.Answers (leaderPodForFollower pod) t (.ok lookup)) :
    (∃ err, lookup = .error err ∧ ⟨.listPodsByName name, Except.error err⟩ ∈ t) ∨
      lookup = chooseLeader pod name (v.pods.filter fun p => indexPodName p = some name) := by
  unfold leaderPodForFollower at h
  rw [hname] at h
  obtain ⟨x, t', hx, rfl, hk⟩ := Program.path_ask_bind.mp h
  obtain ⟨rfl, hres⟩ := hk
  injection hres with hres
  cases x with
  | error err => exact Or.inl ⟨err, hres, List.mem_singleton_self _⟩
  | ok items =>
    change items = _ at hx
    subst hx
    exact Or.inr hres

/-- A follower leaves `Default` with the topology of the leader the lookup finds, or
as it came. -/
theorem defaultPod_follower (hindex : index ≠ 0) (hsuffix : '-' ∉ suffix.toList)
    (h : Program.Path v.Answers (defaultPod (j.newPod index suffix)) t (.ok pod)) :
    j.Made index pod ∧
    ((∃ leader value, leader.nodeName ≠ "" ∧ v.nodeTopology j.topologyKey leader = some value ∧
        followerPodTopology pod j.topologyKey = .ok value ∧
        chooseLeader (labelPriority (j.newPod index suffix)) (j.baseName 0)
          (v.pods.filter fun p => indexPodName p = some (j.baseName 0)) = .ok leader) ∨
      (pod.nodeSelector = j.pod.nodeSelector ∧
        ((∃ err, ⟨.listPodsByName (j.baseName 0), Except.error err⟩ ∈ t) ∨
          ∀ leader, chooseLeader (labelPriority (j.newPod index suffix)) (j.baseName 0)
            (v.pods.filter fun p => indexPodName p = some (j.baseName 0)) = .ok leader →
            leader.nodeName = ""))) := by
  have hmade := (j.made_newPod index hsuffix).of_alike (labelPriority_alike (j.newPod index suffix))
  have hfollower : isLeaderPod (labelPriority (j.newPod index suffix)) = false := by
    rw [Bool.eq_false_iff]
    exact fun hl => hindex (hmade.leader_iff.mp hl)
  obtain ⟨labels, hrest⟩ := labelPriority_rest (j.newPod index suffix)
  have hselector : (labelPriority (j.newPod index suffix)).nodeSelector = j.pod.nodeSelector := by
    rw [hrest]
    rfl
  rw [defaultPod_newPod j index hsuffix, patchPod, hfollower] at h
  rcases Program.path_bind.mp h with ⟨e, he, -⟩ | ⟨t₁, t₂, lookup, rfl, h₁, h₂⟩
  · cases he
  have hlookup := leaderPodForFollower_result (genLeaderPodName_newPod j index suffix) h₁
  cases lookup with
  | error e =>
    obtain ⟨rfl, hres⟩ := h₂
    cases hres
    refine ⟨hmade, Or.inr ⟨hselector, ?_⟩⟩
    rcases hlookup with ⟨err, -, herr⟩ | hchoose
    · exact Or.inl ⟨err, by simpa using herr⟩
    · refine Or.inr fun leader hleader => ?_
      rw [hleader] at hchoose
      cases hchoose
  | ok leader =>
    rcases hlookup with ⟨err, herr, -⟩ | hchoose
    · cases herr
    dsimp only at h₂
    by_cases hnode : leader.nodeName = ""
    · rw [if_pos hnode] at h₂
      obtain ⟨rfl, hres⟩ := h₂
      cases hres
      refine ⟨hmade, Or.inr ⟨hselector, Or.inr fun leader' hleader => ?_⟩⟩
      rw [hleader] at hchoose
      cases hchoose
      exact hnode
    · rw [if_neg hnode, hmade.exclusive] at h₂
      rcases Program.path_bind.mp h₂ with ⟨e, he, -⟩ | ⟨t₃, t₄, value, rfl, h₃, rfl, hres⟩
      · cases he
      cases hres
      obtain ⟨x, t', hx, rfl, hk⟩ := Program.path_ask_bind.mp h₃
      have hvalue : v.nodeTopology j.topologyKey leader = some value := by
        cases x with
        | failed err => cases hk.2
        | notFound => cases hk.2
        | found nodeLabels =>
          change v.nodes leader.nodeName = some nodeLabels at hx
          cases hl : nodeLabels.lookup j.topologyKey with
          | none =>
            simp only [hl] at hk
            cases hk.2
          | some topology =>
            simp only [hl] at hk
            cases hk.2
            rw [View.nodeTopology, hx]
            exact hl
      refine ⟨hmade.of_alike ⟨rfl, rfl, rfl, rfl⟩, Or.inl ⟨leader, value, hnode, hvalue, ?_,
        hchoose.symm⟩⟩
      simp [followerPodTopology, Pod.withNodeSelector]

/-- An admitted follower has a selector for the topology. -/
theorem validateCreate_path (hmade : j.Made index pod) (hindex : index ≠ 0)
    (h : Program.Path v.Answers (validateCreate pod) t (.ok ())) :
    ∃ value, followerPodTopology pod j.topologyKey = .ok value := by
  have hfollower : isLeaderPod pod = false := by
    rw [Bool.eq_false_iff]
    exact fun hl => hindex (hmade.leader_iff.mp hl)
  have hset := Option.isNone_eq_false_iff.mpr hmade.jobSet_annotation
  simp only [validateCreate, hset, hmade.no_strategy, hmade.exclusive, hfollower] at h
  cases hs : pod.nodeSelector with
  | none =>
    simp only [hs] at h
    cases h.2
  | some selector =>
    simp only [hs] at h
    cases hl : selector.lookup j.topologyKey with
    | none =>
      rw [hl] at h
      cases h.2
    | some value => exact ⟨value, by simp [followerPodTopology, hs, hl]⟩

end Admission

/-! ## The invariant -/

/-- The leader followers should be placed with. -/
def ScheduledLeader (p : Pod) : Prop :=
  isLeaderPod p = true ∧ live p = true ∧ p.nodeName ≠ ""

def topologyAt (nodes : String → Option StrMap) (topologyKey : String) (p : Pod) : Option String :=
  (nodes p.nodeName).bind fun nodeLabels => nodeLabels.lookup topologyKey

/-- The selector of a follower on its way does not contradict the leader. -/
def Agrees (j : JobTemplate) (nodes : String → Option StrMap) (leader f : Pod) : Prop :=
  ∀ value value', topologyAt nodes j.topologyKey leader = some value →
    followerPodTopology f j.topologyKey = .ok value' → value' = value

/-- A persisted follower selects the topology of the leader. -/
def Selects (j : JobTemplate) (nodes : String → Option StrMap) (leader f : Pod) : Prop :=
  ∀ value, topologyAt nodes j.topologyKey leader = some value →
    followerPodTopology f j.topologyKey = .ok value

/-- The pods are those of the Job, with one live leader at most, and the followers on
their way agree with it. -/
structure Shape (j : JobTemplate) (nodes : String → Option StrMap) (s : State) : Prop where
  names : s.names.Nodup
  made : ∀ p ∈ s.pods, ∃ index, j.Made index p
  one_leader : ∀ p ∈ s.pods, ∀ q ∈ s.pods, isLeaderPod p = true → live p = true →
    isLeaderPod q = true → live q = true → p = q
  creating_made : ∀ c ∈ s.creating, ∃ index, index ≠ 0 ∧ j.Made index c.pod
  creating_valid : ∀ c ∈ s.creating, c.stage = .validated →
    ∃ value, followerPodTopology c.pod j.topologyKey = .ok value
  creating_agrees : ∀ c ∈ s.creating, ∀ p ∈ s.pods, ScheduledLeader p → Agrees j nodes p c.pod

/-- A leader that some follower does not follow is waiting for a reconcile. -/
def Repairing (j : JobTemplate) (nodes : String → Option StrMap) (s : State) : Prop :=
  ∀ p ∈ s.pods, ScheduledLeader p → p.name ∈ s.pending ∨
    ∀ f ∈ s.pods, isLeaderPod f = false → live f = true → Selects j nodes p f

section Invariant

variable {j : JobTemplate} {nodes : String → Option StrMap} {s : State}

theorem Pod.Alike.isLeaderPod_eq {p q : Pod} (h : p.Alike q) : isLeaderPod q = isLeaderPod p := by
  simp [isLeaderPod, h.annotations]

theorem followerPodTopology_congr {p q : Pod} {topologyKey value : String}
    (hs : q.nodeSelector = p.nodeSelector)
    (h : followerPodTopology p topologyKey = .ok value) :
    followerPodTopology q topologyKey = .ok value := by
  unfold followerPodTopology at h ⊢
  rw [hs]
  cases hp : p.nodeSelector with
  | none =>
    rw [hp] at h
    cases h
  | some selector =>
    rw [hp] at h
    dsimp only at h ⊢
    cases hl : selector.lookup topologyKey with
    | none =>
      rw [hl] at h
      cases h
    | some topology =>
      rw [hl] at h
      exact h

theorem Shape.eq_of_name (hs : Shape j nodes s) {p q : Pod} (hp : p ∈ s.pods) (hq : q ∈ s.pods)
    (h : p.name = q.name) : p = q :=
  List.inj_on_of_nodup_map hs.names hp hq h

theorem Shape.exclusiveJob (hs : Shape j nodes s) :
    (s.view nodes).ExclusiveJob j.owner j.key j.topologyKey := by
  refine ⟨hs.names, fun p hp _ => ?_⟩
  obtain ⟨index, hmade⟩ := hs.made p hp
  exact ⟨hmade.key_label, hmade.exclusive⟩

theorem Shape.controller_eq (hs : Shape j nodes s) {p : Pod} (hp : p ∈ s.pods) :
    p.controller = some j.owner := by
  obtain ⟨index, hmade⟩ := hs.made p hp
  exact hmade.controlled

/-- A scheduled live leader passes the event filter. -/
theorem eventFilter_of_scheduledLeader {p : Pod} {index : ℕ} (hmade : j.Made index p)
    (h : ScheduledLeader p) : eventFilter p = true := by
  obtain ⟨hleader, hlive, hnode⟩ := h
  simp only [live, decide_eq_true_eq] at hlive
  simp [eventFilter, hleader, hnode, hmade.exclusive, hlive.1]

/-- Pods may change in what does not identify them; a leader may get its node. -/
theorem Shape.map (hs : Shape j nodes s) {g : Pod → Pod} {pending : List String}
    (halike : ∀ p ∈ s.pods, p.Alike (g p))
    (hlive : ∀ p ∈ s.pods, live (g p) = true → live p = true)
    (hnode : ∀ p ∈ s.pods, ScheduledLeader (g p) →
      (g p).nodeName = p.nodeName ∨ ∀ c ∈ s.creating, Agrees j nodes (g p) c.pod) :
    Shape j nodes { s with pods := s.pods.map g, pending := pending } := by
  constructor
  · have hnames : (s.pods.map g).map (·.name) = s.names := by
      rw [List.map_map]
      exact List.map_congr_left fun p hp => (halike p hp).name
    change ((s.pods.map g).map (·.name)).Nodup
    rw [hnames]
    exact hs.names
  · intro q hq
    obtain ⟨p, hp, rfl⟩ := List.mem_map.mp hq
    obtain ⟨index, hmade⟩ := hs.made p hp
    exact ⟨index, hmade.of_alike (halike p hp)⟩
  · intro q₁ hq₁ q₂ hq₂ hl₁ hlive₁ hl₂ hlive₂
    obtain ⟨p₁, hp₁, rfl⟩ := List.mem_map.mp hq₁
    obtain ⟨p₂, hp₂, rfl⟩ := List.mem_map.mp hq₂
    rw [(halike p₁ hp₁).isLeaderPod_eq] at hl₁
    rw [(halike p₂ hp₂).isLeaderPod_eq] at hl₂
    rw [hs.one_leader p₁ hp₁ p₂ hp₂ hl₁ (hlive p₁ hp₁ hlive₁) hl₂ (hlive p₂ hp₂ hlive₂)]
  · exact hs.creating_made
  · exact hs.creating_valid
  · intro c hc q hq hleader
    obtain ⟨p, hp, rfl⟩ := List.mem_map.mp hq
    rcases hnode p hp hleader with hsame | hagree
    · have hp' : ScheduledLeader p := by
        refine ⟨?_, hlive p hp hleader.2.1, hsame ▸ hleader.2.2⟩
        rw [← (halike p hp).isLeaderPod_eq]
        exact hleader.1
      intro value value' hvalue hvalue'
      refine hs.creating_agrees c hc p hp hp' value value' ?_ hvalue'
      rw [← hvalue, topologyAt, topologyAt, hsame]
    · exact hagree c hc

theorem Shape.modify (hs : Shape j nodes s) {p p' : Pod} (hp : p ∈ s.pods) (halike : p.Alike p')
    (hlive : live p' = true → live p = true)
    (hnode : ScheduledLeader p' →
      p'.nodeName = p.nodeName ∨ ∀ c ∈ s.creating, Agrees j nodes p' c.pod) :
    Shape j nodes (s.modify p p') := by
  have hsplit : ∀ q ∈ s.pods, (q = p ∧ (if q.name = p.name then p' else q) = p') ∨
      (if q.name = p.name then p' else q) = q := by
    intro q hq
    by_cases hname : q.name = p.name
    · exact Or.inl ⟨hs.eq_of_name hq hp hname, if_pos hname⟩
    · exact Or.inr (if_neg hname)
  refine hs.map (fun q hq => ?_) (fun q hq => ?_) (fun q hq => ?_)
  · rcases hsplit q hq with ⟨rfl, h⟩ | h
    · rw [h]
      exact halike
    · rw [h]
      exact ⟨rfl, rfl, rfl, rfl⟩
  · rcases hsplit q hq with ⟨rfl, h⟩ | h
    · rw [h]
      exact hlive
    · rw [h]
      exact fun hl => hl
  · rcases hsplit q hq with ⟨rfl, h⟩ | h
    · rw [h]
      exact hnode
    · rw [h]
      exact fun _ => Or.inl rfl

theorem Shape.filter (hs : Shape j nodes s) (keep : Pod → Bool) (pending : List String) :
    Shape j nodes { s with pods := s.pods.filter keep, pending := pending } := by
  have hsub : ∀ p ∈ s.pods.filter keep, p ∈ s.pods := fun p hp => (List.mem_filter.mp hp).1
  constructor
  · exact (List.filter_sublist.map _).nodup hs.names
  · exact fun p hp => hs.made p (hsub p hp)
  · exact fun p hp q hq => hs.one_leader p (hsub p hp) q (hsub q hq)
  · exact hs.creating_made
  · exact hs.creating_valid
  · exact fun c hc p hp => hs.creating_agrees c hc p (hsub p hp)

/-- A change of one pod: a leader that stays in place is reconciled again. -/
theorem Repairing.modify (hs : Shape j nodes s) (hr : Repairing j nodes s) {p p' : Pod}
    (hp : p ∈ s.pods) (halike : p.Alike p') (hlive : live p' = true → live p = true)
    (hselector : p'.nodeSelector = p.nodeSelector) : Repairing j nodes (s.modify p p') := by
  have hmem : ∀ q ∈ (s.modify p p').pods, q = p' ∨ q ∈ s.pods := by
    intro q hq
    obtain ⟨q₀, hq₀, rfl⟩ := List.mem_map.mp hq
    by_cases hname : q₀.name = p.name
    · exact Or.inl (by simp [hname])
    · exact Or.inr (by simpa [hname] using hq₀)
  have hgrow : ∀ name ∈ s.pending, name ∈ (s.modify p p').pending := by
    intro name hname
    simp only [State.modify, State.notify]
    split_ifs
    · exact List.mem_cons_of_mem _ hname
    · exact hname
  intro q hq hleader
  rcases hmem q hq with rfl | hq₀
  · obtain ⟨index, hmade⟩ := hs.made p hp
    have hpass := eventFilter_of_scheduledLeader (hmade.of_alike halike) hleader
    exact Or.inl (by simp [State.modify, State.notify, hpass])
  · rcases hr q hq₀ hleader with hpending | hfollow
    · exact Or.inl (hgrow _ hpending)
    · refine Or.inr fun f hf hfollower hflive => ?_
      rcases hmem f hf with rfl | hf₀
      · intro value hvalue
        rw [halike.isLeaderPod_eq] at hfollower
        exact followerPodTopology_congr hselector
          (hfollow p hp hfollower (hlive hflive) value hvalue)
      · exact hfollow f hf₀ hfollower hflive

/-! ## Steps keep the invariant -/

/-- The lookup finds the live leader. -/
theorem Shape.chooseLeader_eq (hs : Shape j nodes s) {leader f : Pod} (hmem : leader ∈ s.pods)
    (hleader : isLeaderPod leader = true) (hlive : live leader = true)
    (howner : f.controller = some j.owner) :
    chooseLeader f (j.baseName 0)
      (s.pods.filter fun p => indexPodName p = some (j.baseName 0)) = .ok leader := by
  have hpods : s.pods.Nodup := List.Nodup.of_map _ hs.names
  have hindex : ∀ p ∈ s.pods, indexPodName p = some (j.baseName 0) ↔ isLeaderPod p = true := by
    intro p hp
    obtain ⟨index, hmade⟩ := hs.made p hp
    rw [hmade.base, hmade.leader_iff, Option.some_inj]
    exact ⟨fun h => j.baseName_injective h, fun h => h ▸ rfl⟩
  have hfilter : (s.pods.filter fun p => indexPodName p = some (j.baseName 0)).filter live =
      [leader] := by
    rw [← List.perm_singleton, List.perm_ext_iff_of_nodup ((hpods.filter _).filter _)
      (List.nodup_singleton _)]
    intro p
    simp only [List.mem_filter, decide_eq_true_eq, List.mem_singleton]
    constructor
    · rintro ⟨⟨hp, hname⟩, hplive⟩
      exact hs.one_leader p hp leader hmem ((hindex p hp).mp hname) hplive hleader hlive
    · rintro rfl
      exact ⟨⟨hmem, (hindex p hmem).mpr hleader⟩, hlive⟩
  have hown : podsOwnedBySameJob leader f = .ok () := by
    simp [podsOwnedBySameJob, howner, hs.controller_eq hmem]
  unfold chooseLeader
  rw [hfilter]
  simp [hown, Except.map]

theorem Shape.createLeader (hs : Shape j nodes s) {pod : Pod} (hmade : j.Made 0 pod)
    (hnode : pod.nodeName = "") (hnone : ∀ p ∈ s.pods, isLeaderPod p = true → live p = false)
    (hnew : pod.name ∉ s.names) : Shape j nodes { s with pods := s.pods ++ [pod] } := by
  have hold : ∀ p ∈ s.pods, isLeaderPod p = true → live p = true → False := by
    intro p hp hl hlive
    rw [hnone p hp hl] at hlive
    cases hlive
  constructor
  · simp only [State.names, List.map_append, List.map_cons, List.map_nil]
    exact List.nodup_append_comm.mp (List.nodup_cons.mpr ⟨hnew, hs.names⟩)
  · intro p hp
    rcases List.mem_append.mp hp with hp | hp
    · exact hs.made p hp
    · rw [List.mem_singleton.mp hp]
      exact ⟨0, hmade⟩
  · intro p hp q hq hpl hplive hql hqlive
    rcases List.mem_append.mp hp with hp | hp
    · exact (hold p hp hpl hplive).elim
    · rcases List.mem_append.mp hq with hq | hq
      · exact (hold q hq hql hqlive).elim
      · rw [List.mem_singleton.mp hp, List.mem_singleton.mp hq]
  · exact hs.creating_made
  · exact hs.creating_valid
  · intro c hc p hp hleader
    rcases List.mem_append.mp hp with hp | hp
    · exact (hold p hp hleader.1 hleader.2.1).elim
    · rw [List.mem_singleton.mp hp] at hleader
      exact absurd hnode hleader.2.2

theorem Shape.persist (hs : Shape j nodes s) {pod : Pod} {l₁ l₂ : List Creation}
    (hcreating : s.creating = l₁ ++ ⟨pod, .validated⟩ :: l₂) (hnew : pod.name ∉ s.names) :
    Shape j nodes { s with pods := s.pods ++ [pod], creating := l₁ ++ l₂ } := by
  have hsub : ∀ c ∈ l₁ ++ l₂, c ∈ s.creating := by
    intro c hc
    rw [hcreating]
    rcases List.mem_append.mp hc with hc | hc
    · exact List.mem_append_left _ hc
    · exact List.mem_append_right _ (List.mem_cons_of_mem _ hc)
  have hself : (⟨pod, .validated⟩ : Creation) ∈ s.creating := by simp [hcreating]
  obtain ⟨index, hindex, hmade⟩ := hs.creating_made _ hself
  have hfollower : ∀ q, q ∈ [pod] → isLeaderPod q = true → False := by
    intro q hq hl
    rw [List.mem_singleton.mp hq] at hl
    exact hindex (hmade.leader_iff.mp hl)
  constructor
  · simp only [State.names, List.map_append, List.map_cons, List.map_nil]
    exact List.nodup_append_comm.mp (List.nodup_cons.mpr ⟨hnew, hs.names⟩)
  · intro p hp
    rcases List.mem_append.mp hp with hp | hp
    · exact hs.made p hp
    · rw [List.mem_singleton.mp hp]
      exact ⟨index, hmade⟩
  · intro p hp q hq hpl hplive hql hqlive
    rcases List.mem_append.mp hp with hp | hp
    · rcases List.mem_append.mp hq with hq | hq
      · exact hs.one_leader p hp q hq hpl hplive hql hqlive
      · exact (hfollower q hq hql).elim
    · exact (hfollower p hp hpl).elim
  · exact fun c hc => hs.creating_made c (hsub c hc)
  · exact fun c hc => hs.creating_valid c (hsub c hc)
  · intro c hc p hp hleader
    rcases List.mem_append.mp hp with hp | hp
    · exact hs.creating_agrees c (hsub c hc) p hp hleader
    · exact (hfollower p hp hleader.1).elim

/-- The followers on their way may lose or change their stage, or a new one may come. -/
theorem Shape.creating (hs : Shape j nodes s) {creating : List Creation}
    (h : ∀ c ∈ creating, (∃ c₀ ∈ s.creating, c.pod = c₀.pod ∧
        (c.stage = .validated → c₀.stage = .validated ∨
          ∃ value, followerPodTopology c.pod j.topologyKey = .ok value)) ∨
      (c.stage = .defaulted ∧ (∃ index, index ≠ 0 ∧ j.Made index c.pod) ∧
        ∀ p ∈ s.pods, ScheduledLeader p → Agrees j nodes p c.pod)) :
    Shape j nodes { s with creating := creating } := by
  constructor
  · exact hs.names
  · exact hs.made
  · exact hs.one_leader
  · intro c hc
    rcases h c hc with ⟨c₀, hc₀, hpod, -⟩ | ⟨-, hmade, -⟩
    · rw [hpod]
      exact hs.creating_made c₀ hc₀
    · exact hmade
  · intro c hc hstage
    rcases h c hc with ⟨c₀, hc₀, hpod, hvalid⟩ | ⟨hdefaulted, -, -⟩
    · rcases hvalid hstage with hv | hv
      · rw [hpod]
        exact hs.creating_valid c₀ hc₀ hv
      · exact hv
    · rw [hstage] at hdefaulted
      cases hdefaulted
  · intro c hc p hp hleader
    rcases h c hc with ⟨c₀, hc₀, hpod, -⟩ | ⟨-, -, hagree⟩
    · rw [hpod]
      exact hs.creating_agrees c₀ hc₀ p hp hleader
    · exact hagree p hp hleader

/-- A follower that leaves `Default` agrees with the scheduled leader: either it got
the leader's topology, or it has no selector that `ValidateCreate` would accept. -/
theorem Shape.startFollower (hs : Shape j nodes s) {index : ℕ} {suffix : String} {t : Trace}
    {pod : Pod} (hindex : index ≠ 0) (hsuffix : '-' ∉ suffix.toList)
    (hguard : (∃ value, followerPodTopology j.pod j.topologyKey = .ok value) →
      ∀ name err, ⟨.listPodsByName name, Except.error err⟩ ∉ t)
    (hdefault : Program.Path (s.view nodes).Answers (defaultPod (j.newPod index suffix)) t (.ok pod)) :
    Shape j nodes { s with creating := s.creating ++ [⟨pod, .defaulted⟩] } := by
  obtain ⟨hmade, hcases⟩ := defaultPod_follower hindex hsuffix hdefault
  refine hs.creating fun c hc => ?_
  rcases List.mem_append.mp hc with hc | hc
  · exact Or.inl ⟨c, hc, rfl, Or.inl⟩
  rw [List.mem_singleton.mp hc]
  refine Or.inr ⟨rfl, ⟨index, hindex, hmade⟩, ?_⟩
  intro p hp hleader value value' hvalue hvalue'
  have howner : (labelPriority (j.newPod index suffix)).controller = some j.owner :=
    (labelPriority_alike _).controller.trans j.controlled
  have hchoose := hs.chooseLeader_eq hp hleader.1 hleader.2.1 howner
  rcases hcases with ⟨leader, found, -, hfound, hselected, hlookup⟩ | ⟨hselector, hlookup⟩
  · rw [hselected] at hvalue'
    injection hvalue' with hvalue'
    have heq : leader = p := by
      have hok := hlookup.symm.trans hchoose
      injection hok
    subst heq
    have hsame : some found = some value := hfound.symm.trans hvalue
    injection hsame with hsame
    rw [← hvalue', hsame]
  · have hown : followerPodTopology j.pod j.topologyKey = .ok value' :=
      followerPodTopology_congr hselector.symm hvalue'
    have hlisted := hguard ⟨value', hown⟩
    rcases hlookup with ⟨err, herr⟩ | hlookup
    · exact absurd herr (hlisted _ _)
    · exact absurd (hlookup p hchoose) hleader.2.2

theorem effect_alike (now : Time) (t : Trace) (p : Pod) : p.Alike (effect now t p) :=
  ⟨rfl, rfl, rfl, rfl⟩

theorem live_effect {now : Time} {t : Trace} {p : Pod} (h : live (effect now t p) = true) :
    live p = true ∧ p.name ∉ deleted t := by
  by_cases hdeleted : p.name ∈ deleted t
  · simp [live, effect, hdeleted] at h
  · refine ⟨?_, hdeleted⟩
    simpa [live, effect, hdeleted] using h

theorem Shape.step (hs : Shape j nodes s) {s' : State} {e : Event} (hguard : Undisturbed j nodes s e)
    (hstep : Step j nodes s e s') : Shape j nodes s' := by
  cases hstep with
  | createLeader hsuffix hnone hnew hdefault =>
    obtain ⟨hmade, hnode⟩ := defaultPod_leader hsuffix hdefault
    exact hs.createLeader hmade hnode hnone hnew
  | @schedule p node hp hlive hunscheduled hnode =>
    exact hs.modify hp ⟨rfl, rfl, rfl, rfl⟩ (fun h => h)
      (fun hleader => Or.inr fun c hc => hguard hleader.1 c hc)
  | @progress p phase hp hrunning =>
    refine hs.modify hp ⟨rfl, rfl, rfl, rfl⟩ (fun h => ?_) (fun _ => Or.inl rfl)
    simp only [live, decide_eq_true_eq] at h ⊢
    exact ⟨h.1, hrunning⟩
  | @terminate p now hp hdeleted =>
    refine hs.modify hp ⟨rfl, rfl, rfl, rfl⟩ (fun h => ?_) (fun _ => Or.inl rfl)
    simp [live] at h
  | @remove p hp => exact hs.filter _ _
  | startFollower hindex hsuffix hdefault =>
    exact hs.startFollower hindex hsuffix hguard hdefault
  | @validate pod l₁ l₂ t hcreating hvalid =>
    have hself : (⟨pod, .defaulted⟩ : Creation) ∈ s.creating := by simp [hcreating]
    obtain ⟨index, hindex, hmade⟩ := hs.creating_made _ hself
    have hvalue := validateCreate_path hmade hindex hvalid
    refine hs.creating fun c hc => Or.inl ?_
    rcases List.mem_append.mp hc with hc | hc
    · exact ⟨c, by simp [hcreating, hc], rfl, Or.inl⟩
    · rcases List.mem_cons.mp hc with rfl | hc
      · exact ⟨_, hself, rfl, fun _ => Or.inr hvalue⟩
      · exact ⟨c, by simp [hcreating, hc], rfl, Or.inl⟩
  | @reject c l₁ l₂ hcreating =>
    refine hs.creating fun c hc => Or.inl ⟨c, ?_, rfl, Or.inl⟩
    rw [hcreating]
    rcases List.mem_append.mp hc with hc | hc
    · exact List.mem_append_left _ hc
    · exact List.mem_append_right _ (List.mem_cons_of_mem _ hc)
  | persist hcreating hnew => exact hs.persist hcreating hnew
  | reconcile now hpending hpath =>
    exact hs.map (fun p _ => effect_alike _ _ p) (fun p _ h => (live_effect h).1)
      (fun p _ _ => Or.inl rfl)

/-- A reconcile that ends normally has compared every follower with its leader, or
has deleted every follower. -/
theorem Repairing.reconcile (hs : Shape j nodes s) (hr : Repairing j nodes s) {name : String}
    {t : Trace} {res : Except String Unit} (now : Time)
    (hpath : Program.Path (s.view nodes).Answers (reconcilePod name) t res) :
    Repairing j nodes { s with
      pods := s.pods.map (effect now t)
      pending := if res = .ok () then s.pending.filter (· ≠ name) else s.pending } := by
  have hselects : ∀ p f : Pod, Selects j nodes p f →
      Selects j nodes (effect now t p) (effect now t f) := fun p f h => h
  intro q hq hleader
  obtain ⟨p, hp, rfl⟩ := List.mem_map.mp hq
  have hp' : ScheduledLeader p := ⟨hleader.1, (live_effect hleader.2.1).1, hleader.2.2⟩
  -- what held before still holds of the followers that are left
  have hkept : (∀ f ∈ s.pods, isLeaderPod f = false → live f = true → Selects j nodes p f) →
      ∀ f ∈ s.pods.map (effect now t), isLeaderPod f = false → live f = true →
        Selects j nodes (effect now t p) f := by
    intro h g hg hfollower hlive
    obtain ⟨f, hf, rfl⟩ := List.mem_map.mp hg
    exact hselects p f (h f hf hfollower (live_effect hlive).1)
  rcases hr p hp hp' with hpending | hfollow
  · by_cases hres : res = .ok ()
    · by_cases hname : p.name = name
      · -- the reconcile of this leader has succeeded
        subst hname
        right
        have hjob := hs.exclusiveJob
        have hkey := (hjob.marked p hp (hs.controller_eq hp)).1
        have hget := hjob.get_key hp (hs.controller_eq hp)
        rcases reconcilePod_path hjob.names hp hkey (hs.controller_eq hp) hpath with
          ⟨-, hok⟩ | ⟨topology, t', -, -, -, hdeleted, hpath'⟩
        · obtain ⟨topology, htopo, hall⟩ := hok hres
          refine hkept fun f hf hfollower _ value hvalue => ?_
          rw [hget] at hall
          have hselect := hall f (hjob.mem_jobPods.mpr ⟨hf, hs.controller_eq hf⟩) hfollower
          rcases htopo with ⟨hnone, -⟩ | ⟨nodeLabels, hnode, hlabel⟩
          · change nodes p.nodeName = none at hnone
            simp [topologyAt, hnone] at hvalue
          · change nodes p.nodeName = some nodeLabels at hnode
            rw [hget] at hlabel
            simp only [topologyAt, hnode, Option.bind_some] at hvalue
            rw [hlabel] at hvalue
            injection hvalue with hvalue
            rw [hselect, hvalue]
        · intro g hg hfollower hlive
          obtain ⟨f, hf, rfl⟩ := List.mem_map.mp hg
          refine absurd ?_ (live_effect hlive).2
          rw [hres] at hpath'
          rcases Program.path_bind.mp hpath' with ⟨e, he, -⟩ | ⟨t₁, t₂, errs, rfl, h₁, h₂⟩
          · cases he
          have herrs : errs = [] := by
            by_contra hne
            rw [if_neg hne] at h₂
            cases h₂.2
          subst herrs
          apply hdeleted
          rw [deleted_append]
          refine List.mem_append_left _ (deleteFollowerPodsLoop_path ?_ h₁
            (hjob.mem_jobPods.mpr ⟨hf, hs.controller_eq hf⟩) hfollower)
          exact fun f hf => (hjob.mem_jobPods.mp hf).1
      · left
        rw [if_pos hres]
        exact List.mem_filter.mpr ⟨hpending, decide_eq_true hname⟩
    · left
      rw [if_neg hres]
      exact hpending
  · exact Or.inr (hkept hfollow)

theorem Repairing.step (hs : Shape j nodes s) (hr : Repairing j nodes s) {s' : State} {e : Event}
    (hstep : Step j nodes s e s') : Repairing j nodes s' := by
  cases hstep with
  | @createLeader suffix t pod hsuffix hnone hnew hdefault =>
    obtain ⟨-, hnode⟩ := defaultPod_leader hsuffix hdefault
    intro p hp hleader
    rcases List.mem_append.mp hp with hp | hp
    · have hdead := hnone p hp hleader.1
      rw [hleader.2.1] at hdead
      cases hdead
    · rw [List.mem_singleton.mp hp] at hleader
      exact absurd hnode hleader.2.2
  | schedule hp hlive hunscheduled hnode =>
    exact hr.modify hs hp ⟨rfl, rfl, rfl, rfl⟩ (fun h => h) rfl
  | progress phase hp hrunning =>
    refine hr.modify hs hp ⟨rfl, rfl, rfl, rfl⟩ (fun h => ?_) rfl
    simp only [live, decide_eq_true_eq] at h ⊢
    exact ⟨h.1, hrunning⟩
  | terminate now hp hdeleted =>
    refine hr.modify hs hp ⟨rfl, rfl, rfl, rfl⟩ (fun h => ?_) rfl
    simp [live] at h
  | @remove p hp =>
    intro q hq hleader
    rcases hr q (List.mem_filter.mp hq).1 hleader with hpending | hfollow
    · left
      simp only [State.notify]
      split_ifs
      · exact List.mem_cons_of_mem _ hpending
      · exact hpending
    · exact Or.inr fun f hf => hfollow f (List.mem_filter.mp hf).1
  | startFollower hindex hsuffix hdefault => exact hr
  | validate hcreating hvalid => exact hr
  | reject hcreating => exact hr
  | @persist pod l₁ l₂ hcreating hnew =>
    have hself : (⟨pod, .validated⟩ : Creation) ∈ s.creating := by simp [hcreating]
    obtain ⟨index, hindex, hmade⟩ := hs.creating_made _ hself
    obtain ⟨value', hvalue'⟩ := hs.creating_valid _ hself rfl
    intro p hp hleader
    rcases List.mem_append.mp hp with hp | hp
    · rcases hr p hp hleader with hpending | hfollow
      · exact Or.inl hpending
      · refine Or.inr fun f hf hfollower hlive => ?_
        rcases List.mem_append.mp hf with hf | hf
        · exact hfollow f hf hfollower hlive
        · rw [List.mem_singleton.mp hf]
          intro value hvalue
          have hagree := hs.creating_agrees _ hself p hp hleader value value' hvalue hvalue'
          exact hagree ▸ hvalue'
    · rw [List.mem_singleton.mp hp] at hleader
      exact absurd (hmade.leader_iff.mp hleader.1) hindex
  | reconcile now hpending hpath => exact hr.reconcile hs now hpath

theorem reach_invariant (h : Reach j nodes (Undisturbed j nodes) s) :
    Shape j nodes s ∧ Repairing j nodes s := by
  induction h with
  | start =>
    refine ⟨⟨?_, ?_, ?_, ?_, ?_, ?_⟩, ?_⟩ <;> simp [State.start, State.names, Repairing]
  | step h hguard hstep ih => exact ⟨ih.1.step hguard hstep, ih.2.step ih.1 hstep⟩

end Invariant

/-- In every run whose steps are undisturbed, the followers are repaired whenever no
reconcile is waiting, also while creations are under way. -/
theorem placement_repaired {j : JobTemplate} {nodes : String → Option StrMap} {s : State}
    (h : Reach j nodes (Undisturbed j nodes) s) (hpending : s.pending = []) :
    s.Repaired j nodes := by
  obtain ⟨-, hr⟩ := reach_invariant h
  intro leader hmem hleader hlive hnode f hf hfollower hflive value hvalue
  rcases hr leader hmem ⟨hleader, hlive, hnode⟩ with hp | hfollow
  · simp [hpending] at hp
  · exact hfollow f hf hfollower hflive value hvalue

/-! ## A leader that moves and one that stays -/

/-- A leader in the first zone, reconciled, and a follower that read its topology. -/
def followerUnderWay : List Command :=
  [.createLeader "aaaaa", .schedule "js-w-0-0-aaaaa" "n1", .reconcile "js-w-0-0-aaaaa",
    .startFollower 1 "bbbbb"]

/-- The leader then moves to the second zone before the follower is admitted. -/
def leaderMoves : List Command :=
  followerUnderWay ++ [.remove "js-w-0-0-aaaaa", .reconcile "js-w-0-0-aaaaa",
    .createLeader "ccccc", .schedule "js-w-0-0-ccccc" "n2", .reconcile "js-w-0-0-ccccc",
    .validate, .persist]

/-- Nothing is pending and a live leader is in the second zone with a live follower
that does not select it. -/
def State.misplaced (s : State) : Bool :=
  s.creating.isEmpty ∧ s.pending = [] ∧
  ∃ leader ∈ s.pods, isLeaderPod leader = true ∧ live leader = true ∧ leader.nodeName = "n2" ∧
    ∃ f ∈ s.pods, isLeaderPod f = false ∧ live f = true ∧
      followerPodTopology f "zone" ≠ .ok "b"

theorem State.misplaced_not_repaired {s : State} (h : s.misplaced = true) :
    s.creating = [] ∧ s.pending = [] ∧ ¬ s.Repaired zoneJob twoZones := by
  simp only [State.misplaced, decide_eq_true_eq, List.isEmpty_iff] at h
  obtain ⟨hcreating, hpending, leader, hmem, hleader, hlive, hnode, f, hf, hfollower, hflive, hne⟩ := h
  refine ⟨hcreating, hpending, fun hrepaired => hne ?_⟩
  refine hrepaired leader hmem hleader hlive ?_ f hf hfollower hflive "b" ?_
  · rw [hnode]
    decide
  · rw [View.nodeTopology, hnode]
    change (twoZones "n2").bind (fun nodeLabels => nodeLabels.lookup "zone") = some "b"
    decide +kernel

/-- A follower that was admitted with the topology of the leader before stays. -/
theorem placement_not_repaired : ∃ s, Reach zoneJob twoZones (fun _ _ => True) s ∧
    s.creating = [] ∧ s.pending = [] ∧ ¬ s.Repaired zoneJob twoZones := by
  have hrun : (State.start.applyAll zoneJob twoZones (fun _ _ => true) leaderMoves).any
      State.misplaced = true := by
    decide +kernel
  obtain ⟨s, hs, hmisplaced⟩ := (Option.any_eq_true _ _).mp hrun
  refine ⟨s, State.applyAll_reach (fun s c s' _ h => ?_) .start hs,
    State.misplaced_not_repaired hmisplaced⟩
  obtain ⟨e, hstep, -⟩ := State.apply_step h
  exact ⟨e, trivial, hstep⟩

/-- A follower with its leader in one zone and nothing pending. -/
def State.settled (s : State) : Bool :=
  s.pending = [] ∧ (s.pods.filter fun p => live p).length = 2

/-- A run in which the leader stays: its follower is placed with it. -/
theorem placement_repaired_oneFollower : ∃ s,
    Reach zoneJob twoZones (Undisturbed zoneJob twoZones) s ∧ s.settled = true ∧
      s.Repaired zoneJob twoZones := by
  have hrun : (State.start.applyAll zoneJob twoZones (fun s c => c.calm s)
      (followerUnderWay ++ [.validate, .persist])).any State.settled = true := by
    decide +kernel
  obtain ⟨s, hs, hsettled⟩ := (Option.any_eq_true _ _).mp hrun
  have hown : ¬ ∃ value, followerPodTopology zoneJob.pod zoneJob.topologyKey = .ok value := by
    rintro ⟨value, h⟩
    cases h
  have hreach : Reach zoneJob twoZones (Undisturbed zoneJob twoZones) s := by
    refine State.applyAll_reach (fun s c s' hcalm h => ?_) .start hs
    obtain ⟨e, hstep, hguard⟩ := State.apply_step h
    exact ⟨e, hguard hcalm hown, hstep⟩
  have hpending : s.pending = [] := by
    simp only [State.settled, decide_eq_true_eq] at hsettled
    exact hsettled.1
  exact ⟨s, hreach, hsettled, placement_repaired hreach hpending⟩

end JobSetOperator.Placement
