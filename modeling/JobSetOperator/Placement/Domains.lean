import JobSetOperator.Library.Tenancy
import JobSetOperator.Placement.Affinities
import JobSetOperator.Placement.Repair

/-!
# One Job in each topology domain

Exclusive placement keeps the pods of different Jobs apart. Here the pods of all Jobs are
created, bound, deleted and reconciled in any order, next to pods that have nothing to do
with exclusive placement. The webhook and the pod controller read caches that may lag.
The scheduler binds a pod only where the pod's node selector and the required anti-affinity
terms, its own and those of the pods already bound, allow it.
-/
namespace JobSetOperator.Placement

open Library

/-! ## The scheduler -/

/-- The pod takes up room on its node: it is bound and has not finished. -/
def occupies (p : Pod) : Bool :=
  p.nodeName ≠ "" ∧ p.phase ≠ .podFailed ∧ p.phase ≠ .podSucceeded

/-- The value the pod's node selector asks for. -/
def Pod.selected (p : Pod) (topologyKey : String) : Option String :=
  p.nodeSelector.bind fun selector => selector.lookup topologyKey

/-- The pod once it is bound to the node. -/
def Pod.bind (p : Pod) (node : String) : Pod := { p with nodeName := node }

/-- What a binding of the pod to the node respects. The anti-affinity terms of a bound pod
also keep away the pods they select. -/
structure Fits (nodes : String → Option StrMap) (namespaceLabels : StrMap) (pods : List Pod)
    (p : Pod) (node : String) : Prop where
  named : node ≠ ""
  selector : ∀ key value, p.selected key = some value →
    topologyAt nodes key (p.bind node) = some value
  own : ∀ term ∈ p.podAntiAffinity, ∀ q ∈ pods, occupies q = true →
    term.selects namespaceLabels q = true → ∀ value,
      topologyAt nodes term.topologyKey (p.bind node) = some value →
      topologyAt nodes term.topologyKey q ≠ some value
  others : ∀ q ∈ pods, occupies q = true → ∀ term ∈ q.podAntiAffinity,
    term.selects namespaceLabels p = true → ∀ value,
      topologyAt nodes term.topologyKey (p.bind node) = some value →
      topologyAt nodes term.topologyKey q ≠ some value

/-! ## Moves -/

/-- The moves that a condition on runs speaks about carry what it needs. -/
inductive Move
  | start (v : View)
  | validate
  | reject
  | persist
  | outsider
  | schedule (p : Pod) (node : String)
  | progress
  | terminate
  | remove
  | reconcile

/-- The moves of the Job controller, the admission chain, the scheduler, the kubelets, the pod
controller and of those who create other pods. What the webhook and the pod controller see is
any view at all. -/
inductive Takes (jobs : JobTemplate → Prop) (nodes : String → Option StrMap)
    (namespaceLabels : StrMap) : State → Move → State → Prop
  | start {s : State} {j : JobTemplate} {index : ℕ} {suffix : String} {v : View} {t : Trace}
      {pod : Pod} (hj : jobs j) (hsuffix : '-' ∉ suffix.toList)
      (hdefault : Program.Path v.Answers (defaultPod (j.newPod index suffix)) t (.ok pod)) :
      Takes jobs nodes namespaceLabels s (.start v)
        { s with creating := s.creating ++ [⟨pod, .defaulted⟩] }
  | validate {s : State} {pod : Pod} {l₁ l₂ : List Creation} {v : View} {t : Trace}
      (hcreating : s.creating = l₁ ++ ⟨pod, .defaulted⟩ :: l₂)
      (hvalid : Program.Path v.Answers (validateCreate pod) t (.ok ())) :
      Takes jobs nodes namespaceLabels s .validate
        { s with creating := l₁ ++ ⟨pod, .validated⟩ :: l₂ }
  | reject {s : State} {c : Creation} {l₁ l₂ : List Creation}
      (hcreating : s.creating = l₁ ++ c :: l₂) :
      Takes jobs nodes namespaceLabels s .reject { s with creating := l₁ ++ l₂ }
  | persist {s : State} {pod : Pod} {l₁ l₂ : List Creation}
      (hcreating : s.creating = l₁ ++ ⟨pod, .validated⟩ :: l₂) (hnew : pod.name ∉ s.names) :
      Takes jobs nodes namespaceLabels s .persist
        { s with pods := s.pods ++ [pod], creating := l₁ ++ l₂ }
  | outsider {s : State} {pod : Pod} (hplain : pod.annotations.lookup exclusiveKey = none)
      (hunbound : pod.nodeName = "") (hnew : pod.name ∉ s.names) :
      Takes jobs nodes namespaceLabels s .outsider { s with pods := s.pods ++ [pod] }
  | schedule {s : State} {p : Pod} {node : String} (hp : p ∈ s.pods) (hlive : live p = true)
      (hunbound : p.nodeName = "") (hfits : Fits nodes namespaceLabels s.pods p node) :
      Takes jobs nodes namespaceLabels s (.schedule p node)
        (s.modify p (p.bind node))
  | progress {s : State} {p : Pod} (phase : PodPhase) (hp : p ∈ s.pods)
      (hrunning : p.phase ≠ .podFailed ∧ p.phase ≠ .podSucceeded) :
      Takes jobs nodes namespaceLabels s .progress (s.modify p { p with phase := phase })
  | terminate {s : State} {p : Pod} (now : Time) (hp : p ∈ s.pods)
      (hdeleted : p.deletionTimestamp = none) :
      Takes jobs nodes namespaceLabels s .terminate
        (s.modify p { p with deletionTimestamp := some now })
  | remove {s : State} {p : Pod} (hp : p ∈ s.pods) :
      Takes jobs nodes namespaceLabels s .remove
        { s with pods := s.pods.filter (fun q => q.name ≠ p.name), pending := s.notify p }
  | reconcile {s : State} {name : String} {v : View} {t : Trace} {res : Except String Unit}
      (now : Time) (hpath : Program.Path v.Answers (reconcilePod name) t res) :
      Takes jobs nodes namespaceLabels s .reconcile
        { s with
          pods := s.pods.map (effect now t)
          pending := if res = .ok () then s.pending.filter (· ≠ name) else s.pending }

/-- The states of the runs whose moves meet the guard. -/
inductive Reached (jobs : JobTemplate → Prop) (nodes : String → Option StrMap)
    (namespaceLabels : StrMap) (guard : State → Move → Prop) : State → Prop
  | start : Reached jobs nodes namespaceLabels guard .start
  | move {s s' : State} {m : Move} (h : Reached jobs nodes namespaceLabels guard s)
      (hguard : guard s m) (hmove : Takes jobs nodes namespaceLabels s m s') :
      Reached jobs nodes namespaceLabels guard s'

/-- The pods belong to different Jobs and have the same priority. -/
def Compete (p q : Pod) : Prop :=
  (∃ key key', p.labels.lookup jobKey = some key ∧ q.labels.lookup jobKey = some key' ∧
    key ≠ key') ∧
  ∃ priority, p.labels.lookup priorityKey = some priority ∧
    q.labels.lookup priorityKey = some priority

theorem Compete.symm {p q : Pod} (h : Compete p q) : Compete q p := by
  obtain ⟨⟨key, key', hkey, hkey', hne⟩, priority, hp, hq⟩ := h
  exact ⟨⟨key', key, hkey', hkey, hne.symm⟩, priority, hq, hp⟩

/-! ## What a move can do -/

/-- The pod has changed in nothing that the terms and selectors refer to, and has not moved. -/
structure Steady (p p' : Pod) : Prop where
  name : p'.name = p.name
  labels : p'.labels = p.labels
  annotations : p'.annotations = p.annotations
  controller : p'.controller = p.controller
  antiAffinity : p'.podAntiAffinity = p.podAntiAffinity
  selector : p'.nodeSelector = p.nodeSelector
  node : p'.nodeName = p.nodeName
  occupied : occupies p' = true → occupies p = true

theorem Steady.refl (p : Pod) : Steady p p := ⟨rfl, rfl, rfl, rfl, rfl, rfl, rfl, fun h => h⟩

theorem Steady.alike {p p' : Pod} (h : Steady p p') : p.Alike p' :=
  ⟨h.name, h.annotations, by rw [h.labels], h.controller⟩

theorem Steady.topologyAt_eq {p p' : Pod} (h : Steady p p') (nodes : String → Option StrMap)
    (key : String) : topologyAt nodes key p' = topologyAt nodes key p := by
  rw [topologyAt, topologyAt, h.node]

theorem steady_effect (now : Time) (t : Trace) (p : Pod) : Steady p (effect now t p) :=
  ⟨rfl, rfl, rfl, rfl, rfl, rfl, rfl, fun h => h⟩

section Moves

variable {jobs : JobTemplate → Prop} {nodes : String → Option StrMap} {namespaceLabels : StrMap}
  {s s' : State} {m : Move}

/-- A pod after a change of one pod. -/
theorem mem_modify {p p' q : Pod} (hq : q ∈ (s.modify p p').pods) :
    q = p' ∨ q ∈ s.pods := by
  obtain ⟨x, hx, rfl⟩ := List.mem_map.mp hq
  by_cases hname : x.name = p.name
  · exact Or.inl (if_pos hname)
  · rw [if_neg hname]
    exact Or.inr hx

/-- Where a pod comes from: it was there, its creation is over, it is an outsider, or it has
just been bound. -/
theorem Takes.pods (h : Takes jobs nodes namespaceLabels s m s') {q : Pod} (hq : q ∈ s'.pods) :
    (∃ p ∈ s.pods, Steady p q) ∨ ⟨q, .validated⟩ ∈ s.creating ∨
    (q.annotations.lookup exclusiveKey = none ∧ q.nodeName = "") ∨
    ∃ p ∈ s.pods, ∃ node, m = .schedule p node ∧ live p = true ∧ p.nodeName = "" ∧
      q = p.bind node ∧ Fits nodes namespaceLabels s.pods p node := by
  cases h with
  | start hj hsuffix hdefault => exact Or.inl ⟨q, hq, .refl q⟩
  | validate hcreating hvalid => exact Or.inl ⟨q, hq, .refl q⟩
  | reject hcreating => exact Or.inl ⟨q, hq, .refl q⟩
  | persist hcreating hnew =>
    rcases List.mem_append.mp hq with hq | hq
    · exact Or.inl ⟨q, hq, .refl q⟩
    · rw [List.mem_singleton] at hq
      subst hq
      refine Or.inr (Or.inl ?_)
      rw [hcreating]
      exact List.mem_append_right _ (List.mem_cons_self ..)
  | outsider hplain hunbound hnew =>
    rcases List.mem_append.mp hq with hq | hq
    · exact Or.inl ⟨q, hq, .refl q⟩
    · rw [List.mem_singleton] at hq
      subst hq
      exact Or.inr (Or.inr (Or.inl ⟨hplain, hunbound⟩))
  | @schedule p node hp hlive hunbound hfits =>
    rcases mem_modify hq with rfl | hq
    · exact Or.inr (Or.inr (Or.inr ⟨p, hp, node, rfl, hlive, hunbound, rfl, hfits⟩))
    · exact Or.inl ⟨q, hq, .refl q⟩
  | @progress p phase hp hrunning =>
    rcases mem_modify hq with rfl | hq
    · refine Or.inl ⟨p, hp, rfl, rfl, rfl, rfl, rfl, rfl, rfl, fun h => ?_⟩
      simp only [occupies, decide_eq_true_eq] at h ⊢
      exact ⟨h.1, hrunning⟩
    · exact Or.inl ⟨q, hq, .refl q⟩
  | @terminate p now hp hdeleted =>
    rcases mem_modify hq with rfl | hq
    · exact Or.inl ⟨p, hp, rfl, rfl, rfl, rfl, rfl, rfl, rfl, fun h => h⟩
    · exact Or.inl ⟨q, hq, .refl q⟩
  | remove hp => exact Or.inl ⟨q, (List.mem_filter.mp hq).1, .refl q⟩
  | reconcile now hpath =>
    obtain ⟨p, hp, rfl⟩ := List.mem_map.mp hq
    exact Or.inl ⟨p, hp, steady_effect now _ p⟩

/-- Where a creation comes from. -/
theorem Takes.creations (h : Takes jobs nodes namespaceLabels s m s') {c : Creation}
    (hc : c ∈ s'.creating) : c ∈ s.creating ∨
    (⟨c.pod, .defaulted⟩ ∈ s.creating ∧
      ∃ (v : View) (t : Trace), Program.Path v.Answers (validateCreate c.pod) t (.ok ())) ∨
    ∃ (v : View) (j : JobTemplate) (index : ℕ) (suffix : String) (t : Trace), m = .start v ∧
      jobs j ∧ '-' ∉ suffix.toList ∧ c.stage = .defaulted ∧
      Program.Path v.Answers (defaultPod (j.newPod index suffix)) t (.ok c.pod) := by
  cases h with
  | @start j index suffix v t pod hj hsuffix hdefault =>
    rcases List.mem_append.mp hc with hc | hc
    · exact Or.inl hc
    · rw [List.mem_singleton] at hc
      subst hc
      exact Or.inr (Or.inr ⟨v, j, index, suffix, t, rfl, hj, hsuffix, rfl, hdefault⟩)
  | @validate pod l₁ l₂ v t hcreating hvalid =>
    rw [hcreating]
    rcases List.mem_append.mp hc with hc | hc
    · exact Or.inl (List.mem_append_left _ hc)
    · rcases List.mem_cons.mp hc with rfl | hc
      · exact Or.inr (Or.inl ⟨List.mem_append_right _ (List.mem_cons_self ..), v, t, hvalid⟩)
      · exact Or.inl (List.mem_append_right _ (List.mem_cons_of_mem _ hc))
  | reject hcreating =>
    rw [hcreating]
    rcases List.mem_append.mp hc with hc | hc
    · exact Or.inl (List.mem_append_left _ hc)
    · exact Or.inl (List.mem_append_right _ (List.mem_cons_of_mem _ hc))
  | persist hcreating hnew =>
    rw [hcreating]
    rcases List.mem_append.mp hc with hc | hc
    · exact Or.inl (List.mem_append_left _ hc)
    · exact Or.inl (List.mem_append_right _ (List.mem_cons_of_mem _ hc))
  | outsider hplain hunbound hnew => exact Or.inl hc
  | schedule hp hlive hunbound hfits => exact Or.inl hc
  | progress phase hp hrunning => exact Or.inl hc
  | terminate now hp hdeleted => exact Or.inl hc
  | remove hp => exact Or.inl hc
  | reconcile now hpath => exact Or.inl hc

end Moves

/-! ## What Default returns -/

section Default

variable {v : View} {t : Trace} {pod pod' : Pod}

/-- A follower comes out of the node selector step with at most a new selector. -/
theorem setNodeSelector_rest (h : Program.Path v.Answers (setNodeSelector pod) t (.ok pod')) :
    ∃ selector, pod' = { pod with nodeSelector := selector } := by
  rcases Program.path_bind.mp h with ⟨e, he, -⟩ | ⟨t₁, t₂, lookup, rfl, -, h₂⟩
  · cases he
  cases lookup with
  | error e =>
    obtain ⟨-, hres⟩ := h₂
    cases hres
    exact ⟨pod.nodeSelector, rfl⟩
  | ok leaderPod =>
    dsimp only at h₂
    split_ifs at h₂
    · obtain ⟨-, hres⟩ := h₂
      cases hres
      exact ⟨pod.nodeSelector, rfl⟩
    · cases hkey : pod.annotations.lookup exclusiveKey with
      | none =>
        rw [hkey] at h₂
        cases h₂.2
      | some topologyKey =>
        rw [hkey] at h₂
        rcases Program.path_bind.mp h₂ with ⟨e, he, -⟩ | ⟨t₃, t₄, value, -, -, -, hres⟩
        · cases he
        · cases hres
          exact ⟨_, rfl⟩

/-- A leader with exclusive placement keeps away the pods of other Jobs with its priority. -/
def Armed (p : Pod) : Prop :=
  isLeaderPod p = true → ∀ topologyKey key priority,
    p.annotations.lookup exclusiveKey = some topologyKey → p.labels.lookup jobKey = some key →
    p.labels.lookup priorityKey = some priority →
    competitorTerm key priority topologyKey ∈ p.podAntiAffinity

theorem armed_setExclusiveAffinities (p : Pod) : Armed (setExclusiveAffinities p) := by
  intro _ topologyKey key priority hexclusive hkey hpriority
  change p.annotations.lookup exclusiveKey = some topologyKey at hexclusive
  change p.labels.lookup jobKey = some key at hkey
  change p.labels.lookup priorityKey = some priority at hpriority
  have hterm : (setExclusiveAffinities p).podAntiAffinity =
      p.podAntiAffinity ++ [competitorTerm key priority topologyKey] := by
    simp [setExclusiveAffinities, competitorTerm, StrMap.get, hexclusive, hkey, hpriority]
  rw [hterm]
  exact List.mem_append_right _ (List.mem_singleton_self _)

theorem labelPriority_newPod (j : JobTemplate) (index : ℕ) (suffix : String) :
    (labelPriority (j.newPod index suffix)).labels = (labelPriority j.pod).labels := by
  have hpriority : (j.newPod index suffix).priority = j.pod.priority := rfl
  unfold labelPriority
  rw [hpriority]
  cases j.pod.priority <;> rfl

/-- A pod that leaves `Default` has its Job's labels and is unbound; a leader is armed. -/
theorem defaultPod_newPod_result {j : JobTemplate} {index : ℕ} {suffix : String}
    (hsuffix : '-' ∉ suffix.toList)
    (h : Program.Path v.Answers (defaultPod (j.newPod index suffix)) t (.ok pod)) :
    j.Made index pod ∧ pod.labels = (labelPriority j.pod).labels ∧ pod.nodeName = "" ∧
      Armed pod := by
  have hmade := (j.made_newPod index hsuffix).of_alike (labelPriority_alike (j.newPod index suffix))
  have hlabels := labelPriority_newPod j index suffix
  have hunbound : (labelPriority (j.newPod index suffix)).nodeName = "" := by
    obtain ⟨labels, hrest⟩ := labelPriority_rest (j.newPod index suffix)
    rw [hrest]
    exact j.unscheduled
  rw [defaultPod_newPod j index hsuffix] at h
  unfold patchPod at h
  split_ifs at h with hleader
  · obtain ⟨-, hres⟩ := h
    cases hres
    exact ⟨hmade.of_alike ⟨rfl, rfl, rfl, rfl⟩, hlabels, hunbound,
      armed_setExclusiveAffinities _⟩
  · obtain ⟨selector, rfl⟩ := setNodeSelector_rest h
    refine ⟨hmade.of_alike ⟨rfl, rfl, rfl, rfl⟩, hlabels, hunbound, fun hl => ?_⟩
    exact absurd hl hleader

end Default

/-! ## The domain of a leader -/

/-- The leaders carry their terms, and their competitors are elsewhere. -/
structure Guarded (nodes : String → Option StrMap) (s : State) : Prop where
  armed : ∀ p ∈ s.pods, Armed p
  creating : ∀ c ∈ s.creating, Armed c.pod ∧ c.pod.nodeName = ""
  apart : ∀ p ∈ s.pods, isLeaderPod p = true → occupies p = true →
    ∀ q ∈ s.pods, occupies q = true → Compete p q →
    ∀ topologyKey value, p.annotations.lookup exclusiveKey = some topologyKey →
      topologyAt nodes topologyKey p = some value → topologyAt nodes topologyKey q ≠ some value

section Leaders

variable {jobs : JobTemplate → Prop} {nodes : String → Option StrMap} {namespaceLabels : StrMap}
  {s s' : State} {m : Move} {p p' q q' : Pod} {node : String}

theorem Steady.armed (h : Steady p p') (hp : Armed p) : Armed p' := by
  unfold Armed
  rw [h.alike.isLeaderPod_eq, h.annotations, h.labels, h.antiAffinity]
  exact hp

theorem Steady.compete (hp : Steady p p') (hq : Steady q q') (h : Compete p' q') :
    Compete p q := by
  unfold Compete at h
  rwa [hp.labels, hq.labels] at h

theorem occupies_unbound (h : p.nodeName = "") : occupies p = false := by
  simp [occupies, h]

/-- The term of a leader selects its competitors. -/
theorem Armed.selects (harmed : Armed p) (hleader : isLeaderPod p = true) {topologyKey : String}
    (hexclusive : p.annotations.lookup exclusiveKey = some topologyKey) (h : Compete p q) :
    ∃ term ∈ p.podAntiAffinity, term.topologyKey = topologyKey ∧
      term.selects namespaceLabels q = true := by
  obtain ⟨⟨key, key', hkey, hkey', hne⟩, priority, hpriority, hpriority'⟩ := h
  refine ⟨_, harmed hleader topologyKey key priority hexclusive hkey hpriority, rfl, ?_⟩
  exact (competitorTerm_selects hkey' hpriority').mpr ⟨hne.symm, rfl⟩

/-- A leader is not bound into a domain with a competitor. -/
theorem Fits.leader_apart (hfits : Fits nodes namespaceLabels s.pods p node) (harmed : Armed p)
    (hleader : isLeaderPod p = true) {topologyKey value : String}
    (hexclusive : p.annotations.lookup exclusiveKey = some topologyKey) (hq : q ∈ s.pods)
    (hoccupies : occupies q = true) (h : Compete p q)
    (hvalue : topologyAt nodes topologyKey (p.bind node) = some value) :
    topologyAt nodes topologyKey q ≠ some value := by
  obtain ⟨term, hterm, rfl, hselects⟩ := harmed.selects hleader hexclusive h
  exact hfits.own term hterm q hq hoccupies hselects value hvalue

/-- A competitor is not bound into the domain of a leader. -/
theorem Fits.competitor_apart (hfits : Fits nodes namespaceLabels s.pods q node)
    (hp : p ∈ s.pods) (hoccupies : occupies p = true) (harmed : Armed p)
    (hleader : isLeaderPod p = true) {topologyKey value : String}
    (hexclusive : p.annotations.lookup exclusiveKey = some topologyKey) (h : Compete p q)
    (hvalue : topologyAt nodes topologyKey p = some value) :
    topologyAt nodes topologyKey (q.bind node) ≠ some value := by
  obtain ⟨term, hterm, rfl, hselects⟩ := harmed.selects hleader hexclusive h
  intro hnode
  exact hfits.others p hp hoccupies term hterm hselects value hnode hvalue

theorem Guarded.move (hs : Guarded nodes s) (hmove : Takes jobs nodes namespaceLabels s m s') :
    Guarded nodes s' := by
  constructor
  · intro q hq
    rcases hmove.pods hq with ⟨p, hp, hsteady⟩ | hcreating | ⟨hplain, -⟩ |
      ⟨p, hp, node, -, -, -, rfl, -⟩
    · exact hsteady.armed (hs.armed p hp)
    · exact (hs.creating _ hcreating).1
    · intro _ topologyKey key priority hexclusive
      rw [hplain] at hexclusive
      cases hexclusive
    · exact hs.armed p hp
  · intro c hc
    rcases hmove.creations hc with hc | ⟨hc, -⟩ | ⟨v, j, index, suffix, t, -, -, hsuffix, -, h⟩
    · exact hs.creating c hc
    · exact hs.creating ⟨c.pod, .defaulted⟩ hc
    · obtain ⟨-, -, hunbound, harmed⟩ := defaultPod_newPod_result hsuffix h
      exact ⟨harmed, hunbound⟩
  · intro p hp hleader hoccupies q hq hoccupies' hcompete topologyKey value hexclusive hvalue
    -- an occupying pod was there before, or has just been bound
    have horigin : ∀ x ∈ s'.pods, occupies x = true → (∃ y ∈ s.pods, Steady y x) ∨
        ∃ y ∈ s.pods, ∃ node, m = .schedule y node ∧ x = y.bind node ∧
          Fits nodes namespaceLabels s.pods y node := by
      intro x hx hox
      rcases hmove.pods hx with h | hcreating | ⟨-, hunbound⟩ |
        ⟨y, hy, node, hm, -, -, hbind, hfits⟩
      · exact Or.inl h
      · rw [occupies_unbound (hs.creating _ hcreating).2] at hox
        cases hox
      · rw [occupies_unbound hunbound] at hox
        cases hox
      · exact Or.inr ⟨y, hy, node, hm, hbind, hfits⟩
    rcases horigin p hp hoccupies with ⟨p₀, hp₀, hsteady⟩ | ⟨p₀, hp₀, node, hm, rfl, hfits⟩
    · have hleader₀ : isLeaderPod p₀ = true := by
        rw [← hsteady.alike.isLeaderPod_eq]
        exact hleader
      have hexclusive₀ : p₀.annotations.lookup exclusiveKey = some topologyKey := by
        rw [← hsteady.annotations]
        exact hexclusive
      rw [hsteady.topologyAt_eq] at hvalue
      have hoccupies₀ := hsteady.occupied hoccupies
      rcases horigin q hq hoccupies' with ⟨q₀, hq₀, hsteady'⟩ | ⟨q₀, hq₀, node, -, rfl, hfits⟩
      · rw [hsteady'.topologyAt_eq]
        exact hs.apart p₀ hp₀ hleader₀ hoccupies₀ q₀ hq₀ (hsteady'.occupied hoccupies')
          (hsteady.compete hsteady' hcompete) topologyKey value hexclusive₀ hvalue
      · have hcompete₀ : Compete p₀ q₀ := by
          unfold Compete at hcompete
          rw [hsteady.labels] at hcompete
          exact hcompete
        exact hfits.competitor_apart hp₀ hoccupies₀ (hs.armed p₀ hp₀) hleader₀ hexclusive₀
          hcompete₀ hvalue
    · rcases horigin q hq hoccupies' with ⟨q₀, hq₀, hsteady'⟩ | ⟨q₀, hq₀, node', hm', rfl, -⟩
      · have hcompete₀ : Compete p₀ q₀ := by
          unfold Compete at hcompete
          rw [hsteady'.labels] at hcompete
          exact hcompete
        rw [hsteady'.topologyAt_eq]
        exact hfits.leader_apart (hs.armed p₀ hp₀) hleader hexclusive hq₀
          (hsteady'.occupied hoccupies') hcompete₀ hvalue
      · -- both are the pod that was bound
        rw [hm] at hm'
        cases hm'
        obtain ⟨⟨key, key', hkey, hkey', hne⟩, -⟩ := hcompete
        rw [hkey] at hkey'
        exact absurd (Option.some.inj hkey') hne

theorem Reached.guarded {guard : State → Move → Prop}
    (h : Reached jobs nodes namespaceLabels guard s) : Guarded nodes s := by
  induction h with
  | start =>
    constructor
    · intro p hp
      cases hp
    · intro c hc
      cases hc
    · intro p hp
      cases hp
  | move _ _ hmove ih => exact ih.move hmove

end Leaders

/-! ## Jobs as tenants -/

/-- The domain a pod is in, or one that a follower will be bound to. -/
def Claims (nodes : String → Option StrMap) (topologyKey : String) (p : Pod) (value : String) :
    Prop :=
  (occupies p = true ∧ topologyAt nodes topologyKey p = some value) ∨
  (isLeaderPod p = false ∧ p.nodeName = "" ∧ p.selected topologyKey = some value)

/-- The persisted pods and those on their way. -/
def State.present (s : State) : List Pod := s.pods ++ s.creating.map (·.pod)

/-- Which Job holds which domain, among those of one priority with one topology key. -/
def State.held (nodes : String → Option StrMap) (topologyKey priority : String) (s : State) :
    Set (String × String) :=
  {x | ∃ p ∈ s.present, p.annotations.lookup exclusiveKey = some topologyKey ∧
    p.labels.lookup priorityKey = some priority ∧ p.labels.lookup jobKey = some x.1 ∧
    Claims nodes topologyKey p x.2}

/-- The webhook sees the pods as they are, and a leader is not bound into a domain that a
follower of another Job is on its way to. -/
def Orderly (nodes : String → Option StrMap) (s : State) : Move → Prop
  | .start v => v = s.view nodes
  | .schedule p node => isLeaderPod p = true → ∀ f ∈ s.present, isLeaderPod f = false →
      f.nodeName = "" → Compete p f → ∀ topologyKey value,
      p.annotations.lookup exclusiveKey = some topologyKey →
      f.annotations.lookup exclusiveKey = some topologyKey →
      f.selected topologyKey = some value →
      topologyAt nodes topologyKey (p.bind node) ≠ some value
  | _ => True

/-- A Job is known by its uid, and its pod template leaves the topology to the webhook. -/
structure Settings (jobs : JobTemplate → Prop) : Prop where
  owner : ∀ j j', jobs j → jobs j' → j.owner = j'.owner → j = j'
  unselected : ∀ j, jobs j → j.pod.selected j.topologyKey = none

/-- The pod was made from the template of the Job. -/
def JobTemplate.Labelled (j : JobTemplate) (index : ℕ) (p : Pod) : Prop :=
  j.Made index p ∧ p.labels.lookup priorityKey = (labelPriority j.pod).labels.lookup priorityKey

/-- The pods with exclusive placement come from the Jobs, and their followers know where to go. -/
structure Sourced (jobs : JobTemplate → Prop) (s : State) : Prop where
  pods : ∀ p ∈ s.pods, (p.annotations.lookup exclusiveKey).isSome = true →
    ∃ j index, jobs j ∧ j.Labelled index p ∧
      (index ≠ 0 → ∃ value, p.selected j.topologyKey = some value)
  creating : ∀ c ∈ s.creating, ∃ j index, jobs j ∧ j.Labelled index c.pod ∧
    c.pod.nodeName = "" ∧ (c.stage = .validated → index ≠ 0 →
      ∃ value, c.pod.selected j.topologyKey = some value)

section Tenants

variable {jobs : JobTemplate → Prop} {nodes : String → Option StrMap} {namespaceLabels : StrMap}
  {s s' : State} {m : Move} {p p' q q' : Pod} {node topologyKey value : String}

theorem selected_of_followerPodTopology (h : followerPodTopology p topologyKey = .ok value) :
    p.selected topologyKey = some value := by
  unfold followerPodTopology at h
  unfold Pod.selected
  cases hs : p.nodeSelector with
  | none =>
    rw [hs] at h
    cases h
  | some selector =>
    rw [hs] at h
    dsimp only at h
    cases hl : selector.lookup topologyKey with
    | none =>
      rw [hl] at h
      cases h
    | some topology =>
      rw [hl] at h
      cases h
      exact hl

theorem Steady.selected_eq (h : Steady p p') (key : String) : p'.selected key = p.selected key := by
  rw [Pod.selected, Pod.selected, h.selector]

theorem Steady.labelled {j : JobTemplate} {index : ℕ} (h : Steady p p')
    (hp : j.Labelled index p) : j.Labelled index p' := by
  refine ⟨hp.1.of_alike h.alike, ?_⟩
  rw [h.labels]
  exact hp.2

theorem Steady.claims (h : Steady p p') (hc : Claims nodes topologyKey p' value) :
    Claims nodes topologyKey p value := by
  rcases hc with ⟨hoccupies, hvalue⟩ | ⟨hfollower, hunbound, hvalue⟩
  · rw [h.topologyAt_eq] at hvalue
    exact Or.inl ⟨h.occupied hoccupies, hvalue⟩
  · rw [h.alike.isLeaderPod_eq] at hfollower
    rw [h.node] at hunbound
    rw [h.selected_eq] at hvalue
    exact Or.inr ⟨hfollower, hunbound, hvalue⟩

theorem mem_present_pods (h : p ∈ s.pods) : p ∈ s.present := List.mem_append_left _ h

theorem mem_present_creating {c : Creation} (h : c ∈ s.creating) : c.pod ∈ s.present :=
  List.mem_append_right _ (List.mem_map.mpr ⟨c, h, rfl⟩)

theorem Sourced.move (hs : Sourced jobs s) (hmove : Takes jobs nodes namespaceLabels s m s') :
    Sourced jobs s' := by
  constructor
  · intro q hq hexclusive
    rcases hmove.pods hq with ⟨p, hp, hsteady⟩ | hcreating | ⟨hplain, -⟩ |
      ⟨p, hp, node, -, -, -, rfl, -⟩
    · rw [hsteady.annotations] at hexclusive
      obtain ⟨j, index, hj, hlabelled, hselected⟩ := hs.pods p hp hexclusive
      refine ⟨j, index, hj, hsteady.labelled hlabelled, fun hindex => ?_⟩
      rw [hsteady.selected_eq]
      exact hselected hindex
    · obtain ⟨j, index, hj, hlabelled, -, hselected⟩ := hs.creating _ hcreating
      exact ⟨j, index, hj, hlabelled, hselected rfl⟩
    · rw [hplain] at hexclusive
      cases hexclusive
    · obtain ⟨j, index, hj, hlabelled, hselected⟩ := hs.pods p hp hexclusive
      exact ⟨j, index, hj, ⟨hlabelled.1.of_alike ⟨rfl, rfl, rfl, rfl⟩, hlabelled.2⟩, hselected⟩
  · intro c hc
    rcases hmove.creations hc with hc | ⟨hc, v, t, hvalid⟩ |
      ⟨v, j, index, suffix, t, -, hj, hsuffix, hstage, h⟩
    · exact hs.creating c hc
    · obtain ⟨j, index, hj, hlabelled, hunbound, -⟩ := hs.creating ⟨c.pod, .defaulted⟩ hc
      refine ⟨j, index, hj, hlabelled, hunbound, fun _ hindex => ?_⟩
      obtain ⟨value, hvalue⟩ := validateCreate_path hlabelled.1 hindex hvalid
      exact ⟨value, selected_of_followerPodTopology hvalue⟩
    · obtain ⟨hmade, hlabels, hunbound, -⟩ := defaultPod_newPod_result hsuffix h
      refine ⟨j, index, hj, ⟨hmade, by rw [hlabels]⟩, hunbound, fun hvalidated => ?_⟩
      rw [hstage] at hvalidated
      cases hvalidated

theorem Reached.sourced {guard : State → Move → Prop}
    (h : Reached jobs nodes namespaceLabels guard s) : Sourced jobs s := by
  induction h with
  | start =>
    constructor
    · intro p hp
      cases hp
    · intro c hc
      cases hc
  | move _ _ hmove ih => exact ih.move hmove

/-- The leader that the lookup chooses is live, listed and of the same owner. -/
theorem chooseLeader_ok {pod leader : Pod} {name : String} {items : List Pod}
    (h : chooseLeader pod name items = .ok leader) :
    leader ∈ items ∧ live leader = true ∧ leader.controller = pod.controller := by
  unfold chooseLeader at h
  split at h
  · rename_i leaderPod heq
    have hmem : leaderPod ∈ items.filter live := by
      rw [heq]
      exact List.mem_singleton_self _
    cases ho : podsOwnedBySameJob leaderPod pod with
    | error e => simp [ho, Except.map] at h
    | ok u =>
      have hsame : leaderPod = leader := by simpa [ho, Except.map] using h
      subst hsame
      refine ⟨(List.mem_filter.mp hmem).1, (List.mem_filter.mp hmem).2, ?_⟩
      unfold podsOwnedBySameJob at ho
      split at ho
      · cases ho
      · cases ho
      · rename_i hfollower hleader
        split_ifs at ho with hne
        rw [hfollower, hleader, not_not.mp hne]
  · cases h

/-- A domain that a new follower selects is held by its Job already: its leader is there. -/
theorem Sourced.start_held (hs : Sourced jobs s) (hset : Settings jobs) {j : JobTemplate}
    (hj : jobs j) {index : ℕ} {suffix : String} {t : Trace} (hsuffix : '-' ∉ suffix.toList)
    (h : Program.Path (s.view nodes).Answers (defaultPod (j.newPod index suffix)) t (.ok p))
    (hclaims : Claims nodes j.topologyKey p value) {priority : String}
    (hpriority : p.labels.lookup priorityKey = some priority) :
    (j.key, value) ∈ s.held nodes j.topologyKey priority := by
  obtain ⟨hmade, hlabels, hunbound, -⟩ := defaultPod_newPod_result hsuffix h
  rcases hclaims with ⟨hoccupies, -⟩ | ⟨hfollower, -, hvalue⟩
  · rw [occupies_unbound hunbound] at hoccupies
    cases hoccupies
  have hindex : index ≠ 0 := by
    intro hzero
    rw [hmade.leader_iff.mpr hzero] at hfollower
    cases hfollower
  obtain ⟨-, ⟨leader, value', hbound, htopology, hselected, hchoose⟩ | ⟨hown, -⟩⟩ :=
    defaultPod_follower hindex hsuffix h
  · obtain ⟨hlisted, hlive, howner⟩ := chooseLeader_ok hchoose
    obtain ⟨hmem, hname⟩ := List.mem_filter.mp hlisted
    have hname : indexPodName leader = some (j.baseName 0) := by simpa using hname
    have hexclusive : (leader.annotations.lookup exclusiveKey).isSome = true := by
      by_contra hnone
      rw [Bool.not_eq_true, Option.isSome_eq_false_iff] at hnone
      simp [indexPodName, hnone] at hname
    obtain ⟨j', index', hj', hlabelled, -⟩ := hs.pods leader hmem hexclusive
    have hcontroller : (labelPriority (j.newPod index suffix)).controller = some j.owner := by
      rw [(labelPriority_alike _).controller]
      exact j.controlled
    have hsame : j' = j := by
      apply hset.owner j' j hj' hj
      rw [hlabelled.1.controlled, hcontroller] at howner
      exact Option.some.inj howner
    subst hsame
    rw [selected_of_followerPodTopology hselected] at hvalue
    cases hvalue
    refine ⟨leader, mem_present_pods hmem, hlabelled.1.exclusive, ?_, hlabelled.1.key_label, ?_⟩
    · rw [hlabelled.2, ← hlabels]
      exact hpriority
    · refine Or.inl ⟨?_, htopology⟩
      simp only [live, decide_eq_true_eq] at hlive
      simp only [occupies, decide_eq_true_eq]
      exact ⟨hbound, hlive.2⟩
  · rw [Pod.selected, hown] at hvalue
    have hnone := hset.unselected j hj
    rw [Pod.selected] at hnone
    rw [hnone] at hvalue
    cases hvalue

/-- The move binds a leader of the Job into the domain. -/
structure Settles (nodes : String → Option StrMap) (namespaceLabels : StrMap)
    (topologyKey priority : String) (s : State) (m : Move) (p : Pod) (node : String)
    (x : String × String) : Prop where
  move : m = .schedule p node
  leader : isLeaderPod p = true
  fits : Fits nodes namespaceLabels s.pods p node
  armed : Armed p
  exclusive : p.annotations.lookup exclusiveKey = some topologyKey
  priority_label : p.labels.lookup priorityKey = some priority
  key_label : p.labels.lookup jobKey = some x.1
  domain : topologyAt nodes topologyKey (p.bind node) = some x.2

/-- A follower is bound where its selector says. -/
theorem Sourced.follower_bound (hs : Sourced jobs s) (hp : p ∈ s.pods)
    (hfollower : isLeaderPod p = false) (hunbound : p.nodeName = "")
    (hfits : Fits nodes namespaceLabels s.pods p node)
    (hexclusive : p.annotations.lookup exclusiveKey = some topologyKey)
    (hclaims : Claims nodes topologyKey (p.bind node) value) :
    Claims nodes topologyKey p value := by
  obtain ⟨j, index, -, hlabelled, hselected⟩ := hs.pods p hp (by rw [hexclusive]; rfl)
  have hindex : index ≠ 0 := by
    intro hzero
    rw [hlabelled.1.leader_iff.mpr hzero] at hfollower
    cases hfollower
  have hkey : j.topologyKey = topologyKey := by
    have h := hlabelled.1.exclusive
    rw [hexclusive] at h
    exact (Option.some.inj h).symm
  obtain ⟨value', hvalue'⟩ := hselected hindex
  rw [hkey] at hvalue'
  rcases hclaims with ⟨-, hdomain⟩ | ⟨-, hnode, -⟩
  · rw [hfits.selector _ _ hvalue'] at hdomain
    cases hdomain
    exact Or.inr ⟨hfollower, hunbound, hvalue'⟩
  · exact absurd hnode hfits.named

/-- A domain held after a move was held before, or a leader has just been bound into it. -/
theorem Takes.held (hmove : Takes jobs nodes namespaceLabels s m s') (hset : Settings jobs)
    (hs : Sourced jobs s) (hg : Guarded nodes s) (horderly : Orderly nodes s m)
    {priority : String} {x : String × String} (hx : x ∈ s'.held nodes topologyKey priority) :
    x ∈ s.held nodes topologyKey priority ∨
      ∃ p node, Settles nodes namespaceLabels topologyKey priority s m p node x := by
  obtain ⟨q, hq, hexclusive, hpriority, hkey, hclaims⟩ := hx
  rcases List.mem_append.mp hq with hq | hq
  · rcases hmove.pods hq with ⟨p, hp, hsteady⟩ | hcreating | ⟨hplain, -⟩ |
      ⟨p, hp, node, hm, -, hunbound, rfl, hfits⟩
    · rw [hsteady.annotations] at hexclusive
      rw [hsteady.labels] at hpriority hkey
      exact Or.inl ⟨p, mem_present_pods hp, hexclusive, hpriority, hkey, hsteady.claims hclaims⟩
    · exact Or.inl ⟨q, mem_present_creating hcreating, hexclusive, hpriority, hkey, hclaims⟩
    · rw [hplain] at hexclusive
      cases hexclusive
    · by_cases hleader : isLeaderPod p = true
      · rcases hclaims with ⟨-, hdomain⟩ | ⟨hfollower, -⟩
        · exact Or.inr ⟨p, node, hm, hleader, hfits, hg.armed p hp, hexclusive, hpriority, hkey,
            hdomain⟩
        · change isLeaderPod p = false at hfollower
          rw [hleader] at hfollower
          cases hfollower
      · rw [Bool.not_eq_true] at hleader
        exact Or.inl ⟨p, mem_present_pods hp, hexclusive, hpriority, hkey,
          hs.follower_bound hp hleader hunbound hfits hexclusive hclaims⟩
  · obtain ⟨c, hc, rfl⟩ := List.mem_map.mp hq
    rcases hmove.creations hc with hc | ⟨hc, -⟩ |
      ⟨v, j, index, suffix, t, hm, hj, hsuffix, -, hdefault⟩
    · exact Or.inl ⟨c.pod, mem_present_creating hc, hexclusive, hpriority, hkey, hclaims⟩
    · exact Or.inl ⟨c.pod, mem_present_creating (c := ⟨c.pod, .defaulted⟩) hc, hexclusive,
        hpriority, hkey, hclaims⟩
    · rw [hm] at horderly
      have hv : v = s.view nodes := horderly
      subst hv
      obtain ⟨hmade, -⟩ := defaultPod_newPod_result hsuffix hdefault
      have htopologyKey : j.topologyKey = topologyKey := by
        have h := hmade.exclusive
        rw [hexclusive] at h
        exact (Option.some.inj h).symm
      have hown : j.key = x.1 := by
        have h := hmade.key_label
        rw [hkey] at h
        exact (Option.some.inj h).symm
      subst htopologyKey
      have hheld := hs.start_held hset hj hsuffix hdefault hclaims hpriority
      rw [hown] at hheld
      exact Or.inl hheld

/-- No other Job holds the domain into which a leader is bound. -/
theorem Settles.vacant {priority : String} {x : String × String}
    (h : Settles nodes namespaceLabels topologyKey priority s m p node x) (hg : Guarded nodes s)
    (horderly : Orderly nodes s m) :
    ∀ key', (key', x.2) ∈ s.held nodes topologyKey priority → key' = x.1 := by
  rintro key' ⟨q, hq, hexclusive, hpriority, hkey, hclaims⟩
  by_contra hne
  have hcompete : Compete p q :=
    ⟨⟨x.1, key', h.key_label, hkey, fun heq => hne heq.symm⟩, priority, h.priority_label,
      hpriority⟩
  rcases hclaims with ⟨hoccupies, hdomain⟩ | ⟨hfollower, hunbound, hselected⟩
  · rcases List.mem_append.mp hq with hq | hq
    · exact h.fits.leader_apart h.armed h.leader h.exclusive hq hoccupies hcompete h.domain hdomain
    · obtain ⟨c, hc, rfl⟩ := List.mem_map.mp hq
      rw [occupies_unbound (hg.creating c hc).2] at hoccupies
      cases hoccupies
  · rw [h.move] at horderly
    exact horderly h.leader q hq hfollower hunbound hcompete topologyKey x.2 h.exclusive
      hexclusive hselected h.domain

/-- A move changes the holdings as a step of tenants does. -/
theorem Takes.tenancy (hmove : Takes jobs nodes namespaceLabels s m s') (hset : Settings jobs)
    (hs : Sourced jobs s) (hg : Guarded nodes s) (horderly : Orderly nodes s m)
    (topologyKey priority : String) :
    Tenancy.Step (s.held nodes topologyKey priority) (s'.held nodes topologyKey priority) := by
  by_cases hsettles : ∃ p node x, Settles nodes namespaceLabels topologyKey priority s m p node x
  · obtain ⟨p, node, x, hsettles⟩ := hsettles
    apply Tenancy.Step.take x.1 x.2 (hsettles.vacant hg horderly)
    intro y hy
    rcases hmove.held hset hs hg horderly hy with hold | ⟨p', node', hsettles'⟩
    · exact Or.inr hold
    · -- one move binds one pod
      have hm := hsettles.move.symm.trans hsettles'.move
      cases hm
      have hkey := hsettles.key_label.symm.trans hsettles'.key_label
      have hdomain := hsettles.domain.symm.trans hsettles'.domain
      exact Or.inl (Prod.ext (Option.some.inj hkey).symm (Option.some.inj hdomain).symm)
  · apply Tenancy.Step.release
    intro y hy
    rcases hmove.held hset hs hg horderly hy with hold | ⟨p', node', hsettles'⟩
    · exact hold
    · exact absurd ⟨p', node', y, hsettles'⟩ hsettles

/-- Over a run the Jobs are tenants of the domains. -/
theorem Reached.tenancy (h : Reached jobs nodes namespaceLabels (Orderly nodes) s)
    (hset : Settings jobs) (topologyKey priority : String) :
    Tenancy.Run ∅ (s.held nodes topologyKey priority) := by
  induction h with
  | start =>
    have hempty : State.start.held nodes topologyKey priority = ∅ := by
      rw [Set.eq_empty_iff_forall_notMem]
      rintro x ⟨p, hp, -⟩
      cases hp
    rw [hempty]
    exact Relation.ReflTransGen.refl
  | move h hguard hmove ih =>
    exact ih.tail (hmove.tenancy hset h.sourced h.guarded hguard topologyKey priority)

/-- Bound pods of two Jobs with one priority and one topology key. -/
structure Rivals (p q : Pod) (topologyKey : String) : Prop where
  occupy : occupies p = true ∧ occupies q = true
  compete : Compete p q
  exclusive : p.annotations.lookup exclusiveKey = some topologyKey

end Tenants

/-! ## Two Jobs in two zones -/

/-- Whether the terms of one pod keep another one, bound already, out of the node's domains. -/
def termsAllow (nodes : String → Option StrMap) (namespaceLabels : StrMap)
    (terms : List PodAffinityTerm) (target other here : Pod) : Bool :=
  terms.all fun term => !(term.selects namespaceLabels target) ||
    decide (topologyAt nodes term.topologyKey here = none) ||
    decide (topologyAt nodes term.topologyKey other ≠ topologyAt nodes term.topologyKey here)

/-- `Fits`, computed. -/
def fits (nodes : String → Option StrMap) (namespaceLabels : StrMap) (pods : List Pod) (p : Pod)
    (node : String) : Bool :=
  decide (node ≠ "") &&
  decide (∀ entry ∈ (p.nodeSelector.getD ∅).entries,
    topologyAt nodes entry.1 (p.bind node) = some entry.2) &&
  pods.all fun q => !(occupies q) ||
    (termsAllow nodes namespaceLabels p.podAntiAffinity q q (p.bind node) &&
      termsAllow nodes namespaceLabels q.podAntiAffinity p q (p.bind node))

section Example

variable {jobs : JobTemplate → Prop} {nodes : String → Option StrMap} {namespaceLabels : StrMap}
  {s s' : State}

theorem termsAllow_apart {terms : List PodAffinityTerm} {target other here : Pod}
    (h : termsAllow nodes namespaceLabels terms target other here = true)
    {term : PodAffinityTerm} (hterm : term ∈ terms)
    (hselects : term.selects namespaceLabels target = true) {value : String}
    (hvalue : topologyAt nodes term.topologyKey here = some value) :
    topologyAt nodes term.topologyKey other ≠ some value := by
  have hone := List.all_eq_true.mp h term hterm
  simpa [hselects, hvalue] using hone

theorem fits_sound {pods : List Pod} {p : Pod} {node : String}
    (h : fits nodes namespaceLabels pods p node = true) :
    Fits nodes namespaceLabels pods p node := by
  unfold fits at h
  simp only [Bool.and_eq_true, decide_eq_true_eq] at h
  obtain ⟨⟨hnamed, hselector⟩, hpods⟩ := h
  have hallow : ∀ q ∈ pods, occupies q = true →
      termsAllow nodes namespaceLabels p.podAntiAffinity q q (p.bind node) = true ∧
      termsAllow nodes namespaceLabels q.podAntiAffinity p q (p.bind node) = true := by
    intro q hq hoccupies
    have hone := List.all_eq_true.mp hpods q hq
    simpa [hoccupies] using hone
  constructor
  · exact hnamed
  · intro key value hvalue
    unfold Pod.selected at hvalue
    obtain ⟨selector, hsome, hlookup⟩ := Option.bind_eq_some_iff.mp hvalue
    rw [hsome] at hselector
    exact hselector ⟨key, value⟩ (Finmap.mem_lookup_iff.mp hlookup)
  · intro term hterm q hq hoccupies hselects value hvalue
    exact termsAllow_apart (hallow q hq hoccupies).1 hterm hselects hvalue
  · intro q hq hoccupies term hterm hselects value hvalue
    exact termsAllow_apart (hallow q hq hoccupies).2 hterm hselects hvalue

/-- A pod goes through the admission chain without a pause and a failure. -/
def State.addPod (nodes : String → Option StrMap) (j : JobTemplate) (index : ℕ) (suffix : String)
    (s : State) : Option State :=
  match s.outcome nodes (defaultPod (j.newPod index suffix)) with
  | .ok pod =>
    if '-' ∉ suffix.toList ∧ s.outcome nodes (validateCreate pod) = .ok () ∧
        pod.name ∉ s.names then some { s with pods := s.pods ++ [pod] }
    else none
  | .error _ => none

/-- The pod of the name is bound, while no other one waits for a node. -/
def State.place (nodes : String → Option StrMap) (namespaceLabels : StrMap) (name node : String)
    (s : State) : Option State :=
  (s.pods.find? fun p => p.name = name).bind fun p =>
    if live p = true ∧ p.nodeName = "" ∧ fits nodes namespaceLabels s.pods p node = true ∧
        s.creating.isEmpty ∧ ∀ q ∈ s.pods, q.nodeName = "" → isLeaderPod q = isLeaderPod p then
      some (s.modify p (p.bind node))
    else none

theorem State.addPod_reached (h : Reached jobs nodes namespaceLabels (Orderly nodes) s)
    {j : JobTemplate} (hj : jobs j) {index : ℕ} {suffix : String}
    (hs : s.addPod nodes j index suffix = some s') :
    Reached jobs nodes namespaceLabels (Orderly nodes) s' := by
  unfold State.addPod at hs
  split at hs
  · rename_i pod hpod
    split_ifs at hs with hcond
    cases hs
    obtain ⟨hsuffix, hvalid, hnew⟩ := hcond
    have h₁ := h.move (m := .start (s.view nodes)) rfl
      (.start hj hsuffix (s.path_outcome nodes hpod))
    have h₂ := h₁.move (m := .validate) trivial (.validate rfl (s.path_outcome nodes hvalid))
    have h₃ := h₂.move (m := .persist) trivial (.persist rfl hnew)
    simpa using h₃
  · cases hs

theorem State.place_reached (h : Reached jobs nodes namespaceLabels (Orderly nodes) s)
    {name node : String} (hs : s.place nodes namespaceLabels name node = some s') :
    Reached jobs nodes namespaceLabels (Orderly nodes) s' := by
  obtain ⟨p, hfind, hs⟩ := Option.bind_eq_some_iff.mp hs
  split_ifs at hs with hcond
  cases hs
  obtain ⟨hlive, hunbound, hfits, hcreating, halone⟩ := hcond
  refine h.move ?_ (.schedule (List.mem_of_find?_eq_some hfind) hlive hunbound (fits_sound hfits))
  -- no follower is on its way while a leader is bound
  intro hleader f hf hfollower hwaiting
  rcases List.mem_append.mp hf with hf | hf
  · rw [halone f hf hwaiting, hleader] at hfollower
    cases hfollower
  · rw [List.isEmpty_iff.mp hcreating] at hf
    cases hf

/-- A Job of the JobSet `js` that asks for a zone of its own. -/
def zoneJobAt (jobIndex key : String) (owner : ℕ) : JobTemplate where
  pod := { zonePod "" "" "" .podPending none with
    labels := (((((∅ : StrMap).insert jobSetNameKey "js").insert replicatedJobNameKey "w").insert
      jobIndexKey jobIndex).insert jobKey key)
    controller := some owner
    priority := some 0 }
  jobSet := "js"
  replicatedJob := "w"
  jobIndex := jobIndex
  key := key
  topologyKey := "zone"
  owner := owner
  jobSet_label := by
    simp [jobSetNameKey, replicatedJobNameKey, jobIndexKey, jobKey, Finmap.lookup_insert_of_ne]
  replicatedJob_label := by
    simp [replicatedJobNameKey, jobIndexKey, jobKey, Finmap.lookup_insert_of_ne]
  jobIndex_label := by simp [jobIndexKey, jobKey, Finmap.lookup_insert_of_ne]
  key_label := Finmap.lookup_insert _
  jobSet_annotation := zoneJob.jobSet_annotation
  exclusive := zoneJob.exclusive
  no_strategy := zoneJob.no_strategy
  controlled := rfl
  unscheduled := rfl
  fresh := zoneJob.fresh

/-- Two Jobs with one priority. -/
def zoneJobs (j : JobTemplate) : Prop := j = zoneJobAt "0" "k0" 1 ∨ j = zoneJobAt "1" "k1" 2

theorem zoneJobs_settings : Settings zoneJobs := by
  constructor
  · rintro j j' (rfl | rfl) (rfl | rfl) howner
    · rfl
    · cases howner
    · cases howner
    · rfl
  · rintro j (rfl | rfl) <;> rfl

/-- The leader of the first Job with its follower, and then the leader of the second one. -/
def twoJobsPlaced : Option State :=
  (State.start.addPod twoZones (zoneJobAt "0" "k0" 1) 0 "aaaaa").bind fun s₁ =>
  (s₁.place twoZones ∅ "js-w-0-0-aaaaa" "n1").bind fun s₂ =>
  (s₂.addPod twoZones (zoneJobAt "0" "k0" 1) 1 "bbbbb").bind fun s₃ =>
  (s₃.place twoZones ∅ "js-w-0-1-bbbbb" "n1").bind fun s₄ =>
  (s₄.addPod twoZones (zoneJobAt "1" "k1" 2) 0 "ccccc").bind fun s₅ =>
  s₅.place twoZones ∅ "js-w-1-0-ccccc" "n2"

theorem twoJobsPlaced_reached {s : State} (h : twoJobsPlaced = some s) :
    Reached zoneJobs twoZones ∅ (Orderly twoZones) s := by
  obtain ⟨s₁, h₁, h⟩ := Option.bind_eq_some_iff.mp h
  obtain ⟨s₂, h₂, h⟩ := Option.bind_eq_some_iff.mp h
  obtain ⟨s₃, h₃, h⟩ := Option.bind_eq_some_iff.mp h
  obtain ⟨s₄, h₄, h⟩ := Option.bind_eq_some_iff.mp h
  obtain ⟨s₅, h₅, h⟩ := Option.bind_eq_some_iff.mp h
  have r₁ : Reached zoneJobs twoZones ∅ (Orderly twoZones) s₁ :=
    State.addPod_reached .start (Or.inl rfl) h₁
  have r₃ := State.addPod_reached (State.place_reached r₁ h₂) (Or.inl rfl) h₃
  have r₅ := State.addPod_reached (State.place_reached r₃ h₄) (Or.inr rfl) h₅
  exact State.place_reached r₅ h

/-- What the scheduler reads of a pod. -/
def Pod.summary (p : Pod) : String × Bool × List (Option String) :=
  (p.nodeName, occupies p,
    [p.labels.lookup jobKey, p.labels.lookup priorityKey, p.annotations.lookup exclusiveKey])

end Example

end JobSetOperator.Placement
