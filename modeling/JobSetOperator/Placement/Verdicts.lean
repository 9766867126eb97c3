import JobSetOperator.Placement.Followers

/-!
# The verdicts of a placement check

A check of a scheduled leader deletes all followers of the Job, or none and is
satisfied, or none and asks to be repeated. The topology of the leader is passed on
as a string that is empty for a missing node, so a node whose label is empty is taken
for a missing one, and followers that select the empty value for placed ones.
-/
namespace JobSetOperator.Placement

open Library

/-- The answers of a server whose reads succeed; a write may still fail. -/
def View.Readable (v : View) (r : Request) (x : r.Response) : Prop :=
  v.Answers r x ∧
    match r, x with
    | .getPod _, .failed _ => False
    | .listPodsByName _, .error _ => False
    | .listPodsByJob _, .error _ => False
    | .getNode _, .failed _ => False
    | _, _ => True

/-- The value a follower selects. -/
def selectedTopology (topologyKey : String) (pod : Pod) : Option String :=
  pod.nodeSelector.bind fun selector => selector.lookup topologyKey

/-- The followers of a Job the check looks at. -/
def View.checked (v : View) (key : String) (owner : ℕ) : List Pod :=
  (v.jobPods key owner).filter fun p => isLeaderPod p = false

/-- Each of the pods was asked to be deleted, unless its status could not be written, and no
other pod was. -/
def DeletesAll (t : Trace) (pods : List Pod) : Prop :=
  (∀ f ∈ pods, f.name ∈ attempted t ∨ ∃ (conditions : List PodCondition) (err : String),
    ⟨.updatePodStatus { f with conditions := conditions }, Except.error err⟩ ∈ t) ∧
  ∀ name ∈ attempted t, ∃ f ∈ pods, f.name = name

/-- What every check of the leader does. -/
structure View.Decides (v : View) (leader : Pod) (key : String) (owner : ℕ) (t : Trace)
    (res : Except String Unit) : Prop where
  misplaced : ∀ value, v.nodeTopology (leader.annotations.get exclusiveKey) leader = some value →
    (∃ f ∈ v.checked key owner,
      selectedTopology (leader.annotations.get exclusiveKey) f ≠ some value) →
    DeletesAll t (v.checked key owner)
  placed : ∀ value, v.nodeTopology (leader.annotations.get exclusiveKey) leader = some value →
    (∀ f ∈ v.checked key owner,
      selectedTopology (leader.annotations.get exclusiveKey) f = some value) →
    attempted t = [] ∧ res = .ok ()
  unknown : v.nodeTopology (leader.annotations.get exclusiveKey) leader = none →
    v.checked key owner ≠ [] → attempted t = [] ∧ ∃ e, res = .error e

/-- No way through the check confuses an empty value with an unknown topology: followers of a
leader on a node with the empty value select it, and those of a leader without a node do not
all select it. -/
def View.EmptyUnconfused (v : View) (leader : Pod) (key : String) (owner : ℕ) : Prop :=
  (v.nodeTopology (leader.annotations.get exclusiveKey) leader = some "" →
    ∀ f ∈ v.checked key owner,
      selectedTopology (leader.annotations.get exclusiveKey) f = some "") ∧
  (v.nodes leader.nodeName = none → v.checked key owner ≠ [] →
    ∃ f ∈ v.checked key owner,
      selectedTopology (leader.annotations.get exclusiveKey) f ≠ some "")

/-! ## The parts of a check -/

theorem followerPodTopology_eq_ok_iff {topologyKey value : String} {pod : Pod} :
    followerPodTopology pod topologyKey = .ok value ↔
      selectedTopology topologyKey pod = some value := by
  unfold followerPodTopology selectedTopology
  cases pod.nodeSelector with
  | none => simp
  | some selector => cases hlookup : selector.lookup topologyKey <;> simp [hlookup]

theorem View.allSelect_checked (v : View) (topologyKey topology key : String) (owner : ℕ) :
    AllSelect topologyKey topology (v.jobPods key owner) ↔
      ∀ f ∈ v.checked key owner, selectedTopology topologyKey f = some topology := by
  simp only [AllSelect, View.checked, List.mem_filter, decide_eq_true_eq,
    followerPodTopology_eq_ok_iff, and_imp]

section Deletions

variable {A : (r : Request) → r.Response → Prop}

/-- One follower is asked to be deleted, unless its status could not be written. -/
theorem deleteFollowerPod_deletes {pod : Pod} {t : Trace} {res : Except String (List String)}
    (h : Program.Path A (deleteFollowerPod pod) t res) :
    (∃ errs, res = .ok errs) ∧ DeletesAll t [pod] := by
  have hdelete : ∀ {t : Trace}, Program.Path A (deletePod pod) t res →
      (∃ errs, res = .ok errs) ∧ attempted t = [pod.name] := by
    intro t ht
    obtain ⟨x, t', -, rfl, hk⟩ := Program.path_ask_bind.mp ht
    cases x with
    | failed err =>
      obtain ⟨rfl, rfl⟩ := hk
      exact ⟨⟨_, rfl⟩, rfl⟩
    | notFound =>
      obtain ⟨rfl, rfl⟩ := hk
      exact ⟨⟨_, rfl⟩, rfl⟩
    | found u =>
      obtain ⟨rfl, rfl⟩ := hk
      exact ⟨⟨_, rfl⟩, rfl⟩
  obtain ⟨now, t₁, -, rfl, hk⟩ := Program.path_ask_bind.mp h
  cases hc : updatePodCondition (violationCondition now) pod.conditions with
  | none =>
    rw [hc] at hk
    obtain ⟨hres, hattempted⟩ := hdelete hk
    have hall : attempted (⟨.now, now⟩ :: t₁) = [pod.name] := hattempted
    refine ⟨hres, ?_, ?_⟩
    · simp [hall]
    · simp [hall]
  | some conditions =>
    rw [hc] at hk
    obtain ⟨outcome, t₂, -, rfl, hk'⟩ := Program.path_ask_bind.mp hk
    cases outcome with
    | error err =>
      obtain ⟨rfl, rfl⟩ := hk'
      refine ⟨⟨_, rfl⟩, ?_, ?_⟩
      · rw [List.forall_mem_singleton]
        exact Or.inr ⟨conditions, err, by simp⟩
      · intro name hname
        cases hname
    | ok u =>
      obtain ⟨hres, hattempted⟩ := hdelete hk'
      have hall : attempted (⟨.now, now⟩ ::
          ⟨.updatePodStatus { pod with conditions := conditions }, Except.ok u⟩ :: t₂) =
          [pod.name] := hattempted
      refine ⟨hres, ?_, ?_⟩
      · simp [hall]
      · simp [hall]

theorem DeletesAll.append {t t' : Trace} {pods pods' : List Pod} (h : DeletesAll t pods)
    (h' : DeletesAll t' pods') : DeletesAll (t ++ t') (pods ++ pods') := by
  constructor
  · intro f hf
    rw [attempted_append, List.mem_append]
    rcases List.mem_append.mp hf with hf | hf
    · rcases h.1 f hf with hdeleted | ⟨conditions, err, hmem⟩
      · exact Or.inl (Or.inl hdeleted)
      · exact Or.inr ⟨conditions, err, List.mem_append_left _ hmem⟩
    · rcases h'.1 f hf with hdeleted | ⟨conditions, err, hmem⟩
      · exact Or.inl (Or.inr hdeleted)
      · exact Or.inr ⟨conditions, err, List.mem_append_right _ hmem⟩
  · intro name hname
    rw [attempted_append, List.mem_append] at hname
    rcases hname with hname | hname
    · obtain ⟨f, hf, heq⟩ := h.2 name hname
      exact ⟨f, List.mem_append_left _ hf, heq⟩
    · obtain ⟨f, hf, heq⟩ := h'.2 name hname
      exact ⟨f, List.mem_append_right _ hf, heq⟩

theorem deletesAll_nil : DeletesAll [] [] := ⟨by simp, by simp⟩

/-- Calls that delete nothing may come before. -/
theorem DeletesAll.after {t t' : Trace} {pods : List Pod} (h : DeletesAll t' pods)
    (hnone : attempted t = []) : DeletesAll (t ++ t') pods := by
  have hempty : DeletesAll t [] := ⟨by simp, by simp [hnone]⟩
  simpa using hempty.append h

/-- The loop deletes the followers of the list. -/
theorem deleteFollowerPodsLoop_deletes {items : List Pod} {t : Trace}
    {res : Except String (List String)}
    (h : Program.Path A (deleteFollowerPodsLoop items) t res) :
    (∃ errs, res = .ok errs) ∧ DeletesAll t (items.filter fun p => isLeaderPod p = false) := by
  induction items generalizing t res with
  | nil =>
    obtain ⟨rfl, rfl⟩ := h
    exact ⟨⟨_, rfl⟩, deletesAll_nil⟩
  | cons pod rest ih =>
    rw [deleteFollowerPodsLoop] at h
    by_cases hl : isLeaderPod pod = true
    · rw [if_pos hl] at h
      rw [List.filter_cons_of_neg (by simp [hl])]
      exact ih h
    · rw [if_neg hl] at h
      rw [List.filter_cons_of_pos (by simpa using hl)]
      rcases Program.path_bind.mp h with ⟨e, rfl, he⟩ | ⟨t₁, t₂, errs, rfl, h₁, h₂⟩
      · obtain ⟨⟨errs, herrs⟩, -⟩ := deleteFollowerPod_deletes he
        cases herrs
      · obtain ⟨-, hfirst⟩ := deleteFollowerPod_deletes h₁
        rcases Program.path_bind.mp h₂ with ⟨e, rfl, he⟩ | ⟨t₃, t₄, others, rfl, h₃, rfl, rfl⟩
        · obtain ⟨⟨errs, herrs⟩, -⟩ := ih he
          cases herrs
        · rw [List.append_nil]
          exact ⟨⟨_, rfl⟩, hfirst.append (ih h₃).2⟩

theorem deleteFollowerPods_deletes {items : List Pod} {t : Trace} {res : Except String Unit}
    (h : Program.Path A (deleteFollowerPods items) t res) :
    DeletesAll t (items.filter fun p => isLeaderPod p = false) := by
  rcases Program.path_bind.mp h with ⟨e, rfl, he⟩ | ⟨t₁, t₂, errs, rfl, h₁, h₂⟩
  · exact (deleteFollowerPodsLoop_deletes he).2
  · have hnil : t₂ = [] := by
      split_ifs at h₂
      · exact h₂.1
      · exact h₂.1
    rw [hnil, List.append_nil]
    exact (deleteFollowerPodsLoop_deletes h₁).2

end Deletions

/-! ## A whole check -/

/-- The calls that change a pod. -/
def Request.changesPod : Request → Bool
  | .updatePodStatus _ => true
  | .deletePod _ => true
  | _ => false

/-- No call changes a pod. -/
def Quiet (t : Trace) : Prop := ∀ c ∈ t, c.1.changesPod = false

theorem Quiet.attempted {t : Trace} (h : Quiet t) : attempted t = [] := by
  unfold Placement.attempted
  rw [List.filterMap_eq_nil_iff]
  rintro ⟨r, x⟩ hmem
  have hquiet := h _ hmem
  cases r with
  | deletePod name => cases hquiet
  | now => rfl
  | getPod name => rfl
  | listPodsByName podName => rfl
  | listPodsByJob key => rfl
  | getNode name => rfl
  | updatePodStatus pod => rfl

theorem Quiet.not_deletesAll {t : Trace} (h : Quiet t) {pods : List Pod} (hne : pods ≠ []) :
    ¬ DeletesAll t pods := by
  intro hall
  obtain ⟨f, hf⟩ := List.exists_mem_of_ne_nil pods hne
  rcases hall.1 f hf with hdeleted | ⟨conditions, err, hmem⟩
  · rw [h.attempted] at hdeleted
    cases hdeleted
  · cases h _ hmem

/-- What the check reads of the leader's node. -/
def View.readTopology (v : View) (leader : Pod) : Except String String :=
  match v.nodes leader.nodeName with
  | none => .ok ""
  | some nodeLabels =>
    match nodeLabels.lookup (leader.annotations.get exclusiveKey) with
    | some topology => .ok topology
    | none =>
      .error ("node does not have topology label: " ++ leader.annotations.get exclusiveKey)

theorem leaderPodTopology_readable {v : View} {leader : Pod} {t : Trace}
    {res : Except String String}
    (h : Program.Path v.Readable
      (leaderPodTopology leader (leader.annotations.get exclusiveKey)) t res) :
    Quiet t ∧ res = v.readTopology leader := by
  obtain ⟨x, t', ⟨hx, hread⟩, rfl, hk⟩ := Program.path_ask_bind.mp h
  unfold View.readTopology
  have hquiet : ∀ answer : Lookup StrMap, Quiet [⟨.getNode leader.nodeName, answer⟩] := by
    intro answer c hc
    rw [List.mem_singleton.mp hc]
    rfl
  cases x with
  | failed err => exact absurd hread id
  | notFound =>
    obtain ⟨rfl, rfl⟩ := hk
    change v.nodes leader.nodeName = none at hx
    rw [hx]
    exact ⟨hquiet _, rfl⟩
  | found nodeLabels =>
    change v.nodes leader.nodeName = some nodeLabels at hx
    rw [hx]
    dsimp only at hk ⊢
    cases hl : nodeLabels.lookup (leader.annotations.get exclusiveKey) with
    | none =>
      simp only [hl] at hk
      obtain ⟨rfl, rfl⟩ := hk
      exact ⟨hquiet _, rfl⟩
    | some value =>
      simp only [hl] at hk
      obtain ⟨rfl, rfl⟩ := hk
      exact ⟨hquiet _, rfl⟩

theorem listPodsForJob_readable {v : View} {key : String} {owner : ℕ} {t : Trace}
    {res : Except String (List Pod)}
    (h : Program.Path v.Readable (listPodsForJob key owner) t res) :
    Quiet t ∧ res = .ok (v.jobPods key owner) := by
  obtain ⟨x, t', ⟨hx, hread⟩, rfl, hk⟩ := Program.path_ask_bind.mp h
  cases x with
  | error err => exact absurd hread id
  | ok items =>
    obtain ⟨rfl, rfl⟩ := hk
    change items = _ at hx
    subst hx
    refine ⟨?_, rfl⟩
    intro c hc
    rw [List.mem_singleton.mp hc]
    rfl

theorem validatePodPlacements_readable {v : View} {leader : Pod} {items : List Pod} {t : Trace}
    {res : Except String Bool}
    (h : Program.Path v.Readable (validatePodPlacements leader items) t res) :
    Quiet t ∧ res = (v.readTopology leader).bind fun topology =>
      placementsValid (leader.annotations.get exclusiveKey) topology items := by
  rcases Program.path_bind.mp h with ⟨e, rfl, he⟩ | ⟨t₁, t₂, topology, rfl, h₁, h₂⟩
  · obtain ⟨hquiet, hread⟩ := leaderPodTopology_readable he
    rw [← hread]
    exact ⟨hquiet, rfl⟩
  · obtain ⟨hquiet, hread⟩ := leaderPodTopology_readable h₁
    obtain ⟨rfl, rfl⟩ := path_liftExcept.mp h₂
    rw [← hread, List.append_nil]
    exact ⟨hquiet, rfl⟩

/-- After the reads the check is over, or it deletes the followers. -/
inductive View.Verdict (v : View) (leader : Pod) (items : List Pod) :
    Trace → Except String Unit → Prop
  | unlabelled {e : String} (h : v.readTopology leader = .error e) :
      v.Verdict leader items [] (.error e)
  | satisfied {topology : String} (h : v.readTopology leader = .ok topology)
      (hall : AllSelect (leader.annotations.get exclusiveKey) topology items) :
      v.Verdict leader items [] (.ok ())
  | unknown {e : String} (h : v.readTopology leader = .ok "")
      (hall : ¬ AllSelect (leader.annotations.get exclusiveKey) "" items) :
      v.Verdict leader items [] (.error e)
  | deletes {topology : String} {t : Trace} {res : Except String Unit}
      (h : v.readTopology leader = .ok topology) (hne : topology ≠ "")
      (hall : ¬ AllSelect (leader.annotations.get exclusiveKey) topology items)
      (hdelete : DeletesAll t (items.filter fun p => isLeaderPod p = false)) :
      v.Verdict leader items t res

/-- The check of the placements and what follows it. -/
theorem verdict_of_path {v : View} {leader : Pod} {items : List Pod} {t : Trace}
    {res : Except String Unit}
    (h : Program.Path v.Readable (do
      let valid ← validatePodPlacements leader items
      if valid then pure () else deleteFollowerPods items) t res) :
    ∃ t₁ t₂, t = t₁ ++ t₂ ∧ Quiet t₁ ∧ v.Verdict leader items t₂ res := by
  rcases Program.path_bind.mp h with ⟨e, rfl, he⟩ | ⟨t₁, t₂, valid, rfl, h₁, h₂⟩
  · obtain ⟨hquiet, hres⟩ := validatePodPlacements_readable he
    refine ⟨t, [], (List.append_nil t).symm, hquiet, ?_⟩
    cases hread : v.readTopology leader with
    | error e' =>
      rw [hread] at hres
      cases hres
      exact .unlabelled hread
    | ok topology =>
      rw [hread] at hres
      change Except.error e = placementsValid _ topology items at hres
      rcases placementsValid_cases (leader.annotations.get exclusiveKey) topology items with
        ⟨-, hvalid⟩ | ⟨hall, rfl, -⟩ | ⟨-, -, hvalid⟩
      · rw [hvalid] at hres
        cases hres
      · exact .unknown hread hall
      · rw [hvalid] at hres
        cases hres
  · obtain ⟨hquiet, hres⟩ := validatePodPlacements_readable h₁
    refine ⟨t₁, t₂, rfl, hquiet, ?_⟩
    cases hread : v.readTopology leader with
    | error e' =>
      rw [hread] at hres
      cases hres
    | ok topology =>
      rw [hread] at hres
      change Except.ok valid = placementsValid _ topology items at hres
      rcases placementsValid_cases (leader.annotations.get exclusiveKey) topology items with
        ⟨hall, hvalid⟩ | ⟨-, -, e, hvalid⟩ | ⟨hall, hne, hvalid⟩
      · rw [hvalid] at hres
        cases hres
        obtain ⟨rfl, rfl⟩ := h₂
        exact .satisfied hread hall
      · rw [hvalid] at hres
        cases hres
      · rw [hvalid] at hres
        cases hres
        exact .deletes hread hne hall (deleteFollowerPods_deletes h₂)

/-- A way through a check reads, comes to a verdict and acts on it. -/
theorem reconcilePod_verdict {v : View} (hn : (v.pods.map (·.name)).Nodup) {p : Pod}
    (hp : p ∈ v.pods) {key : String} {owner : ℕ} (hkey : p.labels.lookup jobKey = some key)
    (howner : p.controller = some owner) {t : Trace} {res : Except String Unit}
    (h : Program.Path v.Readable (reconcilePod p.name) t res) :
    ∃ t₁ t₂, t = t₁ ++ t₂ ∧ Quiet t₁ ∧ v.Verdict p (v.jobPods key owner) t₂ res := by
  obtain ⟨x, t', ⟨hx, hread⟩, rfl, hk⟩ := Program.path_ask_bind.mp h
  cases x with
  | failed err => exact absurd hread id
  | notFound =>
    change v.pods.find? _ = none at hx
    rw [find?_of_nodup hn hp] at hx
    cases hx
  | found leader =>
    change v.pods.find? _ = some leader at hx
    rw [find?_of_nodup hn hp] at hx
    cases hx
    simp only [reconcileLeader, hkey, howner] at hk
    rcases Program.path_bind.mp hk with ⟨e, rfl, he⟩ | ⟨t₁, t₂, items, rfl, h₁, h₂⟩
    · cases (listPodsForJob_readable he).2
    obtain ⟨hquiet₁, hitems⟩ := listPodsForJob_readable h₁
    cases hitems
    obtain ⟨t₃, t₄, rfl, hquiet₃, hverdict⟩ := verdict_of_path h₂
    refine ⟨⟨.getPod p.name, Lookup.found p⟩ :: (t₁ ++ t₃), t₄, by simp, ?_, hverdict⟩
    intro c hc
    rcases List.mem_cons.mp hc with rfl | hc
    · rfl
    · rcases List.mem_append.mp hc with hc | hc
      · exact hquiet₁ c hc
      · exact hquiet₃ c hc

/-! ## The verdicts against the placements -/

theorem View.readable_answer (v : View) (r : Request) : v.Readable r (v.answer r) := by
  refine ⟨v.answers_answer r, ?_⟩
  cases r with
  | now => trivial
  | getPod name =>
    cases hfind : v.pods.find? fun p => p.name = name <;> simp [View.answer, hfind]
  | listPodsByName podName => trivial
  | listPodsByJob key => trivial
  | getNode name =>
    cases hnode : v.nodes name <;> simp [View.answer, hnode]
  | updatePodStatus pod => trivial
  | deletePod name => trivial

/-- What the check reads is the label, unless the node is missing. -/
theorem View.readTopology_of_label {v : View} {leader : Pod} {value : String}
    (h : v.nodeTopology (leader.annotations.get exclusiveKey) leader = some value) :
    v.readTopology leader = .ok value := by
  unfold View.nodeTopology at h
  obtain ⟨nodeLabels, hnode, hlabel⟩ := Option.bind_eq_some_iff.mp h
  unfold View.readTopology
  rw [hnode]
  dsimp only
  rw [hlabel]

theorem View.readTopology_of_none {v : View} {leader : Pod}
    (h : v.nodeTopology (leader.annotations.get exclusiveKey) leader = none) :
    (v.nodes leader.nodeName = none ∧ v.readTopology leader = .ok "") ∨
      ∃ e, v.readTopology leader = .error e := by
  unfold View.readTopology
  cases hnode : v.nodes leader.nodeName with
  | none => exact Or.inl ⟨rfl, rfl⟩
  | some nodeLabels =>
    have hlabel : nodeLabels.lookup (leader.annotations.get exclusiveKey) = none := by
      simpa [View.nodeTopology, hnode] using h
    dsimp only
    rw [hlabel]
    exact Or.inr ⟨_, rfl⟩

section Leader

variable {v : View} (hn : (v.pods.map (·.name)).Nodup) {leader : Pod} (hleader : leader ∈ v.pods)
  {key : String} {owner : ℕ} (hkey : leader.labels.lookup jobKey = some key)
  (howner : leader.controller = some owner)

include hn hleader hkey howner

/-- A check that decides as it should does not meet the empty value. -/
theorem View.emptyUnconfused_of_decides
    (h : ∀ t res, Program.Path v.Readable (reconcilePod leader.name) t res →
      v.Decides leader key owner t res) : v.EmptyUnconfused leader key owner := by
  obtain ⟨t, res, hrun⟩ : ∃ t res, Program.Path v.Readable (reconcilePod leader.name) t res :=
    ⟨_, _, Program.path_run v.readable_answer (reconcilePod leader.name)⟩
  have hdecides := h t res hrun
  obtain ⟨t₁, t₂, ht, hquiet, hverdict⟩ := reconcilePod_verdict hn hleader hkey howner hrun
  have hall := v.allSelect_checked (leader.annotations.get exclusiveKey) "" key owner
  constructor
  · intro hempty
    by_contra hselect
    have hread := v.readTopology_of_label hempty
    have hnone : t₂ = [] := by
      cases hverdict with
      | unlabelled h => rfl
      | satisfied h hall => rfl
      | unknown h hall => rfl
      | deletes h hne hall hdelete =>
        rw [hread] at h
        cases h
        exact absurd rfl hne
    rw [hnone, List.append_nil] at ht
    have hmisplaced : ∃ f ∈ v.checked key owner,
        selectedTopology (leader.annotations.get exclusiveKey) f ≠ some "" := by
      push Not at hselect
      exact hselect
    have hchecked : v.checked key owner ≠ [] := by
      obtain ⟨f, hf, -⟩ := hmisplaced
      exact List.ne_nil_of_mem hf
    rw [← ht] at hquiet
    exact hquiet.not_deletesAll hchecked (hdecides.misplaced "" hempty hmisplaced)
  · intro hnode hchecked
    by_contra hselect
    push Not at hselect
    have htopology : v.nodeTopology (leader.annotations.get exclusiveKey) leader = none := by
      simp [View.nodeTopology, hnode]
    obtain ⟨-, e, herror⟩ := hdecides.unknown htopology hchecked
    have hread : v.readTopology leader = .ok "" := by
      unfold View.readTopology
      rw [hnode]
    rw [herror] at hverdict
    cases hverdict with
    | unlabelled h =>
      rw [hread] at h
      cases h
    | unknown h hnot => exact hnot (hall.mpr hselect)
    | deletes h hne hnot hdelete =>
      rw [hread] at h
      cases h
      exact hne rfl

/-- Every check decides as it should exactly if it does not meet the empty value. -/
theorem placement_decided_iff :
    (∀ t res, Program.Path v.Readable (reconcilePod leader.name) t res →
      v.Decides leader key owner t res) ↔ v.EmptyUnconfused leader key owner := by
  constructor
  · exact View.emptyUnconfused_of_decides hn hleader hkey howner
  · intro hempty t res hpath
    obtain ⟨t₁, t₂, rfl, hquiet, hverdict⟩ := reconcilePod_verdict hn hleader hkey howner hpath
    have hall := fun topology =>
      v.allSelect_checked (leader.annotations.get exclusiveKey) topology key owner
    constructor
    · intro value hvalue hmisplaced
      have hread := v.readTopology_of_label hvalue
      have hnot : ¬ AllSelect (leader.annotations.get exclusiveKey) value (v.jobPods key owner) := by
        rw [hall]
        push Not
        exact hmisplaced
      cases hverdict with
      | unlabelled h =>
        rw [hread] at h
        cases h
      | satisfied h hselect =>
        rw [hread] at h
        cases h
        exact absurd hselect hnot
      | unknown h hselect =>
        rw [hread] at h
        cases h
        exact absurd ((hall "").mpr (hempty.1 hvalue)) hselect
      | deletes h hne hselect hdelete => exact hdelete.after hquiet.attempted
    · intro value hvalue hplaced
      have hread := v.readTopology_of_label hvalue
      have hselects := (hall value).mpr hplaced
      cases hverdict with
      | unlabelled h =>
        rw [hread] at h
        cases h
      | satisfied h hselect => exact ⟨by simpa using hquiet.attempted, rfl⟩
      | unknown h hselect =>
        rw [hread] at h
        cases h
        exact absurd hselects hselect
      | deletes h hne hselect hdelete =>
        rw [hread] at h
        cases h
        exact absurd hselects hselect
    · intro hnone hchecked
      rcases v.readTopology_of_none hnone with ⟨hnode, hread⟩ | ⟨e, hread⟩
      · have hnot : ¬ AllSelect (leader.annotations.get exclusiveKey) "" (v.jobPods key owner) := by
          rw [hall]
          push Not
          exact hempty.2 hnode hchecked
        cases hverdict with
        | unlabelled h => exact ⟨by simpa using hquiet.attempted, _, rfl⟩
        | satisfied h hselect =>
          rw [hread] at h
          cases h
          exact absurd hselect hnot
        | unknown h hselect => exact ⟨by simpa using hquiet.attempted, _, rfl⟩
        | deletes h hne hselect hdelete =>
          rw [hread] at h
          cases h
          exact absurd rfl hne
      · cases hverdict with
        | unlabelled h => exact ⟨by simpa using hquiet.attempted, _, rfl⟩
        | satisfied h hselect =>
          rw [hread] at h
          cases h
        | unknown h hselect =>
          rw [hread] at h
          cases h
        | deletes h hne hselect hdelete =>
          rw [hread] at h
          cases h

end Leader

/-! ## Two views -/

/-- The follower of an earlier Job of the same name, in another zone. -/
def earlierFollower : Pod :=
  { zonePod "js-w-0-1-ddddd" "1" "n1" .podRunning (some "a") with controller := some 2 }

/-- The pod of the earlier Job is left alone. -/
theorem placement_decided_owner :
    (zoneView [earlierFollower]).checked "k" 1 = [currentFollower] ∧
    ∀ t res, Program.Path (zoneView [earlierFollower]).Readable
      (reconcilePod currentLeader.name) t res →
      (zoneView [earlierFollower]).Decides currentLeader "k" 1 t res := by
  refine ⟨by decide +kernel, ?_⟩
  have hn : ((zoneView [earlierFollower]).pods.map (·.name)).Nodup := by decide +kernel
  have hlabel : (zoneView [earlierFollower]).nodeTopology
      (currentLeader.annotations.get exclusiveKey) currentLeader ≠ some "" := by decide +kernel
  have hnode : (zoneView [earlierFollower]).nodes currentLeader.nodeName ≠ none := by
    decide +kernel
  apply (placement_decided_iff hn (by decide +kernel) (by decide +kernel) (by decide +kernel)).mpr
  exact ⟨fun h => absurd h hlabel, fun h => absurd h hnode⟩

/-- The leader's node has the label, with the empty value. -/
def emptyZone : View := ⟨[currentLeader, currentFollower], fun _ => some ((∅ : StrMap).insert "zone" "")⟩

/-- The follower selects another value, and the check neither deletes it nor is satisfied. -/
theorem placement_undecided :
    (Program.run emptyZone.answer (reconcilePod currentLeader.name)).2 =
      .error "leader topology is unknown (node not found)" ∧
    ¬ ∀ t res, Program.Path emptyZone.Readable (reconcilePod currentLeader.name) t res →
      emptyZone.Decides currentLeader "k" 1 t res := by
  refine ⟨by decide +kernel, fun h => ?_⟩
  have hn : (emptyZone.pods.map (·.name)).Nodup := by decide +kernel
  obtain ⟨hempty, -⟩ := View.emptyUnconfused_of_decides hn (by decide +kernel) (by decide +kernel)
    (by decide +kernel) h
  have hselect := hempty (by decide +kernel) currentFollower (by decide +kernel)
  revert hselect
  decide +kernel

end JobSetOperator.Placement
