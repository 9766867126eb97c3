import JobSetOperator.Library.Keyed
import JobSetOperator.Placement.Webhook

/-!
# Repair of misplaced followers

The pod controller. A reconcile is triggered by an event of a scheduled leader pod;
when some follower does not select the leader's topology, every follower of the
Job is deleted. Pods the source deletes in parallel are deleted one after the other.

The controller takes the pod of the event for the leader. The webhook's lookup
excludes leaders that are finished or being deleted; the event filter excludes
only those being deleted.
-/
namespace JobSetOperator.Placement

open Library

/-- The event filter of `SetupWithManager`. -/
def eventFilter (pod : Pod) : Bool :=
  isLeaderPod pod ∧ pod.nodeName ≠ "" ∧ (pod.annotations.lookup exclusiveKey).isSome ∧
    pod.deletionTimestamp.isNone

/-- `listPodsForJob`. -/
def listPodsForJob (key : String) (ownerUID : ℕ) : Prog (List Pod) := do
  let answer : Except String (List Pod) ← send (.listPodsByJob key)
  match answer with
  | .error err => .fail err
  | .ok items => pure (items.filter fun pod => pod.controller = some ownerUID)

/-- `leaderPodTopology`; a missing node gives the empty topology. -/
def leaderPodTopology (pod : Pod) (topologyKey : String) : Prog String := do
  let answer : Lookup StrMap ← send (.getNode pod.nodeName)
  match answer with
  | .failed err => .fail err
  | .notFound => pure ""
  | .found nodeLabels =>
    match nodeLabels.lookup topologyKey with
    | some topology => pure topology
    | none => .fail ("node does not have topology label: " ++ topologyKey)

/-- `followerPodTopology`. -/
def followerPodTopology (pod : Pod) (topologyKey : String) : Except String String :=
  match pod.nodeSelector with
  | none => .error ("pod " ++ pod.name ++ " nodeSelector is nil")
  | some selector =>
    match selector.lookup topologyKey with
    | some topology => .ok topology
    | none => .error ("pod " ++ pod.name ++ " nodeSelector is missing key: " ++ topologyKey)

/-- The loop of `validatePodPlacements`. -/
def placementsValid (topologyKey leaderTopology : String) : List Pod → Except String Bool
  | [] => .ok true
  | pod :: rest =>
    if isLeaderPod pod then placementsValid topologyKey leaderTopology rest
    else if followerPodTopology pod topologyKey = .ok leaderTopology then
      placementsValid topologyKey leaderTopology rest
    else if leaderTopology = "" then .error "leader topology is unknown (node not found)"
    else .ok false

def liftExcept {α : Type} : Except String α → Prog α
  | .ok a => .done a
  | .error e => .fail e

/-- `validatePodPlacements`. -/
def validatePodPlacements (leaderPod : Pod) (items : List Pod) : Prog Bool := do
  let topologyKey := leaderPod.annotations.get exclusiveKey
  let leaderTopology ← leaderPodTopology leaderPod topologyKey
  liftExcept (placementsValid topologyKey leaderTopology items)

/-- `updatePodCondition`: the conditions after the update, if one is needed. -/
def updatePodCondition (condition : PodCondition) : List PodCondition → Option (List PodCondition)
  | [] => if condition.status = .conditionTrue then some [condition] else none
  | val :: rest =>
    if condition.type = val.type then
      if condition.status ≠ val.status then some (condition :: rest) else none
    else (updatePodCondition condition rest).map (val :: ·)

/-- The condition that lets a podFailurePolicy ignore these deletions. -/
def violationCondition (now : Time) : PodCondition where
  type := "DisruptionTarget"
  status := .conditionTrue
  reason := "ExclusivePlacementViolation"
  message := "Pod violated JobSet exclusive placement policy"
  lastTransitionTime := now

/-- Delete a pod; one that is gone already is no error. -/
def deletePod (pod : Pod) : Prog (List String) := do
  let answer : Lookup Unit ← send (.deletePod pod.name)
  match answer with
  | .failed err => pure [err]
  | _ => pure []

/-- One call of the parallel loop, with the errors it collects. -/
def deleteFollowerPod (pod : Pod) : Prog (List String) := do
  let now : Time ← send .now
  match updatePodCondition (violationCondition now) pod.conditions with
  | none => deletePod pod
  | some conditions => do
    let outcome : Except String Unit ←
      send (.updatePodStatus { pod with conditions := conditions })
    match outcome with
    | .error err => pure [err]
    | .ok _ => deletePod pod

def deleteFollowerPodsLoop : List Pod → Prog (List String)
  | [] => .done []
  | pod :: rest =>
    if isLeaderPod pod then deleteFollowerPodsLoop rest
    else do
      let errs ← deleteFollowerPod pod
      let others ← deleteFollowerPodsLoop rest
      pure (errs ++ others)

/-- `deleteFollowerPods`. -/
def deleteFollowerPods (pods : List Pod) : Prog Unit := do
  let errs ← deleteFollowerPodsLoop pods
  if errs = [] then pure () else .fail ("\n".intercalate errs)

/-- The part of `Reconcile` after the leader has been read. -/
def reconcileLeader (leaderPod : Pod) : Prog Unit :=
  match leaderPod.labels.lookup jobKey, leaderPod.controller with
  | none, _ => .fail ("job key label not found on leader pod: \"" ++ leaderPod.name ++ "\"")
  | some _, none => .fail ("leader pod \"" ++ leaderPod.name ++ "\" has no controller owner")
  | some key, some ownerUID => do
    let items ← listPodsForJob key ownerUID
    let valid ← validatePodPlacements leaderPod items
    if valid then pure () else deleteFollowerPods items

/-- `Reconcile`, for the pod with the name. -/
def reconcilePod (name : String) : Prog Unit := do
  let answer : Lookup Pod ← send (.getPod name)
  match answer with
  | .failed err => .fail err
  | .notFound => pure ()
  | .found leaderPod => reconcileLeader leaderPod

/-! ## What a reconcile does -/

/-- The calls of a reconcile with their answers. -/
abbrev Trace := List (Σ r : Request, r.Response)

/-- The pods a reconcile asks to delete. -/
def attempted (t : Trace) : List String :=
  t.filterMap fun
    | ⟨.deletePod name, _⟩ => some name
    | _ => none

@[simp] theorem attempted_nil : attempted [] = [] := rfl

@[simp] theorem attempted_append (t₁ t₂ : Trace) :
    attempted (t₁ ++ t₂) = attempted t₁ ++ attempted t₂ := List.filterMap_append ..

@[simp] theorem attempted_delete (name : String) (x : Lookup Unit) (t : Trace) :
    attempted (⟨.deletePod name, x⟩ :: t) = name :: attempted t := rfl

/-- The pods a reconcile finds for a leader pod. -/
def View.jobPods (v : View) (key : String) (owner : ℕ) : List Pod :=
  (v.pods.filter fun p => indexPodJob p = some key).filter fun p => p.controller = some owner

/-- The topology `leaderPodTopology` computes. -/
def View.LeaderTopology (v : View) (leader : Pod) (topology : String) : Prop :=
  (v.nodes leader.nodeName = none ∧ topology = "") ∨
  ∃ nodeLabels, v.nodes leader.nodeName = some nodeLabels ∧
    nodeLabels.lookup (leader.annotations.get exclusiveKey) = some topology

/-- The pods of the list that are followers select the topology. -/
def AllSelect (topologyKey topology : String) (items : List Pod) : Prop :=
  ∀ f ∈ items, isLeaderPod f = false → followerPodTopology f topologyKey = .ok topology

theorem placementsValid_cases (topologyKey topology : String) (items : List Pod) :
    (AllSelect topologyKey topology items ∧
      placementsValid topologyKey topology items = .ok true) ∨
    (¬ AllSelect topologyKey topology items ∧ topology = "" ∧
      ∃ e, placementsValid topologyKey topology items = .error e) ∨
    (¬ AllSelect topologyKey topology items ∧ topology ≠ "" ∧
      placementsValid topologyKey topology items = .ok false) := by
  induction items with
  | nil => exact Or.inl ⟨by simp [AllSelect], rfl⟩
  | cons pod rest ih =>
    have hcons : AllSelect topologyKey topology (pod :: rest) ↔
        (isLeaderPod pod = false → followerPodTopology pod topologyKey = .ok topology) ∧
          AllSelect topologyKey topology rest := by
      simp [AllSelect]
    rw [placementsValid, hcons]
    by_cases hl : isLeaderPod pod = true
    · simpa [hl] using ih
    · by_cases hf : followerPodTopology pod topologyKey = .ok topology
      · simpa [hl, hf] using ih
      · by_cases ht : topology = ""
        · subst ht
          simp [hl, hf]
        · simp [hl, hf, ht]

theorem leaderPodTopology_path {v : View} {leader : Pod} {t : Trace} {res : Except String String}
    (h : Program.Path v.Answers
      (leaderPodTopology leader (leader.annotations.get exclusiveKey)) t res) :
    attempted t = [] ∧ ∀ topology, res = .ok topology → v.LeaderTopology leader topology := by
  obtain ⟨x, t', hx, rfl, hk⟩ := Program.path_ask_bind.mp h
  cases x with
  | failed err =>
    obtain ⟨rfl, rfl⟩ := hk
    exact ⟨rfl, by simp⟩
  | notFound =>
    obtain ⟨rfl, rfl⟩ := hk
    refine ⟨rfl, fun topology ht => Or.inl ⟨hx, ?_⟩⟩
    cases ht
    rfl
  | found nodeLabels =>
    cases hl : nodeLabels.lookup (leader.annotations.get exclusiveKey) with
    | none =>
      simp only [hl] at hk
      obtain ⟨rfl, rfl⟩ := hk
      exact ⟨rfl, by simp⟩
    | some value =>
      simp only [hl] at hk
      obtain ⟨rfl, rfl⟩ := hk
      refine ⟨rfl, fun topology ht => Or.inr ⟨nodeLabels, hx, ?_⟩⟩
      cases ht
      exact hl

theorem listPodsForJob_path {v : View} {key : String} {owner : ℕ} {t : Trace}
    {res : Except String (List Pod)}
    (h : Program.Path v.Answers (listPodsForJob key owner) t res) :
    attempted t = [] ∧ ∀ items, res = .ok items → items = v.jobPods key owner := by
  obtain ⟨x, t', hx, rfl, hk⟩ := Program.path_ask_bind.mp h
  cases x with
  | error err =>
    obtain ⟨rfl, rfl⟩ := hk
    exact ⟨rfl, by simp⟩
  | ok items =>
    obtain ⟨rfl, rfl⟩ := hk
    refine ⟨rfl, fun _ hitems => ?_⟩
    cases hitems
    change items = _ at hx
    rw [hx]
    rfl

theorem path_liftExcept {α : Type} {A : (r : Request) → r.Response → Prop} {e : Except String α}
    {t : Trace} {res : Except String α} :
    Program.Path A (liftExcept e) t res ↔ t = [] ∧ res = e := by
  cases e <;> rfl

/-- A way through the check of the placements: it deletes nothing, and its answer
is about the topology of the leader's node. -/
theorem validatePodPlacements_path {v : View} {leader : Pod} {items : List Pod} {t : Trace}
    {res : Except String Bool}
    (h : Program.Path v.Answers (validatePodPlacements leader items) t res) :
    attempted t = [] ∧ ∀ valid, res = .ok valid → ∃ topology, v.LeaderTopology leader topology ∧
      (valid = true ↔ AllSelect (leader.annotations.get exclusiveKey) topology items) ∧
      (valid = false → topology ≠ "") := by
  rcases Program.path_bind.mp h with ⟨e, rfl, he⟩ | ⟨t₁, t₂, topology, rfl, h₁, h₂⟩
  · exact ⟨(leaderPodTopology_path he).1, by simp⟩
  · obtain ⟨hnone, htopo⟩ := leaderPodTopology_path h₁
    obtain ⟨rfl, hres⟩ := path_liftExcept.mp h₂
    refine ⟨by simpa using hnone, fun valid hvalid => ⟨topology, htopo _ rfl, ?_⟩⟩
    rw [hres] at hvalid
    rcases placementsValid_cases (leader.annotations.get exclusiveKey) topology items with
      ⟨hall, hp⟩ | ⟨-, -, e, hp⟩ | ⟨hall, hne, hp⟩
    · rw [hp] at hvalid
      cases hvalid
      simp [hall]
    · rw [hp] at hvalid
      cases hvalid
    · rw [hp] at hvalid
      cases hvalid
      simp [hall, hne]

/-- The pods the server has agreed to delete. -/
def deleted (t : Trace) : List String :=
  t.filterMap fun
    | ⟨.deletePod name, answer⟩ =>
      match answer with
      | .found _ => some name
      | _ => none
    | _ => none

@[simp] theorem deleted_append (t₁ t₂ : Trace) :
    deleted (t₁ ++ t₂) = deleted t₁ ++ deleted t₂ := List.filterMap_append ..

theorem deletePod_path {v : View} {pod : Pod} (hpod : pod ∈ v.pods) {t : Trace}
    (h : Program.Path v.Answers (deletePod pod) t (.ok [])) : pod.name ∈ deleted t := by
  obtain ⟨x, t', hx, rfl, hk⟩ := Program.path_ask_bind.mp h
  cases x with
  | failed err =>
    obtain ⟨-, hres⟩ := hk
    cases hres
  | notFound => exact absurd rfl (hx pod hpod)
  | found u =>
    obtain ⟨rfl, -⟩ := hk
    exact List.mem_singleton_self _

theorem deleteFollowerPod_path {v : View} {pod : Pod} (hpod : pod ∈ v.pods) {t : Trace}
    (h : Program.Path v.Answers (deleteFollowerPod pod) t (.ok [])) : pod.name ∈ deleted t := by
  obtain ⟨now, t₁, -, rfl, hk⟩ := Program.path_ask_bind.mp h
  change pod.name ∈ deleted t₁
  cases hc : updatePodCondition (violationCondition now) pod.conditions with
  | none =>
    rw [hc] at hk
    exact deletePod_path hpod hk
  | some conditions =>
    rw [hc] at hk
    obtain ⟨outcome, t₂, -, rfl, hk'⟩ := Program.path_ask_bind.mp hk
    change pod.name ∈ deleted t₂
    cases outcome with
    | error err =>
      obtain ⟨-, hres⟩ := hk'
      cases hres
    | ok u => exact deletePod_path hpod hk'

/-- When the loop collects no error, every follower of the list is deleted. -/
theorem deleteFollowerPodsLoop_path {v : View} {items : List Pod} (hitems : ∀ f ∈ items, f ∈ v.pods)
    {t : Trace} (h : Program.Path v.Answers (deleteFollowerPodsLoop items) t (.ok [])) {f : Pod}
    (hf : f ∈ items) (hfollower : isLeaderPod f = false) : f.name ∈ deleted t := by
  induction items generalizing t with
  | nil => simp at hf
  | cons pod rest ih =>
    have hrest : ∀ f ∈ rest, f ∈ v.pods := fun f hf => hitems f (List.mem_cons_of_mem _ hf)
    rw [deleteFollowerPodsLoop] at h
    by_cases hl : isLeaderPod pod = true
    · rw [if_pos hl] at h
      rcases List.mem_cons.mp hf with rfl | hf
      · simp [hl] at hfollower
      · exact ih hrest h hf
    · rw [if_neg hl] at h
      rcases Program.path_bind.mp h with ⟨e, he, -⟩ | ⟨t₁, t₂, errs, rfl, h₁, h₂⟩
      · cases he
      · rcases Program.path_bind.mp h₂ with ⟨e, he, -⟩ | ⟨t₃, t₄, others, rfl, h₃, rfl, h₄⟩
        · cases he
        · have hnil : errs = [] ∧ others = [] := by
            injection h₄ with h₄
            exact List.append_eq_nil_iff.mp h₄.symm
          obtain ⟨rfl, rfl⟩ := hnil
          rw [deleted_append, deleted_append, List.mem_append, List.mem_append]
          rcases List.mem_cons.mp hf with rfl | hf
          · exact Or.inl (deleteFollowerPod_path (hitems _ List.mem_cons_self) h₁)
          · exact Or.inr (Or.inl (ih hrest h₃ hf))

/-- Some way through the program asks for a deletion. -/
def View.MayDelete {α : Type} (v : View) (p : Prog α) : Prop :=
  ∃ t res, Program.Path v.Answers p t res ∧ attempted t ≠ []

theorem View.MayDelete.bind {α β : Type} {v : View} {p : Prog α} (h : v.MayDelete p)
    (f : α → Prog β) : v.MayDelete (p >>= f) := by
  obtain ⟨t, res, hp, ht⟩ := h
  obtain ⟨t', res', hp'⟩ := hp.exists_bind v.answers_answer f
  refine ⟨t ++ t', res', hp', fun hnil => ht ?_⟩
  rw [attempted_append] at hnil
  exact (List.append_eq_nil_iff.mp hnil).1

theorem View.MayDelete.after {α β : Type} {v : View} {p : Prog α} {f : α → Prog β} {t : Trace}
    {a : α} (hp : Program.Path v.Answers p t (.ok a)) (h : v.MayDelete (f a)) :
    v.MayDelete (p >>= f) := by
  obtain ⟨t', res, hf, ht⟩ := h
  refine ⟨t ++ t', res, Program.path_bind.mpr (Or.inr ⟨t, t', a, rfl, hp, hf⟩), fun hnil => ht ?_⟩
  rw [attempted_append] at hnil
  exact (List.append_eq_nil_iff.mp hnil).2

/-- A call with an allowed answer, and what follows. -/
theorem View.MayDelete.send {α : Type} {v : View} {r : Request} {f : r.Response → Prog α}
    {x : r.Response} (hx : v.Answers r x) (h : v.MayDelete (f x)) :
    v.MayDelete (Placement.send r >>= f) :=
  .after (t := [⟨r, x⟩]) ⟨x, [], hx, rfl, rfl, rfl⟩ h

theorem mayDelete_deletePod (v : View) (pod : Pod) : v.MayDelete (deletePod pod) :=
  ⟨_, _, Program.path_ask_bind.mpr ⟨Lookup.failed "", [], trivial, rfl, rfl, rfl⟩,
    List.cons_ne_nil _ _⟩

theorem mayDelete_deleteFollowerPod (v : View) (pod : Pod) :
    v.MayDelete (deleteFollowerPod pod) := by
  have hnow : v.Answers .now (0 : ℤ) := trivial
  refine .send hnow ?_
  cases hc : updatePodCondition (violationCondition 0) pod.conditions with
  | none => exact mayDelete_deletePod v pod
  | some conditions =>
    have hupdate : v.Answers (.updatePodStatus { pod with conditions := conditions })
      (Except.ok ()) := trivial
    exact .send hupdate (mayDelete_deletePod v pod)

theorem mayDelete_deleteFollowerPods (v : View) {items : List Pod}
    (h : ∃ f ∈ items, isLeaderPod f = false) : v.MayDelete (deleteFollowerPods items) := by
  refine View.MayDelete.bind ?_ _
  induction items with
  | nil => simp at h
  | cons pod rest ih =>
    rw [deleteFollowerPodsLoop]
    by_cases hl : isLeaderPod pod = true
    · rw [if_pos hl]
      exact ih (by simpa [hl] using h)
    · rw [if_neg hl]
      exact (mayDelete_deleteFollowerPod v pod).bind _

/-! ## A whole reconcile -/

/-- A way through the reconcile of a pod deletes nothing, or it found followers that
do not select the topology of the pod's node and deletes followers. -/
theorem reconcilePod_path {v : View} (hn : (v.pods.map (·.name)).Nodup) {p : Pod} (hp : p ∈ v.pods)
    {key : String} {owner : ℕ} (hkey : p.labels.lookup jobKey = some key)
    (howner : p.controller = some owner) {t : Trace} {res : Except String Unit}
    (h : Program.Path v.Answers (reconcilePod p.name) t res) :
    (attempted t = [] ∧ (res = .ok () → ∃ topology, v.LeaderTopology p topology ∧
      AllSelect (p.annotations.get exclusiveKey) topology (v.jobPods key owner))) ∨
    (∃ topology t', v.LeaderTopology p topology ∧ topology ≠ "" ∧
      ¬ AllSelect (p.annotations.get exclusiveKey) topology (v.jobPods key owner) ∧
      deleted t' ⊆ deleted t ∧
      Program.Path v.Answers (deleteFollowerPods (v.jobPods key owner)) t' res) := by
  obtain ⟨x, t', hx, rfl, hk⟩ := Program.path_ask_bind.mp h
  change (attempted t' = [] ∧ _) ∨ _
  cases x with
  | failed err =>
    obtain ⟨rfl, rfl⟩ := hk
    exact Or.inl ⟨rfl, by simp⟩
  | notFound =>
    change v.pods.find? _ = none at hx
    rw [find?_of_nodup hn hp] at hx
    cases hx
  | found leader =>
    change v.pods.find? _ = some leader at hx
    rw [find?_of_nodup hn hp] at hx
    cases hx
    simp only [reconcileLeader, hkey, howner] at hk
    rcases Program.path_bind.mp hk with ⟨e, rfl, he⟩ | ⟨t₁, t₂, items, rfl, h₁, h₂⟩
    · exact Or.inl ⟨(listPodsForJob_path he).1, by simp⟩
    obtain ⟨hnone₁, hitems⟩ := listPodsForJob_path h₁
    have hitems := hitems items rfl
    subst hitems
    rcases Program.path_bind.mp h₂ with ⟨e, rfl, he⟩ | ⟨t₃, t₄, valid, rfl, h₃, h₄⟩
    · refine Or.inl ⟨?_, by simp⟩
      rw [attempted_append, hnone₁, (validatePodPlacements_path he).1]
      rfl
    obtain ⟨hnone₃, hvalid⟩ := validatePodPlacements_path h₃
    obtain ⟨topology, htopo, hiff, hne⟩ := hvalid valid rfl
    cases valid with
    | true =>
      obtain ⟨rfl, rfl⟩ := h₄
      refine Or.inl ⟨?_, fun _ => ⟨topology, htopo, hiff.mp rfl⟩⟩
      simp [hnone₁, hnone₃]
    | false =>
      refine Or.inr ⟨topology, t₄, htopo, hne rfl, fun hall => ?_, ?_, h₄⟩
      · exact absurd (hiff.mpr hall) (by simp)
      · intro q hq
        change q ∈ deleted (t₁ ++ (t₃ ++ t₄))
        simp [hq]

/-- A reconcile of a pod whose node has a topology some follower does not select
can reach a deletion. -/
theorem mayDelete_reconcilePod {v : View} (hn : (v.pods.map (·.name)).Nodup) {p : Pod}
    (hp : p ∈ v.pods) {key topology : String} {owner : ℕ} {nodeLabels : StrMap}
    (hkey : p.labels.lookup jobKey = some key) (howner : p.controller = some owner)
    (hnode : v.nodes p.nodeName = some nodeLabels)
    (hlabel : nodeLabels.lookup (p.annotations.get exclusiveKey) = some topology)
    (hne : topology ≠ "")
    (hselect : ¬ AllSelect (p.annotations.get exclusiveKey) topology (v.jobPods key owner)) :
    v.MayDelete (reconcilePod p.name) := by
  have hfollower : ∃ f ∈ v.jobPods key owner, isLeaderPod f = false := by
    unfold AllSelect at hselect
    push Not at hselect
    obtain ⟨f, hf, hl, -⟩ := hselect
    exact ⟨f, hf, hl⟩
  have hfalse : placementsValid (p.annotations.get exclusiveKey) topology (v.jobPods key owner) =
      .ok false := by
    rcases placementsValid_cases (p.annotations.get exclusiveKey) topology (v.jobPods key owner) with
      ⟨hall, -⟩ | ⟨-, he, -⟩ | ⟨-, -, h⟩
    · exact absurd hall hselect
    · exact absurd he hne
    · exact h
  have hget : v.Answers (.getPod p.name) (Lookup.found p) := find?_of_nodup hn hp
  have hlist : v.Answers (.listPodsByJob key)
      (Except.ok (v.pods.filter fun q => indexPodJob q = some key)) := rfl
  have hitems : Program.Path v.Answers (listPodsForJob key owner)
      [⟨.listPodsByJob key, Except.ok (v.pods.filter fun q => indexPodJob q = some key)⟩]
      (.ok (v.jobPods key owner)) :=
    Program.path_ask_bind.mpr ⟨_, [], hlist, rfl, rfl, rfl⟩
  have htopology : Program.Path v.Answers (leaderPodTopology p (p.annotations.get exclusiveKey))
      [⟨.getNode p.nodeName, Lookup.found nodeLabels⟩] (.ok topology) := by
    refine Program.path_ask_bind.mpr ⟨Lookup.found nodeLabels, [], hnode, rfl, ?_⟩
    simp [hlabel]
  have hinvalid : Program.Path v.Answers (validatePodPlacements p (v.jobPods key owner))
      [⟨.getNode p.nodeName, Lookup.found nodeLabels⟩] (.ok false) :=
    Program.path_bind.mpr (Or.inr ⟨_, [], topology, rfl, htopology,
      path_liftExcept.mpr ⟨rfl, hfalse.symm⟩⟩)
  refine .send hget ?_
  simp only [reconcileLeader, hkey, howner]
  exact .after hitems (.after hinvalid (mayDelete_deleteFollowerPods v hfollower))

end JobSetOperator.Placement
