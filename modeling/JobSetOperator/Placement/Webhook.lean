import JobSetOperator.Api.Types
import JobSetOperator.Library.Programs

/-!
# Admission of pods with exclusive placement

The pod webhook: `Default` gives a leader pod (completion index 0) its affinities
and a follower the node selector of its leader's topology, and `ValidateCreate`
admits a follower only after its leader is scheduled. Both look the leader up
through the pod name index. All objects are in one namespace, that of the pods.
-/
namespace JobSetOperator.Placement

open Library

/-! ## Pods and nodes -/

structure PodCondition where
  type : String
  status : ConditionStatus
  reason : String
  message : String
  lastTransitionTime : Time
  deriving DecidableEq, Repr

inductive SelectorOperator
  | selectorOpIn
  | selectorOpNotIn
  | selectorOpExists
  deriving DecidableEq, Repr

structure SelectorRequirement where
  key : String
  operator : SelectorOperator
  values : List String
  deriving DecidableEq, Repr

/-- A required term: the requirements on the labels of a pod and of its namespace. -/
structure PodAffinityTerm where
  matchExpressions : List SelectorRequirement
  topologyKey : String
  namespaceSelector : List SelectorRequirement
  deriving DecidableEq, Repr

/-- A pod. `controller` is the uid in its controller reference. A nil node
selector is told apart from an empty one. -/
structure Pod where
  name : String
  labels : StrMap
  annotations : StrMap
  controller : Option ℕ
  deletionTimestamp : Option Time
  priority : Option ℤ
  nodeName : String
  nodeSelector : Option StrMap
  podAffinity : List PodAffinityTerm
  podAntiAffinity : List PodAffinityTerm
  phase : PodPhase
  conditions : List PodCondition
  deriving DecidableEq

def jobCompletionIndexAnnotation := "batch.kubernetes.io/job-completion-index"
def priorityKey := "jobset.sigs.k8s.io/priority"

/-- `IsLeaderPod`. -/
def isLeaderPod (pod : Pod) : Bool := pod.annotations.get jobCompletionIndexAnnotation = "0"

/-- `removePodNameSuffix`: the name without its last part, when it has five parts or more. -/
def removePodNameSuffix (podName : String) : Except String String :=
  let parts := podName.toList.splitOn '-'
  if parts.length < 5 then .error ("invalid pod name: " ++ podName)
  else .ok (String.ofList (List.intercalate ['-'] parts.dropLast))

/-- `IndexPodName`: the index entry of a pod with exclusive placement. -/
def indexPodName (pod : Pod) : Option String :=
  if (pod.annotations.lookup exclusiveKey).isNone then none
  else (removePodNameSuffix pod.name).toOption

/-- `IndexPodJob`. -/
def indexPodJob (pod : Pod) : Option String :=
  if (pod.annotations.lookup exclusiveKey).isNone then none else pod.labels.lookup jobKey

/-! ## Calls -/

/-- What a read of one object returns. -/
inductive Lookup (α : Type)
  | found (a : α)
  | notFound
  | failed (err : String)

/-- The calls of the pod webhook and of the pod controller. A node is known by its labels. -/
inductive Request
  | now
  | getPod (name : String)
  | listPodsByName (podName : String)
  | listPodsByJob (key : String)
  | getNode (name : String)
  | updatePodStatus (pod : Pod)
  | deletePod (name : String)

def Request.Response : Request → Type
  | .now => Time
  | .getPod _ => Lookup Pod
  | .listPodsByName _ => Except String (List Pod)
  | .listPodsByJob _ => Except String (List Pod)
  | .getNode _ => Lookup StrMap
  | .updatePodStatus _ => Except String Unit
  | .deletePod _ => Lookup Unit

abbrev Prog (α : Type) := Program Request Request.Response String α

def send (r : Request) : Prog r.Response := Program.ask r

/-! ## Finding the leader -/

/-- A label that must be there. -/
def requireLabel (pod : Pod) (key : String) : Except String String :=
  match pod.labels.lookup key with
  | some value => .ok value
  | none => .error ("pod missing label: " ++ key)

/-- `genLeaderPodName`. -/
def genLeaderPodName (pod : Pod) : Except String String := do
  let jobSet ← requireLabel pod jobSetNameKey
  let replicatedJob ← requireLabel pod replicatedJobNameKey
  let jobIndex ← requireLabel pod jobIndexKey
  pure (genPodName jobSet replicatedJob jobIndex "0")

/-- `podsOwnedBySameJob`. -/
def podsOwnedBySameJob (leaderPod followerPod : Pod) : Except String Unit :=
  match followerPod.controller, leaderPod.controller with
  | none, _ => .error "follower pod has no owner reference"
  | some _, none => .error ("leader pod \"" ++ leaderPod.name ++ "\" has no owner reference")
  | some followerUID, some leaderUID =>
    if followerUID ≠ leaderUID then
      .error ("follower pod owner UID (" ++ itoa followerUID ++ ") != leader pod owner UID (" ++
        itoa leaderUID ++ ")")
    else .ok ()

/-- The pods the lookup keeps: not being deleted and not finished. -/
def live (pod : Pod) : Bool :=
  pod.deletionTimestamp.isNone ∧ pod.phase ≠ .podFailed ∧ pod.phase ≠ .podSucceeded

/-- What the lookup makes of the listed pods. -/
def chooseLeader (pod : Pod) (leaderPodName : String) (items : List Pod) : Except String Pod :=
  match items.filter live with
  | [leaderPod] => (podsOwnedBySameJob leaderPod pod).map fun _ => leaderPod
  | others => .error ("expected 1 leader pod (" ++ leaderPodName ++ "), but got " ++
      itoa others.length ++ ". this is an expected, transient error")

/-- `leaderPodForFollower`. Its error is a value: `Default` swallows it. -/
def leaderPodForFollower (pod : Pod) : Prog (Except String Pod) :=
  match genLeaderPodName pod with
  | .error e => .done (.error e)
  | .ok leaderPodName => do
    let answer : Except String (List Pod) ← send (.listPodsByName leaderPodName)
    pure (answer >>= chooseLeader pod leaderPodName)

/-! ## Defaulting -/

/-- `priorityLabelValue`. -/
def priorityLabelValue (priority : ℤ) : String :=
  if priority < 0 then "n" ++ itoa (-priority) else itoa priority

/-- `setExclusiveAffinities`. -/
def setExclusiveAffinities (pod : Pod) : Pod :=
  let topologyKey := pod.annotations.get exclusiveKey
  let key := pod.labels.get jobKey
  { pod with
    podAffinity := pod.podAffinity ++ [⟨[⟨jobKey, .selectorOpIn, [key]⟩], topologyKey, []⟩]
    podAntiAffinity := pod.podAntiAffinity ++
      [⟨[⟨jobKey, .selectorOpExists, []⟩, ⟨jobKey, .selectorOpNotIn, [key]⟩,
        ⟨priorityKey, .selectorOpIn, [pod.labels.get priorityKey]⟩], topologyKey, []⟩] }

/-- `topologyFromPod`. -/
def topologyFromPod (pod : Pod) (topologyKey : String) : Prog String := do
  let answer : Lookup StrMap ← send (.getNode pod.nodeName)
  match answer with
  | .failed err => .fail err
  | .notFound => .fail ("nodes \"" ++ pod.nodeName ++ "\" not found")
  | .found nodeLabels =>
    match nodeLabels.lookup topologyKey with
    | some topology => pure topology
    | none => .fail ("node does not have topology label: " ++ topologyKey)

/-- `pod.Spec.NodeSelector[key] = value`. -/
def Pod.withNodeSelector (pod : Pod) (key value : String) : Pod :=
  { pod with nodeSelector := some ((pod.nodeSelector.getD ∅).insert key value) }

/-- `setNodeSelector`. A leader that is missing or not scheduled is no error here:
the validating call rejects the follower. -/
def setNodeSelector (pod : Pod) : Prog Pod := do
  let lookup ← leaderPodForFollower pod
  match lookup with
  | .error _ => pure pod
  | .ok leaderPod =>
    if leaderPod.nodeName = "" then pure pod
    else
      match pod.annotations.lookup exclusiveKey with
      | none => .fail ("pod missing annotation: " ++ exclusiveKey)
      | some topologyKey => do
        let topologyValue ← topologyFromPod leaderPod topologyKey
        pure (pod.withNodeSelector topologyKey topologyValue)

/-- `patchPod`. -/
def patchPod (pod : Pod) : Prog Pod :=
  if isLeaderPod pod then pure (setExclusiveAffinities pod) else setNodeSelector pod

/-- The priority label, which the affinities of other Jobs refer to. -/
def labelPriority (pod : Pod) : Pod :=
  match pod.priority with
  | some priority =>
    { pod with labels := pod.labels.insert priorityKey (priorityLabelValue priority) }
  | none => pod

/-- `Default`, as `defaultPod`. -/
def defaultPod (pod : Pod) : Prog Pod :=
  if (pod.annotations.lookup jobSetNameKey).isNone then pure pod
  else if (pod.annotations.lookup nodeSelectorStrategyKey).isSome then pure pod
  else if (pod.annotations.lookup exclusiveKey).isSome then patchPod (labelPriority pod)
  else pure (labelPriority pod)

theorem labelPriority_lookup (p : Pod) {name : String} (h : name ≠ priorityKey) :
    (labelPriority p).labels.lookup name = p.labels.lookup name := by
  unfold labelPriority
  cases p.priority with
  | none => rfl
  | some priority => exact Finmap.lookup_insert_of_ne _ h

/-- Everything but the labels stays. -/
theorem labelPriority_rest (p : Pod) : ∃ labels, labelPriority p = { p with labels := labels } := by
  unfold labelPriority
  split
  · exact ⟨_, rfl⟩
  · exact ⟨p.labels, rfl⟩

/-! ## Validation -/

/-- `leaderPodScheduled`. -/
def leaderPodScheduled (pod : Pod) : Prog Bool := do
  let lookup ← leaderPodForFollower pod
  match lookup with
  | .error e => .fail e
  | .ok leaderPod => pure (leaderPod.nodeName ≠ "")

/-- `ValidateCreate`; an error rejects the pod. -/
def validateCreate (pod : Pod) : Prog Unit :=
  if (pod.annotations.lookup jobSetNameKey).isNone then pure ()
  else if (pod.annotations.lookup nodeSelectorStrategyKey).isSome then pure ()
  else
    match pod.annotations.lookup exclusiveKey with
    | none => pure ()
    | some topologyKey =>
      if isLeaderPod pod then pure ()
      else
        match pod.nodeSelector with
        | none => .fail "follower pod node selector not set"
        | some selector =>
          if (selector.lookup topologyKey).isNone then
            .fail ("follower pod node selector for topology domain not found. missing selector: " ++
              topologyKey)
          else do
            let leaderScheduled ← leaderPodScheduled pod
            if !leaderScheduled then
              .fail "leader pod not yet scheduled, not creating follower pod. this is an expected, transient error"
            else pure ()

/-! ## Truthful answers -/

/-- The pods and the nodes at one moment. -/
structure View where
  pods : List Pod
  nodes : String → Option StrMap

/-- The answers of a server with these objects: every call may fail, and a read
that does not fail returns what is there. -/
def View.Answers (v : View) : (r : Request) → r.Response → Prop
  | .now, _ => True
  | .getPod name, answer =>
    match answer with
    | .found pod => v.pods.find? (fun p => p.name = name) = some pod
    | .notFound => v.pods.find? (fun p => p.name = name) = none
    | .failed _ => True
  | .listPodsByName podName, answer =>
    match answer with
    | .ok items => items = v.pods.filter fun p => indexPodName p = some podName
    | .error _ => True
  | .listPodsByJob key, answer =>
    match answer with
    | .ok items => items = v.pods.filter fun p => indexPodJob p = some key
    | .error _ => True
  | .getNode name, answer =>
    match answer with
    | .found nodeLabels => v.nodes name = some nodeLabels
    | .notFound => v.nodes name = none
    | .failed _ => True
  | .updatePodStatus _, _ => True
  | .deletePod name, answer =>
    match answer with
    | .found _ => ∃ p ∈ v.pods, p.name = name
    | .notFound => ∀ p ∈ v.pods, p.name ≠ name
    | .failed _ => True

/-- The answers without a failure, at time zero. -/
def View.answer (v : View) : (r : Request) → r.Response
  | .now => (0 : ℤ)
  | .getPod name =>
    match v.pods.find? fun p => p.name = name with
    | some pod => Lookup.found pod
    | none => Lookup.notFound
  | .listPodsByName podName => Except.ok (v.pods.filter fun p => indexPodName p = some podName)
  | .listPodsByJob key => Except.ok (v.pods.filter fun p => indexPodJob p = some key)
  | .getNode name =>
    match v.nodes name with
    | some nodeLabels => Lookup.found nodeLabels
    | none => Lookup.notFound
  | .updatePodStatus _ => Except.ok ()
  | .deletePod name =>
    if ∃ p ∈ v.pods, p.name = name then Lookup.found () else Lookup.notFound

theorem View.answers_answer (v : View) (r : Request) : v.Answers r (v.answer r) := by
  cases r with
  | now => trivial
  | getPod name =>
    cases h : v.pods.find? fun p => p.name = name <;> simp [View.Answers, View.answer, h]
  | listPodsByName podName => rfl
  | listPodsByJob key => rfl
  | getNode name => cases h : v.nodes name <;> simp [View.Answers, View.answer, h]
  | updatePodStatus pod => trivial
  | deletePod name =>
    by_cases h : ∃ p ∈ v.pods, p.name = name
    · simp [View.Answers, View.answer, h]
    · have hnone : v.answer (.deletePod name) = Lookup.notFound := if_neg h
      rw [hnone]
      intro p hp hname
      exact h ⟨p, hp, hname⟩

/-- A leader the lookup finds is a live pod of the follower's Job, with the leader's name. -/
theorem leaderPodForFollower_path {v : View} {pod leader : Pod} {t : List (Σ r : Request, r.Response)}
    (h : Program.Path v.Answers (leaderPodForFollower pod) t (.ok (.ok leader))) :
    leader ∈ v.pods ∧ live leader = true ∧ leader.controller = pod.controller ∧
      leader.controller.isSome = true ∧
      ∃ leaderPodName, genLeaderPodName pod = .ok leaderPodName ∧
        indexPodName leader = some leaderPodName := by
  unfold leaderPodForFollower at h
  cases hn : genLeaderPodName pod with
  | error e => simp [hn] at h
  | ok leaderPodName =>
    rw [hn] at h
    obtain ⟨x, t', hx, rfl, hk⟩ := Program.path_ask_bind.mp h
    obtain ⟨rfl, hres⟩ := hk
    cases x with
    | error e => cases hres
    | ok items =>
      change items = _ at hx
      have hchoose : chooseLeader pod leaderPodName items = .ok leader := by
        injection hres with hres
        exact hres.symm
      unfold chooseLeader at hchoose
      split at hchoose
      · rename_i leaderPod heq
        have hmem : leaderPod ∈ items.filter live := by rw [heq]; exact List.mem_singleton_self _
        have hown : podsOwnedBySameJob leaderPod pod = .ok () ∧ leaderPod = leader := by
          cases ho : podsOwnedBySameJob leaderPod pod with
          | error e => simp [ho, Except.map] at hchoose
          | ok u => exact ⟨rfl, by simpa [ho, Except.map] using hchoose⟩
        obtain ⟨hown, rfl⟩ := hown
        rw [List.mem_filter, hx, List.mem_filter] at hmem
        unfold podsOwnedBySameJob at hown
        split at hown
        · cases hown
        · cases hown
        · rename_i hfollower hleader
          split_ifs at hown with hne
          refine ⟨hmem.1.1, hmem.2, ?_, by rw [hleader]; rfl, leaderPodName, rfl, ?_⟩
          · rw [hfollower, hleader, not_not.mp hne]
          · simpa using hmem.1.2
      · cases hchoose

end JobSetOperator.Placement
