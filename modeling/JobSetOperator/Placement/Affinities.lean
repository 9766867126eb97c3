import JobSetOperator.Placement.Followers

/-!
# Which pods the injected terms select

A leader pod is kept apart from the pods of other Jobs with its priority and together
with the pods of its own Job. The terms compare labels for equality, so they are right
if the priority label renders different priorities differently, as values the API
server accepts.
-/
namespace JobSetOperator.Placement

open Library

/-! ## Selectors -/

/-- The meaning of one requirement on labels; a missing key is not in any list of values. -/
def SelectorRequirement.holds (requirement : SelectorRequirement) (labels : StrMap) : Bool :=
  match requirement.operator, labels.lookup requirement.key with
  | .selectorOpIn, some value => value ∈ requirement.values
  | .selectorOpIn, none => false
  | .selectorOpNotIn, some value => value ∉ requirement.values
  | .selectorOpNotIn, none => true
  | .selectorOpExists, some _ => true
  | .selectorOpExists, none => false

/-- A term selects a pod if all its requirements hold of the pod and of its namespace. -/
def PodAffinityTerm.selects (term : PodAffinityTerm) (namespaceLabels : StrMap) (pod : Pod) : Bool :=
  (term.namespaceSelector.all fun requirement => requirement.holds namespaceLabels) &&
    term.matchExpressions.all fun requirement => requirement.holds pod.labels

/-- The values the API server accepts for a label. -/
def validLabelValue (value : String) : Bool :=
  decide (value.length ≤ 63) &&
  (value.toList.all fun c => c.isAlphanum || c = '-' || c = '_' || c = '.') &&
  value.toList.head?.all Char.isAlphanum && value.toList.getLast?.all Char.isAlphanum

/-! ## The priority label -/

theorem itoa_nonneg_head {n : ℤ} (h : 0 ≤ n) : ∀ c ∈ (itoa n).toList, c.isDigit = true := by
  obtain ⟨m, rfl⟩ := Int.eq_ofNat_of_zero_le h
  intro c hc
  exact isDigit_of_mem_itoa hc

/-- Different priorities have different labels. -/
theorem priorityLabelValue_injective : Function.Injective priorityLabelValue := by
  have hsign : ∀ {a b : ℤ}, 0 ≤ b → "n" ++ itoa (-a) ≠ itoa b := by
    intro a b hb heq
    have hmem : 'n' ∈ (itoa b).toList := by
      rw [← heq]
      simp
    have hdigit := itoa_nonneg_head hb 'n' hmem
    simp at hdigit
  intro a b h
  unfold priorityLabelValue at h
  split_ifs at h with ha hb hb
  · have hneg := itoa_injective ((String.append_right_inj "n").mp h)
    omega
  · exact absurd h (hsign (not_lt.mp hb))
  · exact absurd h.symm (hsign (not_lt.mp ha))
  · exact itoa_injective h

theorem length_itoa_le {n : ℕ} (h : n < 10 ^ 62) : (itoa n).length ≤ 62 := by
  change (Nat.repr n).length ≤ 62
  exact (Nat.length_repr_le_iff (by norm_num)).mpr h

theorem isAlphanum_of_isDigit {c : Char} (h : c.isDigit = true) : c.isAlphanum = true := by
  simp [Char.isAlphanum, h]

/-- The value of letters and digits is valid if it is short. -/
theorem validLabelValue_of_alphanum {value : String} (hlength : value.length ≤ 63)
    (h : ∀ c ∈ value.toList, c.isAlphanum = true) : validLabelValue value = true := by
  unfold validLabelValue
  simp only [Bool.and_eq_true, decide_eq_true_eq, List.all_eq_true]
  refine ⟨⟨⟨hlength, ?_⟩, ?_⟩, ?_⟩
  · intro c hc
    simp [h c hc]
  · cases hhead : value.toList.head? with
    | none => rfl
    | some c => exact h c (List.mem_of_head? hhead)
  · cases hlast : value.toList.getLast? with
    | none => rfl
    | some c => exact h c (List.mem_of_getLast? hlast)

/-- The label of a 32-bit priority is valid. -/
theorem validLabelValue_priority {priority : ℤ} (hl : -(2 ^ 31) ≤ priority)
    (hu : priority < 2 ^ 31) : validLabelValue (priorityLabelValue priority) = true := by
  have hmagnitude : ∀ n : ℤ, 0 ≤ n → n ≤ 2 ^ 31 →
      (itoa n).length ≤ 62 ∧ ∀ c ∈ (itoa n).toList, c.isAlphanum = true := by
    intro n hn hle
    obtain ⟨m, rfl⟩ := Int.eq_ofNat_of_zero_le hn
    constructor
    · apply length_itoa_le
      have hm : m ≤ 2 ^ 31 := by exact_mod_cast hle
      exact hm.trans_lt (by norm_num)
    · intro c hc
      exact isAlphanum_of_isDigit (isDigit_of_mem_itoa hc)
  unfold priorityLabelValue
  split_ifs with hneg
  · obtain ⟨hlength, hchars⟩ := hmagnitude (-priority) (by omega) (by omega)
    apply validLabelValue_of_alphanum
    · rw [String.length_append]
      have hone : "n".length = 1 := rfl
      omega
    · intro c hc
      rw [String.toList_append] at hc
      rcases List.mem_append.mp hc with hc | hc
      · rw [show "n".toList = ['n'] from rfl, List.mem_singleton] at hc
        rw [hc]
        rfl
      · exact hchars c hc
  · obtain ⟨hlength, hchars⟩ := hmagnitude priority (by omega) (by omega)
    exact validLabelValue_of_alphanum (by omega) hchars

/-! ## Pods after `Default` -/

/-- The pod belongs to a JobSet, and `Default` did not leave it to the node selector strategy: it
returned `pod` for `original`, with any answers of the server. -/
structure Defaulted (original pod : Pod) : Prop where
  jobSet_annotation : (original.annotations.lookup jobSetNameKey).isSome = true
  no_strategy : original.annotations.lookup nodeSelectorStrategyKey = none
  returned : ∃ (v : View) (t : List (Σ r : Request, r.Response)),
    Program.Path v.Answers (defaultPod original) t (.ok pod)

/-- A follower comes out of the node selector step with its labels. -/
theorem setNodeSelector_labels {v : View} {pod pod' : Pod} {t : List (Σ r : Request, r.Response)}
    (h : Program.Path v.Answers (setNodeSelector pod) t (.ok pod')) : pod'.labels = pod.labels := by
  rcases Program.path_bind.mp h with ⟨e, he, -⟩ | ⟨t₁, t₂, lookup, rfl, -, h₂⟩
  · cases he
  · cases lookup with
    | error e =>
      obtain ⟨-, hres⟩ := h₂
      cases hres
      rfl
    | ok leaderPod =>
      dsimp only at h₂
      split_ifs at h₂
      · obtain ⟨-, hres⟩ := h₂
        cases hres
        rfl
      · cases hkey : pod.annotations.lookup exclusiveKey with
        | none =>
          rw [hkey] at h₂
          obtain ⟨-, hres⟩ := h₂
          cases hres
        | some topologyKey =>
          rw [hkey] at h₂
          rcases Program.path_bind.mp h₂ with ⟨e, he, -⟩ | ⟨t₃, t₄, value, -, -, hres⟩
          · cases he
          · obtain ⟨-, hres⟩ := hres
            cases hres
            rfl

theorem patchPod_labels {v : View} {pod pod' : Pod} {t : List (Σ r : Request, r.Response)}
    (h : Program.Path v.Answers (patchPod pod) t (.ok pod')) : pod'.labels = pod.labels := by
  unfold patchPod at h
  split_ifs at h
  · obtain ⟨-, hres⟩ := h
    cases hres
    rfl
  · exact setNodeSelector_labels h

section Defaulted

variable {original pod : Pod} (h : Defaulted original pod)

include h

/-- `Default` adds the priority label and leaves the other labels alone. -/
theorem Defaulted.labels : pod.labels = (labelPriority original).labels := by
  obtain ⟨v, t, hpath⟩ := h.returned
  have hset := Option.isNone_eq_false_iff.mpr h.jobSet_annotation
  unfold defaultPod at hpath
  simp only [hset, h.no_strategy, Option.isSome_none, Bool.false_eq_true, if_false] at hpath
  split_ifs at hpath
  · exact patchPod_labels hpath
  · obtain ⟨-, hres⟩ := hpath
    cases hres
    rfl

theorem Defaulted.priority_label {priority : ℤ} (hpriority : original.priority = some priority) :
    pod.labels.lookup priorityKey = some (priorityLabelValue priority) := by
  rw [h.labels, labelPriority, hpriority]
  exact Finmap.lookup_insert _

theorem Defaulted.key_label : pod.labels.lookup jobKey = original.labels.lookup jobKey := by
  rw [h.labels]
  exact labelPriority_lookup original (by decide)

/-- A leader with exclusive placement gets two terms. -/
theorem Defaulted.leader (hleader : isLeaderPod original = true)
    (hexclusive : (original.annotations.lookup exclusiveKey).isSome = true) :
    pod = setExclusiveAffinities (labelPriority original) := by
  obtain ⟨v, t, hpath⟩ := h.returned
  have hset := Option.isNone_eq_false_iff.mpr h.jobSet_annotation
  obtain ⟨labels, hrest⟩ := labelPriority_rest original
  have hleader' : isLeaderPod (labelPriority original) = true := by
    rw [hrest]
    exact hleader
  unfold defaultPod patchPod at hpath
  simp only [hset, h.no_strategy, hexclusive, hleader', Option.isSome_none, Bool.false_eq_true,
    if_false, if_true] at hpath
  obtain ⟨-, hres⟩ := hpath
  cases hres
  rfl

end Defaulted

/-- The term that selects the pods of the Job. -/
def ownTerm (key topologyKey : String) : PodAffinityTerm :=
  ⟨[⟨jobKey, .selectorOpIn, [key]⟩], topologyKey, []⟩

/-- The term that selects the pods of other Jobs with the priority label. -/
def competitorTerm (key priority topologyKey : String) : PodAffinityTerm :=
  ⟨[⟨jobKey, .selectorOpExists, []⟩, ⟨jobKey, .selectorOpNotIn, [key]⟩,
    ⟨priorityKey, .selectorOpIn, [priority]⟩], topologyKey, []⟩

theorem ownTerm_selects {key key' topologyKey : String} {namespaceLabels : StrMap} {pod : Pod}
    (hkey : pod.labels.lookup jobKey = some key') :
    (ownTerm key topologyKey).selects namespaceLabels pod = true ↔ key' = key := by
  simp [ownTerm, PodAffinityTerm.selects, SelectorRequirement.holds, hkey]

theorem competitorTerm_selects {key key' priority priority' topologyKey : String}
    {namespaceLabels : StrMap} {pod : Pod} (hkey : pod.labels.lookup jobKey = some key')
    (hpriority : pod.labels.lookup priorityKey = some priority') :
    (competitorTerm key priority topologyKey).selects namespaceLabels pod = true ↔
      key' ≠ key ∧ priority' = priority := by
  simp [competitorTerm, PodAffinityTerm.selects, SelectorRequirement.holds, hkey, hpriority]

/-- The terms that `Default` adds to a leader select, in every namespace, exactly the pods of other
Jobs with its priority, and the pods of its own Job. The label of a priority is unambiguous and
valid over all 32-bit integers. -/
theorem injected_terms_select :
    (∀ (original leader original' pod : Pod) (key key' : String) (priority priority' : ℤ),
      Defaulted original leader → Defaulted original' pod → isLeaderPod original = true →
      (original.annotations.lookup exclusiveKey).isSome = true →
      original.priority = some priority → original'.priority = some priority' →
      original.labels.lookup jobKey = some key → original'.labels.lookup jobKey = some key' →
      ∃ antiAffinity affinity,
        leader.podAntiAffinity = original.podAntiAffinity ++ [antiAffinity] ∧
        leader.podAffinity = original.podAffinity ++ [affinity] ∧
        ∀ namespaceLabels,
          (antiAffinity.selects namespaceLabels pod = true ↔ key' ≠ key ∧ priority' = priority) ∧
          (affinity.selects namespaceLabels pod = true ↔ key' = key)) ∧
    (∀ a b : ℤ, priorityLabelValue a = priorityLabelValue b → a = b) ∧
    ∀ a : ℤ, -(2 ^ 31) ≤ a → a < 2 ^ 31 → validLabelValue (priorityLabelValue a) = true := by
  refine ⟨?_, fun a b h => priorityLabelValue_injective h, fun a hl hu =>
    validLabelValue_priority hl hu⟩
  intro original leader original' pod key key' priority priority' hp hq hleader hexclusive hpriority
    hpriority' hkey hkey'
  have hpod := hp.leader hleader hexclusive
  obtain ⟨labels, hrest⟩ := labelPriority_rest original
  have hown : (labelPriority original).labels.get jobKey = key := by
    simp [StrMap.get, labelPriority_lookup original (show jobKey ≠ priorityKey by decide), hkey]
  have hownPriority : (labelPriority original).labels.get priorityKey =
      priorityLabelValue priority := by
    have hlabel := hp.priority_label hpriority
    rw [hp.labels] at hlabel
    simp [StrMap.get, hlabel]
  have hother : pod.labels.lookup jobKey = some key' := hq.key_label.trans hkey'
  have hotherPriority := hq.priority_label hpriority'
  refine ⟨competitorTerm key (priorityLabelValue priority)
      ((labelPriority original).annotations.get exclusiveKey),
    ownTerm key ((labelPriority original).annotations.get exclusiveKey), ?_, ?_, ?_⟩
  · rw [hpod, setExclusiveAffinities, hown, hownPriority]
    rw [hrest]
    rfl
  · rw [hpod, setExclusiveAffinities, hown]
    rw [hrest]
    rfl
  · intro namespaceLabels
    refine ⟨?_, ownTerm_selects hother⟩
    rw [competitorTerm_selects hother hotherPriority, priorityLabelValue_injective.eq_iff]

/-- A leader leaves `Default` without a call. -/
theorem defaulted_of_leader {original : Pod}
    (hset : (original.annotations.lookup jobSetNameKey).isSome = true)
    (hstrategy : original.annotations.lookup nodeSelectorStrategyKey = none)
    (hexclusive : (original.annotations.lookup exclusiveKey).isSome = true)
    (hleader : isLeaderPod original = true) :
    Defaulted original (setExclusiveAffinities (labelPriority original)) := by
  refine ⟨hset, hstrategy, ⟨[], fun _ => none⟩, [], ?_⟩
  have hset' := Option.isNone_eq_false_iff.mpr hset
  obtain ⟨labels, hrest⟩ := labelPriority_rest original
  have hleader' : isLeaderPod (labelPriority original) = true := by
    rw [hrest]
    exact hleader
  unfold defaultPod patchPod
  simp only [hset', hstrategy, hexclusive, hleader', Option.isSome_none, Bool.false_eq_true,
    if_false, if_true]
  exact ⟨rfl, rfl⟩

/-- A leader with the lowest priority. -/
def lowestLeader : Pod :=
  { zonePod "js-w-0-0-aaaaa" "0" "" .podPending none with priority := some (-(2 ^ 31)) }

/-- The leader of another Job with the same priority. -/
def lowestCompetitor : Pod :=
  { lowestLeader with
    name := "js-w-1-0-bbbbb"
    labels := lowestLeader.labels.insert jobKey "k1" }

/-- The two Jobs are kept apart. -/
theorem injected_terms_select_lowest :
    priorityLabelValue (-(2 ^ 31)) = "n2147483648" ∧
    validLabelValue (priorityLabelValue (-(2 ^ 31))) = true ∧
    ∃ antiAffinity,
      (setExclusiveAffinities (labelPriority lowestLeader)).podAntiAffinity = [antiAffinity] ∧
      ∀ namespaceLabels, antiAffinity.selects namespaceLabels
        (setExclusiveAffinities (labelPriority lowestCompetitor)) = true := by
  have hleader : Defaulted lowestLeader (setExclusiveAffinities (labelPriority lowestLeader)) :=
    defaulted_of_leader (by decide +kernel) (by decide +kernel) (by decide +kernel)
      (by decide +kernel)
  have hcompetitor : Defaulted lowestCompetitor
      (setExclusiveAffinities (labelPriority lowestCompetitor)) :=
    defaulted_of_leader (by decide +kernel) (by decide +kernel) (by decide +kernel)
      (by decide +kernel)
  obtain ⟨antiAffinity, affinity, hanti, -, hselects⟩ := injected_terms_select.1 lowestLeader _
    lowestCompetitor _ "k" "k1" (-(2 ^ 31)) (-(2 ^ 31)) hleader hcompetitor (by decide +kernel)
    (by decide +kernel) rfl rfl (by decide +kernel) (by decide +kernel)
  refine ⟨by decide, injected_terms_select.2.2 _ le_rfl (by norm_num), antiAffinity, hanti, ?_⟩
  intro namespaceLabels
  exact (hselects namespaceLabels).1.mpr ⟨by decide, rfl⟩

end JobSetOperator.Placement
