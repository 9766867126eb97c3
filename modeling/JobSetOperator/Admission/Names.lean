import JobSetOperator.Admission.Checked

/-!
# Names of Jobs and pods

`ValidateCreate` checks one Job name and one pod name for each ReplicatedJob, the
ones with the largest indexes. A name with a smaller index is no longer and is
made of the same parts, so the check of a Job name covers all indexes. The check
of a pod name is skipped when `completions` is unset, also where the Job API
defaults it to one.
-/
namespace JobSetOperator

/-! ## Labels -/

/-- The characters of a DNS-1035 label. -/
def labelChar (c : Char) : Bool := c.isLower || c.isDigit || c = '-'

/-- A DNS-1035 label of at most 63 characters: `[a-z]([-a-z0-9]*[a-z0-9])?`. -/
def dns1035Label (s : String) : Bool :=
  decide (s.length ≤ 63) && s.toList.head?.any Char.isLower && s.toList.all labelChar &&
    s.toList.getLast?.all fun c => c ≠ '-'

theorem dns1035Label_iff {s : String} : dns1035Label s = true ↔
    s.length ≤ 63 ∧ (∃ c, s.toList.head? = some c ∧ c.isLower = true) ∧
      (∀ c ∈ s.toList, labelChar c = true) ∧ ∀ c, s.toList.getLast? = some c → c ≠ '-' := by
  simp [dns1035Label, Option.any_eq_true, Option.all_eq_true, and_assoc]

/-- The random part of a generated name. -/
def RandomSuffix (suffix : String) : Prop :=
  suffix.length = 5 ∧ ∀ c ∈ suffix.toList, c.isLower = true ∨ c.isDigit = true

def maxGeneratedNameLength := 58

/-- `SimpleNameGenerator.GenerateName`: a base of bounded length and a random suffix. -/
def GeneratedName (base name : String) : Prop :=
  ∃ suffix, RandomSuffix suffix ∧ name = truncateTo maxGeneratedNameLength base ++ suffix

/-- The name a JobSet gets when it is created. -/
def NamedAs (js : JobSet) (name : String) : Prop :=
  if js.name ≠ "" then name = js.name else GeneratedName js.generateName name

/-- What the validators of the Kubernetes libraries decide about names. -/
structure Validators.Documented (v : Validators) : Prop where
  isDNS1035Label : ∀ s, v.isDNS1035Label s = [] ↔ dns1035Label s = true
  generateName : ∀ base, GeneratedName base (v.generateName base)

/-! ## Names of one ReplicatedJob -/

/-- The completions of a Job after the defaulting of the Job API: when neither size is set,
both are one. -/
def effectiveCompletions (spec : JobSpec) : Option ℤ :=
  match spec.completions, spec.parallelism with
  | some completions, _ => some completions
  | none, none => some 1
  | none, some _ => none

/-- The name of a pod of an Indexed Job. -/
def podName (jobName : String) (podIndex : ℕ) (suffix : String) : String :=
  jobName ++ "-" ++ itoa podIndex ++ "-" ++ suffix

/-- All names of the Jobs and pods of the ReplicatedJob are labels. -/
def NamesValid (jobSetName : String) (rjob : ReplicatedJob) : Prop :=
  ∀ jobIdx < rjob.replicas, dns1035Label (genJobName jobSetName rjob.name jobIdx) = true ∧
    (isIndexedJob rjob = true → ∀ completions,
      effectiveCompletions rjob.template.spec = some completions →
      ∀ podIndex : ℕ, podIndex < completions → ∀ suffix, RandomSuffix suffix →
        dns1035Label (podName (genJobName jobSetName rjob.name jobIdx) podIndex suffix) = true)

/-- The ReplicatedJob leaves both sizes of an Indexed Job to the Job API. -/
def SizesDefaulted (rjob : ReplicatedJob) : Prop :=
  isIndexedJob rjob = true ∧ rjob.template.spec.completions = none ∧
    rjob.template.spec.parallelism = none

/-! ## Stems -/

/-- The beginning of a label. -/
structure Stem (s : String) : Prop where
  head : ∃ c, s.toList.head? = some c ∧ c.isLower = true
  chars : ∀ c ∈ s.toList, labelChar c = true

theorem Stem.append {a b : String} (h : Stem a) (hb : ∀ c ∈ b.toList, labelChar c = true) :
    Stem (a ++ b) := by
  obtain ⟨c, hc, hlower⟩ := h.head
  constructor
  · refine ⟨c, ?_, hlower⟩
    rw [String.toList_append, List.head?_append, hc]
    rfl
  · intro x hx
    rw [String.toList_append, List.mem_append] at hx
    rcases hx with hx | hx
    · exact h.chars x hx
    · exact hb x hx

/-- A stem with an end that is no dash is a label, if it is short enough. -/
theorem Stem.label {stem tail : String} (h : Stem stem)
    (hchars : ∀ c ∈ tail.toList, labelChar c = true)
    (hlast : ∃ c, tail.toList.getLast? = some c ∧ c ≠ '-')
    (hlength : stem.length + tail.length ≤ 63) : dns1035Label (stem ++ tail) = true := by
  obtain ⟨last, hlast, hdash⟩ := hlast
  have hwhole := h.append hchars
  rw [dns1035Label_iff]
  refine ⟨by rw [String.length_append]; exact hlength, hwhole.head, hwhole.chars, ?_⟩
  intro c hc
  rw [String.toList_append, List.getLast?_append, hlast] at hc
  cases hc
  exact hdash

/-- What a label begins with is a stem. -/
theorem stem_of_label {stem tail : String} (hne : stem.toList ≠ [])
    (h : dns1035Label (stem ++ tail) = true) : Stem stem := by
  obtain ⟨-, ⟨c, hc, hlower⟩, hchars, -⟩ := dns1035Label_iff.mp h
  rw [String.toList_append] at hc hchars
  constructor
  · refine ⟨c, ?_, hlower⟩
    rwa [List.head?_append_of_ne_nil _ hne] at hc
  · exact fun x hx => hchars x (List.mem_append_left _ hx)

theorem labelChar_of_digit {c : Char} (h : c.isDigit = true) : labelChar c = true := by
  simp [labelChar, h]

theorem labelChar_dash : ∀ c ∈ "-".toList, labelChar c = true := by
  intro c hc
  obtain rfl : c = '-' := by simpa using hc
  rfl

theorem randomSuffix_abcde : RandomSuffix "abcde" := by
  constructor
  · decide
  · intro c hc
    have hlist : "abcde".toList = ['a', 'b', 'c', 'd', 'e'] := rfl
    rw [hlist] at hc
    simp only [List.mem_cons, List.not_mem_nil, or_false] at hc
    rcases hc with rfl | rfl | rfl | rfl | rfl <;> decide

theorem labelChar_itoa {n : ℕ} : ∀ c ∈ (itoa n).toList, labelChar c = true :=
  fun _ hc => labelChar_of_digit (isDigit_of_mem_itoa hc)

theorem RandomSuffix.labelChar {suffix : String} (h : RandomSuffix suffix) :
    ∀ c ∈ suffix.toList, labelChar c = true := by
  intro c hc
  rcases h.2 c hc with hlower | hdigit
  · simp [JobSetOperator.labelChar, hlower]
  · exact labelChar_of_digit hdigit

theorem itoa_last (n : ℕ) : ∃ c, (itoa n).toList.getLast? = some c ∧ c ≠ '-' := by
  obtain ⟨c, hc⟩ := Option.ne_none_iff_exists'.mp
    (mt List.getLast?_eq_none_iff.mp (itoa_toList_ne_nil n))
  refine ⟨c, hc, ?_⟩
  rintro rfl
  have := isDigit_of_mem_itoa (List.mem_of_getLast? hc)
  simp at this

theorem RandomSuffix.last {suffix : String} (h : RandomSuffix suffix) :
    ∃ c, suffix.toList.getLast? = some c ∧ c ≠ '-' := by
  have hne : suffix.toList ≠ [] := by
    intro hnil
    have hlength : suffix.length = 0 := by rw [← String.length_toList, hnil]; rfl
    rw [h.1] at hlength
    cases hlength
  obtain ⟨c, hc⟩ := Option.ne_none_iff_exists'.mp (mt List.getLast?_eq_none_iff.mp hne)
  refine ⟨c, hc, ?_⟩
  rintro rfl
  rcases h.2 '-' (List.mem_of_getLast? hc) with hbad | hbad <;> simp at hbad

/-! ## The name of the JobSet -/

/-- The part of the names of a ReplicatedJob before the index. -/
def nameBase (jobSetName : String) (rjob : ReplicatedJob) : String :=
  jobSetName ++ "-" ++ rjob.name ++ "-"

theorem genJobName_eq (jobSetName : String) (rjob : ReplicatedJob) (jobIdx : ℤ) :
    genJobName jobSetName rjob.name jobIdx = nameBase jobSetName rjob ++ itoa jobIdx := rfl

/-- The name used for the checks is as good as the name the JobSet gets. -/
theorem stem_of_namedAs {v : Validators} (hv : v.Documented) {js : JobSet} {name : String}
    (hname : NamedAs js name) {rjob : ReplicatedJob}
    (h : Stem (nameBase (getJobSetNameForValidation v js) rjob)) :
    Stem (nameBase name rjob) ∧
      (nameBase name rjob).length =
        (nameBase (getJobSetNameForValidation v js) rjob).length := by
  unfold NamedAs at hname
  by_cases hset : js.name = ""
  · rw [if_neg (not_not.mpr hset)] at hname
    obtain ⟨suffix, hsuffix, rfl⟩ := hname
    by_cases hgenerate : js.generateName = ""
    · -- without any name the first character is a dash
      obtain ⟨c, hc, hlower⟩ := h.head
      simp only [getJobSetNameForValidation, hset, hgenerate, nameBase, ne_eq, not_true_eq_false,
        if_false, String.toList_append] at hc
      have hdash : c = '-' := by simpa using hc.symm
      rw [hdash] at hlower
      simp at hlower
    · obtain ⟨suffix', hsuffix', hv'⟩ := hv.generateName js.generateName
      have hchecked : getJobSetNameForValidation v js =
          truncateTo maxGeneratedNameLength js.generateName ++ suffix' := by
        simp only [getJobSetNameForValidation, hset, hgenerate, ne_eq, not_true_eq_false, if_false,
          not_false_eq_true, if_true]
        exact hv'
      rw [hchecked] at h ⊢
      have hbase : (truncateTo maxGeneratedNameLength js.generateName).toList ≠ [] := by
        have hne : js.generateName.toList ≠ [] := fun hnil =>
          hgenerate (String.toList_injective (by simpa using hnil))
        simpa [truncateTo, maxGeneratedNameLength] using hne
      have hstem : Stem (truncateTo maxGeneratedNameLength js.generateName) := by
        obtain ⟨c, hc, hlower⟩ := h.head
        simp only [nameBase, String.toList_append, List.append_assoc] at hc
        rw [List.head?_append_of_ne_nil _ hbase] at hc
        refine ⟨⟨c, hc, hlower⟩, fun x hx => h.chars x ?_⟩
        simp only [nameBase, String.toList_append, List.append_assoc]
        exact List.mem_append_left _ hx
      have hrest : ∀ c ∈ ("-" ++ rjob.name ++ "-").toList, labelChar c = true := by
        intro x hx
        refine h.chars x ?_
        simp only [nameBase, String.toList_append, List.append_assoc] at hx ⊢
        exact List.mem_append_right _ (List.mem_append_right _ hx)
      refine ⟨?_, ?_⟩
      · have := (hstem.append hsuffix.labelChar).append hrest
        simpa [nameBase, String.append_assoc] using this
      · simp only [nameBase, String.length_append, hsuffix.1, hsuffix'.1]
  · rw [if_pos hset] at hname
    have hchecked : getJobSetNameForValidation v js = name := by
      simp [getJobSetNameForValidation, hset, hname]
    rw [hchecked] at h ⊢
    exact ⟨h, rfl⟩

/-! ## What the checks establish -/

/-- The longest names of an accepted JobSet are labels. -/
theorem validateCreate_names {w : Webhook} (hv : w.validators.Documented) {js : JobSet}
    (h : validateCreate w js = .ok []) {rjob : ReplicatedJob} (hrjob : rjob ∈ js.spec.replicatedJobs) :
    dns1035Label (longestJobName (getJobSetNameForValidation w.validators js) rjob) = true ∧
      ∀ name, longestPodName (getJobSetNameForValidation w.validators js) rjob = some name →
        dns1035Label name = true := by
  unfold validateCreate at h
  split at h
  · cases h
  · simp only [Except.ok.injEq, List.append_eq_nil_iff] at h
    obtain ⟨⟨⟨⟨⟨⟨-, hrjobs⟩, -⟩, -⟩, -⟩, -⟩, -⟩ := h
    obtain ⟨i, hi, rfl⟩ := List.mem_iff_getElem.mp hrjob
    have hown : validateReplicatedJob w js (getJobSetNameForValidation w.validators js) i
        js.spec.replicatedJobs[i] = [] :=
      flatten_mapIdx_eq_nil.mp hrjobs i hi
    unfold validateReplicatedJob validateNames at hown
    simp only [List.append_eq_nil_iff, nameErrors_eq_nil] at hown
    obtain ⟨⟨⟨-, ⟨-, hjob⟩, hpod⟩, -⟩, -⟩ := hown
    refine ⟨(hv.isDNS1035Label _).mp hjob, fun name hname => ?_⟩
    rw [hname] at hpod
    exact (hv.isDNS1035Label _).mp (nameErrors_eq_nil.mp hpod)

/-- The stem of the names, and the room the longest Job name leaves. -/
theorem validateCreate_stem {w : Webhook} (hv : w.validators.Documented) {js : JobSet}
    {name : String} (hname : NamedAs js name) (h : validateCreate w js = .ok [])
    {rjob : ReplicatedJob} (hrjob : rjob ∈ js.spec.replicatedJobs) :
    Stem (nameBase name rjob) ∧ (longestJobName name rjob).length ≤ 63 ∧
      ∀ completions, isIndexedJob rjob = true → rjob.template.spec.completions = some completions →
        (longestJobName name rjob).length + (itoa (completions - 1)).length + 7 ≤ 63 := by
  obtain ⟨hjob, hpod⟩ := validateCreate_names hv h hrjob
  have hbase : (nameBase (getJobSetNameForValidation w.validators js) rjob).toList ≠ [] := by
    simp [nameBase]
  have hstem : Stem (nameBase (getJobSetNameForValidation w.validators js) rjob) :=
    stem_of_label hbase hjob
  obtain ⟨hown, hlength⟩ := stem_of_namedAs hv hname hstem
  have hlongest : (longestJobName name rjob).length =
      (longestJobName (getJobSetNameForValidation w.validators js) rjob).length := by
    unfold longestJobName
    rw [genJobName_eq, genJobName_eq, String.length_append, String.length_append, hlength]
  refine ⟨hown, hlongest ▸ (dns1035Label_iff.mp hjob).1, fun completions hindexed hset => ?_⟩
  have hlabel := hpod _ (by
    unfold longestPodName
    rw [if_pos (by simpa [isIndexedJob] using hindexed), hset, Option.map_some])
  have hbound := (dns1035Label_iff.mp hlabel).1
  have hpodLength : (genPodName (getJobSetNameForValidation w.validators js) rjob.name
      (itoa ((rjob.replicas : ℤ) - 1)) (itoa (completions - 1)) ++ "-abcde").length =
      (longestJobName (getJobSetNameForValidation w.validators js) rjob).length +
        (itoa (completions - 1)).length + 7 := by
    have hdash : "-".length = 1 := by decide
    have hsuffix : "-abcde".length = 6 := by decide
    simp only [genPodName, longestJobName, genJobName, String.length_append, hdash, hsuffix]
    omega
  rw [hlongest]
  omega

/-! ## All names -/

/-- The index of a Job is no longer than the largest one. -/
theorem length_index_le {rjob : ReplicatedJob} {jobIdx : ℕ} (h : jobIdx < rjob.replicas) :
    (itoa jobIdx).length ≤ (itoa ((rjob.replicas : ℤ) - 1)).length := by
  have hlast : ((rjob.replicas : ℤ) - 1) = ((rjob.replicas - 1 : ℕ) : ℤ) := by omega
  rw [hlast]
  apply length_itoa_mono
  omega

theorem length_jobName_le (name : String) {rjob : ReplicatedJob} {jobIdx : ℕ}
    (h : jobIdx < rjob.replicas) :
    (genJobName name rjob.name jobIdx).length ≤ (longestJobName name rjob).length := by
  have := length_index_le h
  unfold longestJobName
  rw [genJobName_eq, genJobName_eq, String.length_append, String.length_append]
  omega

theorem length_podName (jobName : String) (podIndex : ℕ) {suffix : String}
    (h : RandomSuffix suffix) :
    (podName jobName podIndex suffix).length = jobName.length + (itoa podIndex).length + 7 := by
  have hdash : "-".length = 1 := by decide
  simp only [podName, String.length_append, hdash, h.1]
  omega

/-- A pod name that is short enough is a label. -/
theorem podName_label {name : String} {rjob : ReplicatedJob} (hstem : Stem (nameBase name rjob))
    (jobIdx podIndex : ℕ) {suffix : String} (hsuffix : RandomSuffix suffix)
    (hlength : (podName (genJobName name rjob.name jobIdx) podIndex suffix).length ≤ 63) :
    dns1035Label (podName (genJobName name rjob.name jobIdx) podIndex suffix) = true := by
  have hstem' : Stem (genJobName name rjob.name jobIdx ++ "-" ++ itoa podIndex ++ "-") :=
    ((((genJobName_eq name rjob jobIdx) ▸ hstem.append labelChar_itoa).append labelChar_dash).append
      labelChar_itoa).append labelChar_dash
  refine hstem'.label hsuffix.labelChar hsuffix.last ?_
  rw [← String.length_append]
  exact hlength

/-- The names of an accepted JobSet are labels exactly when the Job names of the
ReplicatedJobs that leave both sizes to the Job API have eight characters to spare. -/
theorem admitted_names_valid_iff {w : Webhook} (hv : w.validators.Documented) {js : JobSet}
    (hvalid : validateCreate w (defaultJobSet w.gates js) = .ok []) {name : String}
    (hname : NamedAs js name) :
    (∀ rjob ∈ (defaultJobSet w.gates js).spec.replicatedJobs, NamesValid name rjob) ↔
      ∀ rjob ∈ (defaultJobSet w.gates js).spec.replicatedJobs, 0 < rjob.replicas →
        SizesDefaulted rjob → (longestJobName name rjob).length ≤ 55 := by
  have hname' : NamedAs (defaultJobSet w.gates js) name := hname
  constructor
  · rintro h rjob hrjob hpos ⟨hindexed, hcompletions, hparallelism⟩
    -- the last Job, its only pod, and any suffix
    have hlabel := (h rjob hrjob (rjob.replicas - 1) (by omega)).2 hindexed 1
      (by simp [effectiveCompletions, hcompletions, hparallelism]) 0 (by decide) "abcde" randomSuffix_abcde
    have hbound := (dns1035Label_iff.mp hlabel).1
    have hzero : (itoa (0 : ℕ)).length = 1 := by decide
    rw [length_podName _ _ randomSuffix_abcde, hzero] at hbound
    have hlast : ((rjob.replicas - 1 : ℕ) : ℤ) = (rjob.replicas : ℤ) - 1 := by omega
    rw [hlast] at hbound
    unfold longestJobName
    omega
  · intro h rjob hrjob jobIdx hidx
    obtain ⟨hstem, hlongest, hpods⟩ := validateCreate_stem hv hname' hvalid hrjob
    have hjob := length_jobName_le name hidx
    refine ⟨?_, fun hindexed completions heffective podIndex hpod suffix hsuffix => ?_⟩
    · rw [genJobName_eq]
      refine hstem.label labelChar_itoa (itoa_last jobIdx) ?_
      rw [← String.length_append, ← genJobName_eq]
      exact hjob.trans hlongest
    · apply podName_label hstem jobIdx podIndex hsuffix
      rw [length_podName _ _ hsuffix]
      cases hset : rjob.template.spec.completions with
      | some stated =>
        have hstated : stated = completions := by simpa [effectiveCompletions, hset] using heffective
        have hlast : completions - 1 = ((completions - 1).toNat : ℤ) := by omega
        have hindex : (itoa podIndex).length ≤ (itoa (completions - 1)).length := by
          rw [hlast]
          apply length_itoa_mono
          omega
        have := hpods stated hindexed hset
        rw [hstated] at this
        omega
      | none =>
        cases hparallelism : rjob.template.spec.parallelism with
        | some _ => simp [effectiveCompletions, hset, hparallelism] at heffective
        | none =>
          have hone : completions = 1 := by
            simpa [effectiveCompletions, hset, hparallelism] using heffective.symm
          have hfirst : podIndex = 0 := by omega
          have hzero : (itoa (0 : ℕ)).length = 1 := by decide
          have hspare := h rjob hrjob (by omega) ⟨hindexed, hset, hparallelism⟩
          subst hfirst
          omega

/-- A webhook that checks labels as the Kubernetes libraries do. -/
def labelWebhook : Webhook :=
  { trainWebhook with
    validators := { trainWebhook.validators with
      isDNS1035Label := fun s => if dns1035Label s then [] else ["not a DNS-1035 label"]
      generateName := fun base => truncateTo maxGeneratedNameLength base ++ "abcde" } }

theorem labelWebhook_documented : labelWebhook.validators.Documented where
  isDNS1035Label s := by
    change (if dns1035Label s then [] else ["not a DNS-1035 label"]) = [] ↔ _
    split_ifs with h
    · simp [h]
    · simp [h]
  generateName _ := ⟨"abcde", randomSuffix_abcde, rfl⟩

/-- A JobSet with one Job whose sizes are left to the Job API. -/
def unsizedSet (name : String) : JobSet :=
  { JobSet.zero with
    name := name
    spec := { JobSetSpec.zero with
      replicatedJobs := [{ ReplicatedJob.single "w" 1 with
        template := ⟨∅, ∅, JobSpec.zero⟩ }] } }

/-- The names of a JobSet with a short name. -/
theorem admitted_names_valid_train :
    validateCreate labelWebhook (defaultJobSet labelWebhook.gates (unsizedSet "train")) = .ok [] ∧
    ∀ rjob ∈ (defaultJobSet labelWebhook.gates (unsizedSet "train")).spec.replicatedJobs,
      NamesValid "train" rjob := by
  have hvalid : validateCreate labelWebhook
      (defaultJobSet labelWebhook.gates (unsizedSet "train")) = .ok [] := by decide +kernel
  have hname : NamedAs (unsizedSet "train") "train" := by
    unfold NamedAs
    rw [if_pos (by decide)]
    rfl
  refine ⟨hvalid, (admitted_names_valid_iff labelWebhook_documented hvalid hname).mpr ?_⟩
  intro rjob hrjob _ _
  obtain rfl : rjob = defaultReplicatedJob { ReplicatedJob.single "w" 1 with
      template := ⟨∅, ∅, JobSpec.zero⟩ } := by simpa [defaultJobSet, unsizedSet] using hrjob
  decide +kernel

/-- A name of 55 characters. -/
def longName : String := "aaaaaaaaaabbbbbbbbbbccccccccccddddddddddeeeeeeeeeefffff"

/-- The JobSet is accepted although the name of its pod is too long. -/
theorem admitted_pod_name_too_long :
    validateCreate labelWebhook (defaultJobSet labelWebhook.gates (unsizedSet longName)) =
      .ok [] ∧
    NamedAs (unsizedSet longName) longName ∧
    ∃ rjob ∈ (defaultJobSet labelWebhook.gates (unsizedSet longName)).spec.replicatedJobs,
      ¬ NamesValid longName rjob := by
  have hname : NamedAs (unsizedSet longName) longName := by
    unfold NamedAs
    rw [if_pos (by decide)]
    rfl
  refine ⟨by decide +kernel, hname, _, List.mem_cons_self, fun h => ?_⟩
  have hlabel := (h 0 (by decide)).2 rfl 1 rfl 0 (by decide) "abcde" randomSuffix_abcde
  have hlong : dns1035Label (podName (genJobName longName "w" (0 : ℕ)) 0 "abcde") = false := by
    decide +kernel
  exact Bool.false_ne_true (hlong.symm.trans hlabel)

end JobSetOperator
