import JobSetOperator.Scheduling.Rescaling

/-!
# The two scheduling mappings agree

The builders map the ReplicatedJobs of a JobSet to templates; `constructJob` looks
the template of one Job up. Both name the same template, and the PodGroup a Job is
bound to is the one that is materialized from it. PodGroup names are short and
distinct, as long as the truncated hashes of long names are.
-/
namespace JobSetOperator

open Library

/-! ## Lengths of generated names -/

/-- The digest has forty hexadecimal digits. -/
def Platform.Sha1 (platform : Platform) : Prop := ∀ text, (platform.sha1Hash text).length = 40

theorem length_truncateTo (n : ℕ) (s : String) : (truncateTo n s).length = min n s.length := by
  unfold truncateTo
  simp [String.length_toList]

theorem length_schedulingIdentityHash {platform : Platform} (h : platform.Sha1)
    (kind inNamespace name : String) :
    (schedulingIdentityHash platform kind inNamespace name).length = podGroupNameHashLength := by
  unfold schedulingIdentityHash
  rw [length_truncateTo, h]
  rfl

/-- A generated name ends with its hash and fits a label. -/
theorem length_hashedName (base : String) {hash : String}
    (h : hash.length = podGroupNameHashLength) :
    11 ≤ (hashedName base hash).length ∧ (hashedName base hash).length ≤ maxPodGroupNameLength := by
  unfold podGroupNameHashLength at h
  have hdash : ("-" : String).length = 1 := rfl
  unfold hashedName
  dsimp only
  unfold maxPodGroupNameLength
  split_ifs with hshort
  · simp only [String.length_append, h, hdash] at hshort ⊢
    omega
  · simp only [String.length_append, h, hdash, length_truncateTo] at hshort ⊢
    omega

theorem length_templateName {platform : Platform} (h : platform.Sha1) (js : JobSet) (s : Source) :
    11 ≤ (s.templateName platform js).length ∧
      (s.templateName platform js).length ≤ maxPodGroupNameLength := by
  cases s <;> exact length_hashedName _ (length_schedulingIdentityHash h _ _ _)

/-! ## PodGroup names -/

/-- The truncated hash of a PodGroup's identity. -/
def podGroupHash (platform : Platform) (identity : String) : String :=
  truncateTo podGroupNameHashLength (platform.sha1Hash identity)

theorem length_podGroupHash {platform : Platform} (h : platform.Sha1) (identity : String) :
    (podGroupHash platform identity).length = 10 := by
  unfold podGroupHash
  rw [length_truncateTo, h]
  rfl

theorem append_left_cancel {a b c : String} (h : a ++ b = a ++ c) : b = c := by
  have hlist := congrArg String.toList h
  rw [String.toList_append, String.toList_append, List.append_cancel_left_eq] at hlist
  exact String.toList_inj.mp hlist

section PodGroupName

variable {platform : Platform} {jobSetName : String}

theorem podGroupName_short {templateName : String}
    (h : (jobSetName ++ "-" ++ templateName).length ≤ 63) :
    podGroupName platform jobSetName templateName = jobSetName ++ "-" ++ templateName :=
  if_pos h

theorem podGroupName_long {templateName : String}
    (h : ¬ (jobSetName ++ "-" ++ templateName).length ≤ 63) :
    podGroupName platform jobSetName templateName = truncateTo 52 jobSetName ++ "-" ++
      podGroupHash platform (jobSetName ++ "/" ++ templateName) :=
  if_neg h

theorem length_dash_append (a b : String) : (a ++ "-" ++ b).length = a.length + 1 + b.length := by
  rw [String.length_append, String.length_append]
  rfl

variable (h : platform.Sha1)

include h

theorem length_podGroupName_long {templateName : String}
    (hlong : ¬ (jobSetName ++ "-" ++ templateName).length ≤ 63) :
    (podGroupName platform jobSetName templateName).length = min 52 jobSetName.length + 11 := by
  rw [podGroupName_long hlong, length_dash_append, length_truncateTo, length_podGroupHash h]

theorem length_podGroupName (templateName : String) :
    (podGroupName platform jobSetName templateName).length ≤ maxPodGroupNameLength := by
  unfold maxPodGroupNameLength
  by_cases hshort : (jobSetName ++ "-" ++ templateName).length ≤ 63
  · rwa [podGroupName_short hshort]
  · rw [length_podGroupName_long h hshort]
    omega

/-- A name that fits is longer than one that was cut. -/
theorem podGroupName_short_ne_long {a b : String} (ha : 11 ≤ a.length)
    (hshort : (jobSetName ++ "-" ++ a).length ≤ 63)
    (hlong : ¬ (jobSetName ++ "-" ++ b).length ≤ 63) :
    podGroupName platform jobSetName a ≠ podGroupName platform jobSetName b := by
  intro heq
  have hlen := congrArg String.length heq
  rw [podGroupName_short hshort, length_podGroupName_long h hlong, length_dash_append] at hlen
  rw [length_dash_append] at hshort
  omega

/-- Names of different templates clash only in the hash of their identities. -/
theorem podGroupName_inj {a b : String} (ha : 11 ≤ a.length) (hb : 11 ≤ b.length)
    (heq : podGroupName platform jobSetName a = podGroupName platform jobSetName b)
    (hhash : podGroupHash platform (jobSetName ++ "/" ++ a) =
      podGroupHash platform (jobSetName ++ "/" ++ b) → a = b) : a = b := by
  by_cases hsa : (jobSetName ++ "-" ++ a).length ≤ 63 <;>
    by_cases hsb : (jobSetName ++ "-" ++ b).length ≤ 63
  · rw [podGroupName_short hsa, podGroupName_short hsb] at heq
    exact append_left_cancel heq
  · exact (podGroupName_short_ne_long h ha hsa hsb heq).elim
  · exact (podGroupName_short_ne_long h hb hsb hsa heq.symm).elim
  · rw [podGroupName_long hsa, podGroupName_long hsb] at heq
    exact hhash (append_left_cancel heq)

end PodGroupName

/-- The identities of the PodGroups of a JobSet. -/
def podGroupIdentities (platform : Platform) (js : JobSet) (scheduling : JobSetScheduling) :
    Set String :=
  {identity | ∃ s ∈ sources js scheduling, identity = js.name ++ "/" ++ s.templateName platform js}

/-- Templates have distinct PodGroup names when the truncated hash tells their identities
apart. -/
theorem podGroupNames_nodup {platform : Platform} (h : platform.Sha1) {js : JobSet}
    {scheduling : JobSetScheduling}
    (hnodup : ((sources js scheduling).map (Source.templateName platform js)).Nodup)
    (hinj : Set.InjOn (podGroupHash platform) (podGroupIdentities platform js scheduling)) :
    (podGroupNames platform js scheduling).Nodup := by
  have hmap : podGroupNames platform js scheduling =
      ((sources js scheduling).map (Source.templateName platform js)).map
        (schedulingPodGroupName platform js) := by
    rw [List.map_map]
    rfl
  rw [hmap]
  refine hnodup.map_on fun a ha b hb heq => ?_
  obtain ⟨p, hp, rfl⟩ := List.mem_map.mp ha
  obtain ⟨q, hq, rfl⟩ := List.mem_map.mp hb
  unfold schedulingPodGroupName at heq
  split_ifs at heq
  · exact heq
  · refine podGroupName_inj h (length_templateName h js p).1 (length_templateName h js q).1 heq
      fun hhash => ?_
    exact append_left_cancel (hinj ⟨p, hp, rfl⟩ ⟨q, hq, rfl⟩ hhash)

theorem length_schedulingPodGroupName {platform : Platform} (h : platform.Sha1) (js : JobSet)
    (s : Source) :
    (schedulingPodGroupName platform js (s.templateName platform js)).length ≤
      maxPodGroupNameLength := by
  unfold schedulingPodGroupName
  split_ifs
  · exact (length_templateName h js s).2
  · exact length_podGroupName h _

/-! ## Constructed Jobs -/

/-- The scheduling group `constructJob` writes. -/
theorem constructJob_schedulingGroup {platform : Platform} {gates : FeatureGates} {js : JobSet}
    {rjob : ReplicatedJob} {jobIdx : ℕ} {job : Job}
    (h : constructJob platform gates js rjob jobIdx = .ok job)
    (hgate : gates.jobSetWorkloadAwareSchedulingAPI = true)
    (hs : js.spec.scheduling.isSome = true) :
    job.annotations.get schedulingGroupTemplateNameKey =
        schedulingGroupTemplateName platform js rjob.name jobIdx ∧
      job.spec.template.schedulingGroup = some (some (schedulingPodGroupName platform js
        (schedulingGroupTemplateName platform js rjob.name jobIdx))) := by
  have hgroup : schedulingGroup platform gates js rjob jobIdx =
      some (schedulingGroupTemplateName platform js rjob.name jobIdx,
        schedulingPodGroupName platform js
          (schedulingGroupTemplateName platform js rjob.name jobIdx)) :=
    if_pos ⟨hgate, hs⟩
  unfold constructJob at h
  obtain ⟨individual, -, h⟩ := except_bind_ok h
  cases h
  unfold constructPodTemplate
  simp only [hgroup]
  exact ⟨by simp [StrMap.get], trivial⟩

/-- A Job as the server has it: it keeps labels and annotations, and may strip the
scheduling group. -/
structure ServedFrom (sent job : Job) : Prop where
  labels : job.labels = sent.labels
  annotations : job.annotations = sent.annotations
  schedulingGroup : job.spec.template.schedulingGroup = none ∨
    job.spec.template.schedulingGroup = sent.spec.template.schedulingGroup

/-- A Job of the current configuration needs no recreation. -/
theorem not_schedulingJobNeedsRecreation {platform : Platform} {gates : FeatureGates}
    {js : JobSet} {rjob : ReplicatedJob} {jobIdx : ℕ} {sent job : Job}
    (h : constructJob platform gates js rjob jobIdx = .ok sent) (hserved : ServedFrom sent job)
    (hgate : gates.jobSetWorkloadAwareSchedulingAPI = true)
    (hs : js.spec.scheduling.isSome = true) (hidx : (jobIdx : ℤ) < 2 ^ 63) :
    schedulingJobNeedsRecreation platform js job = false := by
  obtain ⟨-, hname, hindex, -, -⟩ := constructJob_labels h
  obtain ⟨hstamp, hgroup⟩ := constructJob_schedulingGroup h hgate hs
  have hatoi : atoi (job.labels.get jobIndexKey) = some (jobIdx : ℤ) := by
    rw [hserved.labels, StrMap.get, hindex, Option.getD_some, atoi_itoa (by omega) hidx]
  unfold schedulingJobNeedsRecreation
  rw [hserved.labels, hname]
  rw [hserved.labels] at hatoi
  simp only [hatoi, hserved.annotations, hstamp, ne_eq, not_true_eq_false, decide_false,
    Bool.false_or]
  rcases hserved.schedulingGroup with hnone | hsame
  · rw [hnone]
  · rw [hsame, hgroup]
    simp

/-! ## Agreement -/

/-- A template of the name, and a PodGroup of the name that is stored from it. -/
def Materialized (w : Webhook) (js : JobSet) (s : SchedulingStore)
    (templateName pgName : String) : Prop :=
  ∃ scheduling wl, js.spec.scheduling = some scheduling ∧
    buildWorkload w.platform w.lib js scheduling = .ok wl ∧
    ∃ tmpl ∈ wl.podGroupTemplates, tmpl.name = templateName ∧
      (∃ spec, s.workloads (workloadName w.platform js) = some (.live spec) ∧
        ∃ stored ∈ spec.podGroupTemplates, tmpl.Normalizes stored) ∧
      ∃ spec, s.podGroups pgName = some (.live spec) ∧ tmpl.podGroup.Normalizes spec

/-- A Job of the JobSet, constructed from its spec whatever the status then was, and as
the server has it. -/
def ConstructedFor (w : Webhook) (js : JobSet) (job : Job) : Prop :=
  ∃ js' rjob jobIdx sent, SameObject js js' ∧ js'.spec = js.spec ∧
    rjob ∈ js.spec.replicatedJobs ∧ jobIdx < rjob.replicas ∧
    constructJob w.platform w.gates js' rjob jobIdx = .ok sent ∧ ServedFrom sent job

/-- The mapping of the builders and the lookup of `constructJob` agree. -/
structure MappingsAgree (w : Webhook) (js : JobSet) (scheduling : JobSetScheduling) : Prop where
  template {rjob : ReplicatedJob} {jobIdx : ℕ} (hr : rjob ∈ js.spec.replicatedJobs)
    (hi : jobIdx < rjob.replicas) :
    ∃ builders, newBuildersForJobSet w.platform js scheduling = .ok builders ∧
      ∃! i : Fin builders.length,
        builders[i].name = schedulingGroupTemplateName w.platform js rjob.name jobIdx
  job {rjob : ReplicatedJob} {jobIdx : ℕ} {job : Job} {s s' : SchedulingStore}
    {t : List (Σ r : SchedulingRequest, r.Response)} (hr : rjob ∈ js.spec.replicatedJobs)
    (hi : jobIdx < rjob.replicas) (h : constructJob w.platform w.gates js rjob jobIdx = .ok job)
    (hs : Managed w js scheduling (· = js) s) (run : ObjectsPass True w js s t (.ok ()) s') :
    ∃ pgName, job.spec.template.schedulingGroup = some (some pgName) ∧
      Materialized w js s' (job.annotations.get schedulingGroupTemplateNameKey) pgName
  podGroupNames {builders : List WorkloadItem}
    (h : newBuildersForJobSet w.platform js scheduling = .ok builders) :
    (builders.map fun item => schedulingPodGroupName w.platform js item.name).Nodup ∧
      ∀ item ∈ builders, (schedulingPodGroupName w.platform js item.name).length ≤ 63
  stable {jobs : List Job} (h : ∀ job ∈ jobs, ConstructedFor w js job) :
    schedulingJobsNeedRecreation w.platform js jobs = false

theorem schedulingJobNeedsRecreation_congr {platform : Platform} {js js' : JobSet}
    (hsame : SameObject js js') (hspec : js'.spec = js.spec) (job : Job) :
    schedulingJobNeedsRecreation platform js' job = schedulingJobNeedsRecreation platform js job := by
  unfold schedulingJobNeedsRecreation schedulingPodGroupName schedulingGroupTemplateName
    topLevelTemplateName perRJTemplateName perJobTemplateName groupTemplateName
  rw [hsame.name, hsame.inNamespace, hspec]

theorem forall₂_mem_left {α β : Type} {R : α → β → Prop} {l : List α} {l' : List β}
    (h : List.Forall₂ R l l') {a : α} (ha : a ∈ l) : ∃ b ∈ l', R a b := by
  induction h with
  | nil => cases ha
  | cons hfirst _ ih =>
    rcases List.mem_cons.mp ha with rfl | ha
    · exact ⟨_, List.mem_cons_self, hfirst⟩
    · obtain ⟨b, hb, hab⟩ := ih ha
      exact ⟨b, List.mem_cons_of_mem _ hb, hab⟩

/-- The number of Jobs is one of 32 bits. -/
theorem Admitted.replicas_lt {w : Webhook} {js : JobSet} (h : Admitted w js)
    {rjob : ReplicatedJob} (hr : rjob ∈ js.spec.replicatedJobs) : rjob.replicas < 2 ^ 31 := by
  have hschema := h.schemaValid
  unfold JobSetOperator.schemaValid at hschema
  simp only [Bool.and_eq_true] at hschema
  have hsizes := List.all_eq_true.mp hschema.1.1.2 rjob hr
  simp only [Bool.and_eq_true] at hsizes
  have hint := hsizes.1.1
  unfold isInt32 at hint
  rw [decide_eq_true_eq] at hint
  omega

/-- The two scheduling mappings of an admitted JobSet agree. -/
theorem mappings_agree {w : Webhook} (hlib : w.lib.Copies) (hsha : w.platform.Sha1) {js : JobSet}
    (hadm : Admitted w js) {scheduling : JobSetScheduling}
    (hs : js.spec.scheduling = some scheduling)
    (hinj : Set.InjOn (podGroupHash w.platform)
      (podGroupIdentities w.platform js scheduling)) : MappingsAgree w js scheduling := by
  have htargeted := hadm.targeted hs
  obtain ⟨hgate, hchecked⟩ := hadm.schedulingChecked scheduling hs
  obtain ⟨builders, hbuilders, -⟩ := hchecked.built
  obtain ⟨rfl, hnodup⟩ := newBuildersForJobSet_ok hbuilders
  have hsome : js.spec.scheduling.isSome = true := by rw [hs]; rfl
  have hdistinct := podGroupNames_nodup hsha hnodup hinj
  constructor
  case template =>
    intro rjob jobIdx hr hi
    refine ⟨_, hbuilders, ?_⟩
    obtain ⟨i, hi', hget⟩ := List.mem_iff_getElem.mp (htargeted.sourceOf_mem hr hi)
    have hname := htargeted.sourceOf_templateName hs w.platform hr jobIdx
    refine ⟨⟨i, by simpa using hi'⟩, ?_, ?_⟩
    · simp [hget, hname]
    · intro j hj
      have hlt : j.1 < (sources js scheduling).length := by simpa using j.2
      have hjname : (sources js scheduling)[j.1].templateName w.platform js =
          schedulingGroupTemplateName w.platform js rjob.name jobIdx := by simpa using hj
      have hsource : (sources js scheduling)[j.1] = (sources js scheduling)[i] := by
        refine List.inj_on_of_nodup_map hnodup (List.getElem_mem hlt) (List.getElem_mem hi') ?_
        rw [hjname, hget, hname]
      exact Fin.ext ((List.Nodup.getElem_inj_iff hnodup.of_map).mp hsource)
  case job =>
    intro rjob jobIdx job s s' t hr hi h hmanaged run
    obtain ⟨hstamp, hgroup⟩ := constructJob_schedulingGroup h hgate hsome
    refine ⟨_, hgroup, ?_⟩
    rw [hstamp]
    cases hwl : buildWorkload w.platform w.lib js scheduling with
    | error err =>
      obtain ⟨-, -, err, herr⟩ := run.of_build_error hs hwl
      cases herr
    | ok wl =>
      have hnames := (Rescaled.refl js).podGroupNames hlib hs hs hwl
      have hsettled := ((run.step hlib hs hwl (hnames ▸ hdistinct)
        (hmanaged.exact hlib hs hdistinct hwl) (fun _ => trivial) fun _ => trivial).2).ok rfl
      have htmpl : ((sourceOf js scheduling rjob jobIdx).item w.platform js scheduling).template ∈
          wl.podGroupTemplates := by
        rw [(buildWorkload_templates hlib hwl).1]
        exact List.mem_map_of_mem (htargeted.sourceOf_mem hr hi)
      have hname : ((sourceOf js scheduling rjob jobIdx).item w.platform js scheduling).template.name =
          schedulingGroupTemplateName w.platform js rjob.name jobIdx :=
        (Source.item_name ..).trans (htargeted.sourceOf_templateName hs w.platform hr jobIdx)
      refine ⟨scheduling, wl, hs, hwl, _, htmpl, hname, ?_, ?_⟩
      · obtain ⟨spec, hspec, hkeeps⟩ := hsettled.workload
        exact ⟨spec, hspec, forall₂_mem_left hkeeps htmpl⟩
      · obtain ⟨spec, hspec, hnorm⟩ := hsettled.podGroup _ htmpl
        rw [hname] at hspec
        exact ⟨spec, hspec, hnorm⟩
  case podGroupNames =>
    intro items hitems
    rw [hbuilders] at hitems
    cases hitems
    constructor
    · have hmap : ((sources js scheduling).map (Source.item w.platform js scheduling)).map
          (fun item => schedulingPodGroupName w.platform js item.name) =
          JobSetOperator.podGroupNames w.platform js scheduling := by
        rw [List.map_map]
        exact List.map_congr_left fun s _ => by rw [Function.comp_apply, Source.item_name]
      rwa [hmap]
    · intro item hitem
      obtain ⟨s, -, rfl⟩ := List.mem_map.mp hitem
      rw [Source.item_name]
      exact length_schedulingPodGroupName hsha js s
  case stable =>
    intro jobs h
    unfold schedulingJobsNeedRecreation
    rw [List.any_eq_false]
    intro job hjob
    obtain ⟨js', rjob, jobIdx, sent, hsame, hspec, hr, hi, hsent, hserved⟩ := h job hjob
    have hreplicas := hadm.replicas_lt hr
    rw [← schedulingJobNeedsRecreation_congr hsame hspec]
    have hfresh := not_schedulingJobNeedsRecreation hsent hserved hgate (hspec ▸ hsome) (by omega)
    rw [hfresh]
    exact Bool.false_ne_true

/-! ## A JobSet with two gangs -/

/-- Digests of the JobSet `train` with a gang for each ReplicatedJob. -/
def pairDigests : Platform where
  sha1Hash identity :=
    if identity = "ReplicatedJobGroup/default/train/a" then
      "8291fed9e36a52c22d7669e9e94986d709d6a936"
    else if identity = "ReplicatedJobGroup/default/train/b" then
      "2c6f84887dc8b5f7774d7822d0658f0ad27965d2"
    else if identity = "train/a-8291fed9e3" then "e5023265d20060716e265c3a5cd909497dd5482d"
    else if identity = "train/b-2c6f84887d" then "2896a0f4858b7944028c3cb7ce5014afc71db99f"
    else "da39a3ee5e6b4b0d3255bfef95601890afd80709"
  matchString _ _ := some true

def pairWebhook : Webhook := { trainWebhook with platform := pairDigests }

def trainPair : JobSetScheduling :=
  ⟨none, none, none, [⟨["a"], none, none, none, none⟩, ⟨["b"], none, none, none, none⟩]⟩

def pairSet : JobSet :=
  let js := trainSet 3
  defaultJobSet schedulingGates { js with spec := { js.spec with scheduling := some trainPair } }

theorem pairDigests_sha1 : pairDigests.Sha1 := by
  intro text
  unfold pairDigests
  dsimp only
  split_ifs <;> rfl

theorem pairSet_templateNames :
    (sources pairSet trainPair).map (Source.templateName pairDigests pairSet) = ["a-8291fed9e3", "b-2c6f84887d"] := by
  decide +kernel

/-- The mappings of `train` with two gangs agree. -/
theorem mappings_agree_train :
    Admitted pairWebhook pairSet ∧ pairSet.spec.scheduling = some trainPair ∧ pairDigests.Sha1 ∧
      MappingsAgree pairWebhook pairSet trainPair := by
  have hadm : Admitted pairWebhook pairSet := by
    apply Admitted.create
    · decide +kernel
    · decide +kernel
  have hidentity : ∀ identity ∈ podGroupIdentities pairDigests pairSet trainPair,
      identity = "train/a-8291fed9e3" ∨ identity = "train/b-2c6f84887d" := by
    rintro identity ⟨s, hs, rfl⟩
    have hmem := List.mem_map_of_mem (f := Source.templateName pairDigests pairSet) hs
    rw [pairSet_templateNames] at hmem
    simp only [List.mem_cons, List.not_mem_nil, or_false] at hmem
    rcases hmem with hname | hname
    · exact Or.inl (by rw [hname]; decide +kernel)
    · exact Or.inr (by rw [hname]; decide +kernel)
  have hinj : Set.InjOn (podGroupHash pairDigests)
      (podGroupIdentities pairDigests pairSet trainPair) := by
    intro x hx y hy heq
    have hne : podGroupHash pairDigests "train/a-8291fed9e3" ≠
        podGroupHash pairDigests "train/b-2c6f84887d" := by
      decide +kernel
    rcases hidentity x hx with rfl | rfl <;> rcases hidentity y hy with rfl | rfl
    · rfl
    · exact (hne heq).elim
    · exact (hne heq.symm).elim
    · rfl
  have hs : pairSet.spec.scheduling = some trainPair := by decide +kernel
  have hlib : pairWebhook.lib.Copies := copyingLibrary_copies
  have hsha : pairWebhook.platform.Sha1 := pairDigests_sha1
  have hagree : MappingsAgree pairWebhook pairSet trainPair :=
    mappings_agree hlib hsha hadm hs hinj
  exact ⟨hadm, hs, hsha, hagree⟩

end JobSetOperator
