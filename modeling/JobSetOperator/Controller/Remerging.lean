import JobSetOperator.Controller.Resuming

/-!
# Resuming again and again

`resumeJob` merges five fields of the template into the pod template of the Job.
The maps and the scheduling gates settle with the first resumption. So do the
tolerations as a set; but a toleration with seconds is compared by the pointer to
them, so each resumption adds the ones of the template once more.
-/
namespace JobSetOperator

open Library Library.Program

/-! ## Slices of tolerations -/

theorem loadTolerations_cons (start : ℕ) (t : Toleration) (ts : List Toleration) :
    loadTolerations start (t :: ts) = t.load start :: loadTolerations (start + 1) ts := rfl

theorem loadTolerations_append (ts ts' : List Toleration) :
    loadTolerations 0 ts ++ loadTolerations ts.length ts' = loadTolerations 0 (ts ++ ts') := by
  simp [loadTolerations, List.zipIdx_append]

@[simp] theorem stored_load (t : Toleration) (address : ℕ) : (t.load address).stored = t := by
  cases t with
  | mk key operator value effect seconds => cases seconds <;> rfl

theorem mem_loadTolerations {start : ℕ} {ts : List Toleration} {x : LoadedToleration} :
    x ∈ loadTolerations start ts → ∃ t ∈ ts, ∃ address, start ≤ address ∧ x = t.load address := by
  induction ts generalizing start with
  | nil => simp [loadTolerations]
  | cons t ts ih =>
    rw [loadTolerations_cons]
    intro hx
    rcases List.mem_cons.mp hx with rfl | hx
    · exact ⟨t, List.mem_cons_self, start, le_rfl, rfl⟩
    · obtain ⟨t', ht', address, hle, rfl⟩ := ih hx
      exact ⟨t', List.mem_cons_of_mem _ ht', address, by omega, rfl⟩

/-- Without seconds there is no pointer, and the address does not matter. -/
theorem load_of_none {t : Toleration} (h : t.tolerationSeconds = none) (address address' : ℕ) :
    t.load address = t.load address' := by
  simp [Toleration.load, h]

theorem load_mem_iff_of_none {start address : ℕ} {t : Toleration} {ts : List Toleration}
    (h : t.tolerationSeconds = none) :
    t.load address ∈ loadTolerations start ts ↔ t ∈ ts := by
  constructor
  · intro hmem
    obtain ⟨t', ht', address', -, heq⟩ := mem_loadTolerations hmem
    have hstored := congrArg LoadedToleration.stored heq
    rw [stored_load, stored_load] at hstored
    rw [hstored]
    exact ht'
  · intro hmem
    induction ts generalizing start with
    | nil => simp at hmem
    | cons t' ts ih =>
      rw [loadTolerations_cons]
      rcases List.mem_cons.mp hmem with rfl | hmem
      · rw [load_of_none h address start]
        exact List.mem_cons_self
      · exact List.mem_cons_of_mem _ (ih hmem)

/-- A toleration with seconds equals none that was read after it. -/
theorem load_notMem_of_some {start : ℕ} {t : Toleration} {ts : List Toleration} {seconds : ℤ}
    (h : t.tolerationSeconds = some seconds) : t.load start ∉ loadTolerations (start + 1) ts := by
  intro hmem
  obtain ⟨t', -, address, hle, heq⟩ := mem_loadTolerations hmem
  have hpointer := congrArg LoadedToleration.tolerationSeconds heq
  simp only [Toleration.load, h, Option.map_some] at hpointer
  obtain ⟨seconds', -, hpair⟩ := Option.map_eq_some_iff.mp hpointer.symm
  have haddress := congrArg Prod.fst hpair
  simp only at haddress
  omega

/-- How often a value is listed after the merge. -/
theorem count_dedup_loadTolerations (start : ℕ) (ts : List Toleration) (v : Toleration) :
    ((loadTolerations start ts).dedup.map (·.stored)).count v =
      if v.tolerationSeconds = none then (if v ∈ ts then 1 else 0) else ts.count v := by
  induction ts generalizing start with
  | nil => simp [loadTolerations]
  | cons t ts ih =>
    rw [loadTolerations_cons]
    cases hseconds : t.tolerationSeconds with
    | some seconds =>
      rw [List.dedup_cons_of_notMem (load_notMem_of_some hseconds), List.map_cons, stored_load,
        List.count_cons, ih]
      by_cases hv : t = v
      · subst hv
        simp [hseconds]
      · have hv' : v ≠ t := fun h => hv h.symm
        simp [hv, hv']
    | none =>
      by_cases hlisted : t ∈ ts
      · rw [List.dedup_cons_of_mem ((load_mem_iff_of_none hseconds).mpr hlisted), ih]
        by_cases hv : t = v
        · subst hv
          simp [hseconds, hlisted]
        · have hv' : v ≠ t := fun h => hv h.symm
          simp [hv, hv']
      · rw [List.dedup_cons_of_notMem (fun hmem => hlisted ((load_mem_iff_of_none hseconds).mp hmem)),
          List.map_cons, stored_load, List.count_cons, ih]
        by_cases hv : t = v
        · subst hv
          simp [hseconds, hlisted]
        · have hv' : v ≠ t := fun h => hv h.symm
          simp [hv, hv']

theorem count_mergeTolerations (job template : List Toleration) (v : Toleration) :
    (mergeTolerations job template).count v =
      if v.tolerationSeconds = none then (if v ∈ job ∨ v ∈ template then 1 else 0)
      else job.count v + template.count v := by
  unfold mergeTolerations mergeSlices
  rw [loadTolerations_append, count_dedup_loadTolerations]
  simp [List.count_append]

theorem mem_mergeTolerations {job template : List Toleration} {v : Toleration} :
    v ∈ mergeTolerations job template ↔ v ∈ job ∨ v ∈ template := by
  rw [← List.count_pos_iff, count_mergeTolerations]
  by_cases hseconds : v.tolerationSeconds = none
  · rw [if_pos hseconds]
    split_ifs with hlisted
    · simp [hlisted]
    · simp [hlisted]
  · rw [if_neg hseconds, ← List.count_pos_iff, ← List.count_pos_iff]
    omega

/-! ## One resumption -/

/-- The template `resumeJob` applies to a Job: the one of its ReplicatedJob, with the execution
attempt when it is tracked. -/
def appliedTemplate (gates : FeatureGates) (js : JobSet) (job : Job) : PodTemplateSpec :=
  let source := replicatedJobTemplate js (job.labels.get replicatedJobNameKey)
  let attempts := itoa (js.status.executionAttempts.getD 0 : ℕ)
  if gates.executionAttemptsTracking then
    { source with annotations := source.annotations.insert executionAttemptsKey attempts }
  else source

/-- What the server returns for a Job that was written. The slices come in the order in which a
map was traversed, which is any. -/
structure ReadBack (written job : Job) : Prop where
  jobLabels : job.labels = written.labels
  labels : job.spec.template.labels = written.spec.template.labels
  annotations : job.spec.template.annotations = written.spec.template.annotations
  nodeSelector : job.spec.template.nodeSelector = written.spec.template.nodeSelector
  tolerations : job.spec.template.tolerations.Perm written.spec.template.tolerations
  schedulingGates : job.spec.template.schedulingGates.Perm written.spec.template.schedulingGates

/-- The Job is resumed without error, stored and read again. -/
def Resumption (env : Env) (js : JobSet) (job job' : Job) : Prop :=
  ∃ t written, Path (fun _ _ => True) (resumeJob env js job) t (.ok ()) ∧
    ⟨.updateJob written, Except.ok ()⟩ ∈ t ∧ ReadBack written job'

section OneResumption

variable {env : Env} {js : JobSet} {job job' : Job}

theorem resumedJob_template (gates : FeatureGates)
    (hlabel : job.labels.get replicatedJobNameKey ≠ "") :
    (resumedJob gates js job).spec.template =
      mergeTemplate job.spec.template (appliedTemplate gates js job) := by
  unfold resumedJob
  dsimp only
  rw [if_pos hlabel]
  unfold stampAttempt appliedTemplate
  cases gates.executionAttemptsTracking with
  | false => rfl
  | true =>
    have hstamp : ∀ source : PodTemplateSpec, ∀ attempts : String,
        (mergeMaps job.spec.template.annotations source.annotations).insert executionAttemptsKey
          attempts = mergeMaps job.spec.template.annotations
            (source.annotations.insert executionAttemptsKey attempts) :=
      fun _ _ => Finmap.insert_union
    simp [mergeTemplate, hstamp]

/-- The Job that a resumption writes, up to its version and its status. -/
theorem written_of_path {t : Trace} {written : Job}
    (hpath : Path (fun _ _ => True) (resumeJob env js job) t (.ok ()))
    (hwritten : ⟨.updateJob written, Except.ok ()⟩ ∈ t) :
    ∃ read : Job, read.labels = job.labels ∧ read.spec = job.spec ∧
      written = resumedJob env.gates js read := by
  unfold resumeJob at hpath
  split_ifs at hpath
  · obtain ⟨answer, t', -, ht, hrest⟩ := path_ask_bind.mp hpath
    rcases path_bind.mp hrest with ⟨e, he, -⟩ | ⟨t₁, t₂, version, ht', hlift, hwrite⟩
    · cases he
    · obtain ⟨rfl, -⟩ := path_liftExcept_ok hlift
      rw [ht, ht', path_updateJob_ok hwrite] at hwritten
      refine ⟨{ job.cleared with resourceVersion := version }, rfl, rfl, ?_⟩
      rcases List.mem_cons.mp hwritten with hstatus | hupdate
      · cases congrArg Sigma.fst hstatus
      · exact Request.updateJob.inj (congrArg Sigma.fst (List.mem_singleton.mp hupdate))
  · rw [path_updateJob_ok hpath] at hwritten
    refine ⟨job, rfl, rfl, ?_⟩
    exact Request.updateJob.inj (congrArg Sigma.fst (List.mem_singleton.mp hwritten))

/-- The fields after one resumption. -/
theorem Resumption.merged (hlabel : job.labels.get replicatedJobNameKey ≠ "")
    (h : Resumption env js job job') : ∃ written : Job,
      ReadBack written job' ∧ written.labels = job.labels ∧ written.spec.template =
        mergeTemplate job.spec.template (appliedTemplate env.gates js job) := by
  obtain ⟨t, written, hpath, hwritten, hback⟩ := h
  obtain ⟨read, hlabels, hspec, rfl⟩ := written_of_path hpath hwritten
  refine ⟨_, hback, ?_, ?_⟩
  · rw [resumedJob_labels, hlabels]
  · rw [resumedJob_template env.gates (hlabels ▸ hlabel), hspec]
    unfold appliedTemplate
    rw [hlabels]

/-- Every Job can be resumed. -/
theorem exists_resumption (env : Env) (js : JobSet) (job : Job) :
    ∃ job', Resumption env js job job' := by
  have hself : ∀ written : Job, ReadBack written written := fun _ =>
    ⟨rfl, rfl, rfl, rfl, List.Perm.refl _, List.Perm.refl _⟩
  by_cases hstarted : job.status.startTime.isSome = true
  · let written := resumedJob env.gates js { job.cleared with resourceVersion := 0 }
    refine ⟨written, [⟨.updateJobStatus job.cleared, Except.ok 0⟩, ⟨.updateJob written, Except.ok ()⟩],
      written, ?_, by simp, hself written⟩
    unfold resumeJob
    rw [if_pos hstarted]
    exact ⟨_, _, trivial, rfl, _, _, trivial, rfl, rfl, rfl⟩
  · let written := resumedJob env.gates js job
    refine ⟨written, [⟨.updateJob written, Except.ok ()⟩], written, ?_, by simp, hself written⟩
    unfold resumeJob
    rw [if_neg hstarted]
    exact ⟨_, _, trivial, rfl, rfl, rfl⟩

end OneResumption

/-! ## Any number of resumptions -/

/-- The entries of the template are in the merged map, and so are those only the Job had. -/
def MapMerged (own source merged : StrMap) : Prop :=
  (∀ key value, source.lookup key = some value → merged.lookup key = some value) ∧
    ∀ key value, own.lookup key = some value → source.lookup key = none →
      merged.lookup key = some value

/-- The elements of the template and of the Job are in the merged slice, and none is in it twice
that neither of them listed twice. -/
def SliceMerged {α : Type} [DecidableEq α] (own source merged : List α) : Prop :=
  (∀ x ∈ source, x ∈ merged) ∧ (∀ x ∈ own, x ∈ merged) ∧
    ∀ x, 2 ≤ merged.count x → 2 ≤ own.count x ∨ 2 ≤ source.count x

/-- The five fields of a template merged into those of a Job. -/
structure TemplateMerged (own source merged : PodTemplateSpec) : Prop where
  labels : MapMerged own.labels source.labels merged.labels
  annotations : MapMerged own.annotations source.annotations merged.annotations
  nodeSelector : MapMerged own.nodeSelector source.nodeSelector merged.nodeSelector
  tolerations : SliceMerged own.tolerations source.tolerations merged.tolerations
  schedulingGates : SliceMerged own.schedulingGates source.schedulingGates merged.schedulingGates

/-- The five fields are equal, the slices as sets. -/
structure SameFields (a b : PodTemplateSpec) : Prop where
  labels : a.labels = b.labels
  annotations : a.annotations = b.annotations
  nodeSelector : a.nodeSelector = b.nodeSelector
  tolerations : ∀ t, t ∈ a.tolerations ↔ t ∈ b.tolerations
  schedulingGates : ∀ g, g ∈ a.schedulingGates ↔ g ∈ b.schedulingGates

/-- Resuming a Job any number of times does to the pod template what resuming it once does:
the template of the ReplicatedJob is merged into it. -/
def ResumesIdempotently (env : Env) (js : JobSet) (job : Job) : Prop :=
  ∀ seq : ℕ → Job, seq 0 = job → (∀ n, Resumption env js (seq n) (seq (n + 1))) →
    ∀ n, SameFields (seq (n + 1)).spec.template (seq 1).spec.template ∧
      TemplateMerged job.spec.template (appliedTemplate env.gates js job)
        (seq (n + 1)).spec.template

theorem mergeMaps_lookup (own source : StrMap) (key : String) :
    (mergeMaps own source).lookup key = (source.lookup key).or (own.lookup key) := by
  unfold mergeMaps
  by_cases h : key ∈ source
  · rw [Finmap.lookup_union_left h]
    obtain ⟨value, hvalue⟩ := Finmap.mem_iff.mp h
    rw [hvalue]
    rfl
  · rw [Finmap.lookup_union_right h, Finmap.lookup_eq_none.mpr h]
    rfl

/-- Merging the same map again changes nothing. -/
theorem mergeMaps_again (own source : StrMap) :
    mergeMaps (mergeMaps own source) source = mergeMaps own source := by
  apply Finmap.ext_lookup
  intro key
  simp only [mergeMaps_lookup]
  cases source.lookup key <;> rfl

theorem mapMerged_mergeMaps (own source : StrMap) : MapMerged own source (mergeMaps own source) := by
  constructor
  · intro key value h
    simp [mergeMaps_lookup, h]
  · intro key value hown hsource
    simp [mergeMaps_lookup, hown, hsource]

theorem mem_mergeSlices {α : Type} [DecidableEq α] {own source : List α} {x : α} :
    x ∈ mergeSlices own source ↔ x ∈ own ∨ x ∈ source := by
  simp [mergeSlices]

section History

variable {env : Env} {js : JobSet} {seq : ℕ → Job}
  (hlabel : (seq 0).labels.get replicatedJobNameKey ≠ "")
  (hseq : ∀ n, Resumption env js (seq n) (seq (n + 1)))

include hlabel hseq

/-- The label stays, and with it the template that is applied. -/
theorem history_labels (n : ℕ) : (seq n).labels = (seq 0).labels := by
  induction n with
  | zero => rfl
  | succ n ih =>
    obtain ⟨written, hback, hlabels, -⟩ := (hseq n).merged (ih ▸ hlabel)
    rw [hback.jobLabels, hlabels, ih]

theorem history_applied (n : ℕ) :
    appliedTemplate env.gates js (seq n) = appliedTemplate env.gates js (seq 0) := by
  unfold appliedTemplate
  rw [history_labels hlabel hseq n]

theorem history_step (n : ℕ) : ∃ written : Job, ReadBack written (seq (n + 1)) ∧
    written.spec.template =
      mergeTemplate (seq n).spec.template (appliedTemplate env.gates js (seq 0)) := by
  have hn : (seq n).labels.get replicatedJobNameKey ≠ "" := by
    rw [history_labels hlabel hseq n]
    exact hlabel
  obtain ⟨written, hback, -, htemplate⟩ := (hseq n).merged hn
  rw [history_applied hlabel hseq n] at htemplate
  exact ⟨written, hback, htemplate⟩

/-- The maps after any resumption are those after one. -/
theorem history_maps (n : ℕ) :
    (seq (n + 1)).spec.template.labels = mergeMaps (seq 0).spec.template.labels
      (appliedTemplate env.gates js (seq 0)).labels ∧
    (seq (n + 1)).spec.template.annotations = mergeMaps (seq 0).spec.template.annotations
      (appliedTemplate env.gates js (seq 0)).annotations ∧
    (seq (n + 1)).spec.template.nodeSelector = mergeMaps (seq 0).spec.template.nodeSelector
      (appliedTemplate env.gates js (seq 0)).nodeSelector := by
  induction n with
  | zero =>
    obtain ⟨written, hback, htemplate⟩ := history_step hlabel hseq 0
    rw [hback.labels, hback.annotations, hback.nodeSelector, htemplate]
    exact ⟨rfl, rfl, rfl⟩
  | succ n ih =>
    obtain ⟨written, hback, htemplate⟩ := history_step hlabel hseq (n + 1)
    obtain ⟨hlabels, hannotations, hselector⟩ := ih
    rw [hback.labels, hback.annotations, hback.nodeSelector, htemplate]
    simp only [mergeTemplate, hlabels, hannotations, hselector, mergeMaps_again]
    exact ⟨trivial, trivial, trivial⟩

/-- The tolerations after any resumption: those with seconds are added each time. -/
theorem history_tolerations (n : ℕ) (v : Toleration) :
    (seq (n + 1)).spec.template.tolerations.count v =
      if v.tolerationSeconds = none then
        (if v ∈ (seq 0).spec.template.tolerations ∨
          v ∈ (appliedTemplate env.gates js (seq 0)).tolerations then 1 else 0)
      else (seq 0).spec.template.tolerations.count v +
        (n + 1) * (appliedTemplate env.gates js (seq 0)).tolerations.count v := by
  induction n with
  | zero =>
    obtain ⟨written, hback, htemplate⟩ := history_step hlabel hseq 0
    rw [hback.tolerations.count_eq, htemplate]
    change (mergeTolerations _ _).count v = _
    rw [count_mergeTolerations, zero_add, one_mul]
  | succ n ih =>
    obtain ⟨written, hback, htemplate⟩ := history_step hlabel hseq (n + 1)
    rw [hback.tolerations.count_eq, htemplate]
    change (mergeTolerations _ _).count v = _
    rw [count_mergeTolerations, ih]
    by_cases hseconds : v.tolerationSeconds = none
    · rw [if_pos hseconds, if_pos hseconds]
      rw [if_pos hseconds] at ih
      have hmem : v ∈ (seq (n + 1)).spec.template.tolerations ↔
          v ∈ (seq 0).spec.template.tolerations ∨
            v ∈ (appliedTemplate env.gates js (seq 0)).tolerations := by
        rw [← List.count_pos_iff, ih]
        split_ifs with hlisted
        · simp [hlisted]
        · simp [hlisted]
      simp only [hmem, or_assoc, or_self]
    · rw [if_neg hseconds, if_neg hseconds, if_neg hseconds]
      ring

/-- The scheduling gates after any resumption. -/
theorem history_schedulingGates (n : ℕ) :
    (seq (n + 1)).spec.template.schedulingGates.Nodup ∧
    ∀ g, g ∈ (seq (n + 1)).spec.template.schedulingGates ↔
      g ∈ (seq 0).spec.template.schedulingGates ∨
        g ∈ (appliedTemplate env.gates js (seq 0)).schedulingGates := by
  induction n with
  | zero =>
    obtain ⟨written, hback, htemplate⟩ := history_step hlabel hseq 0
    rw [hback.schedulingGates.nodup_iff, htemplate]
    refine ⟨List.nodup_dedup _, fun g => ?_⟩
    rw [hback.schedulingGates.mem_iff, htemplate]
    exact mem_mergeSlices
  | succ n ih =>
    obtain ⟨written, hback, htemplate⟩ := history_step hlabel hseq (n + 1)
    rw [hback.schedulingGates.nodup_iff, htemplate]
    refine ⟨List.nodup_dedup _, fun g => ?_⟩
    rw [hback.schedulingGates.mem_iff, htemplate]
    change g ∈ mergeSlices _ _ ↔ _
    rw [mem_mergeSlices, ih.2 g]
    tauto

theorem history_mem_tolerations (n : ℕ) (v : Toleration) :
    v ∈ (seq (n + 1)).spec.template.tolerations ↔ v ∈ (seq 0).spec.template.tolerations ∨
      v ∈ (appliedTemplate env.gates js (seq 0)).tolerations := by
  rw [← List.count_pos_iff, history_tolerations hlabel hseq]
  by_cases hseconds : v.tolerationSeconds = none
  · rw [if_pos hseconds]
    split_ifs with hlisted
    · simp [hlisted]
    · simp [hlisted]
  · rw [if_neg hseconds, ← List.count_pos_iff, ← List.count_pos_iff]
    have hpos : 0 < (n + 1) * (appliedTemplate env.gates js (seq 0)).tolerations.count v ↔
        0 < (appliedTemplate env.gates js (seq 0)).tolerations.count v := by simp
    omega

end History

/-- Every Job has a history of resumptions. -/
theorem exists_history (env : Env) (js : JobSet) (job : Job) :
    ∃ seq : ℕ → Job, seq 0 = job ∧ ∀ n, Resumption env js (seq n) (seq (n + 1)) := by
  choose next hnext using exists_resumption env js
  refine ⟨fun n => next^[n] job, rfl, fun n => ?_⟩
  simp only [Function.iterate_succ_apply']
  exact hnext _

/-- The tolerations of the template that have seconds are listed twice in the template or in the
Job from the start. -/
def SecondsRepeated (job : Job) (source : PodTemplateSpec) : Prop :=
  ∀ t ∈ source.tolerations, t.tolerationSeconds ≠ none →
    2 ≤ job.spec.template.tolerations.count t ∨ 2 ≤ source.tolerations.count t

/-- Two resumptions list a toleration of the template with seconds twice. -/
theorem ResumesIdempotently.repeated {env : Env} {js : JobSet} {job : Job}
    (hlabel : job.labels.get replicatedJobNameKey ≠ "") (h : ResumesIdempotently env js job) :
    SecondsRepeated job (appliedTemplate env.gates js job) := by
  intro t ht hseconds
  obtain ⟨seq, rfl, hseq⟩ := exists_history env js job
  obtain ⟨-, hmerged⟩ := h seq rfl hseq 1
  apply hmerged.tolerations.2.2
  have hpos := List.count_pos_iff.mpr ht
  rw [history_tolerations hlabel hseq, if_neg hseconds]
  omega

/-- Resuming a child Job is idempotent on its pod template exactly if no toleration of the template
has seconds, unless the template or the Job lists it twice from the start. -/
theorem resumption_idempotent_iff {env : Env} {js : JobSet} {job : Job}
    (hlabel : job.labels.get replicatedJobNameKey ≠ "") :
    ResumesIdempotently env js job ↔
      SecondsRepeated job (appliedTemplate env.gates js job) := by
  constructor
  · exact ResumesIdempotently.repeated hlabel
  · rintro hrepeated seq rfl hseq n
    obtain ⟨hlabels, hannotations, hselector⟩ := history_maps hlabel hseq n
    obtain ⟨hlabels', hannotations', hselector'⟩ := history_maps hlabel hseq 0
    have htolerations := history_mem_tolerations hlabel hseq n
    obtain ⟨hnodup, hgates⟩ := history_schedulingGates hlabel hseq n
    constructor
    · constructor
      · rw [hlabels, hlabels']
      · rw [hannotations, hannotations']
      · rw [hselector, hselector']
      · intro t
        rw [htolerations, history_mem_tolerations hlabel hseq 0]
      · intro g
        rw [hgates, (history_schedulingGates hlabel hseq 0).2]
    · constructor
      · rw [hlabels]
        exact mapMerged_mergeMaps _ _
      · rw [hannotations]
        exact mapMerged_mergeMaps _ _
      · rw [hselector]
        exact mapMerged_mergeMaps _ _
      · refine ⟨fun t ht => (htolerations t).mpr (Or.inr ht),
          fun t ht => (htolerations t).mpr (Or.inl ht), fun t htwice => ?_⟩
        rw [history_tolerations hlabel hseq] at htwice
        by_cases hseconds : t.tolerationSeconds = none
        · rw [if_pos hseconds] at htwice
          split_ifs at htwice
          · omega
          · omega
        · rw [if_neg hseconds] at htwice
          by_cases hlisted : t ∈ (appliedTemplate env.gates js (seq 0)).tolerations
          · exact hrepeated t hlisted hseconds
          · rw [List.count_eq_zero_of_not_mem hlisted] at htwice
            exact Or.inl (by omega)
      · refine ⟨fun g hg => (hgates g).mpr (Or.inr hg), fun g hg => (hgates g).mpr (Or.inl hg),
          fun g htwice => ?_⟩
        have honce := List.nodup_iff_count_le_one.mp hnodup g
        omega

/-- A ReplicatedJob whose pods tolerate a taint. -/
def toleratingSet (t : Toleration) : JobSet :=
  let rjob := ReplicatedJob.single "w" 1
  plainSet [{ rjob with
    template := { rjob.template with
      spec := { rjob.template.spec with
        template := { rjob.template.spec.template with tolerations := [t] } } } }] 1 .recreate

/-- Its Job, with the toleration it was created with. -/
def toleratingJob (t : Toleration) : Job :=
  let job := Job.child "js" "w" "0" ⟨[], 0, none, 0, none⟩
  { job with spec := { job.spec with
    template := { job.spec.template with tolerations := [t] } } }

/-- A node is tolerated for five minutes after it became unreachable. -/
def unreachable : Toleration :=
  ⟨"node.kubernetes.io/unreachable", "Exists", "", "NoExecute", some 300⟩

/-- A taint is tolerated for good. -/
def reserved : Toleration := ⟨"reserved", "Exists", "", "NoSchedule", none⟩

/-- A toleration without seconds is merged once. -/
theorem resumption_idempotent_reserved :
    ResumesIdempotently (plainEnv restartJobGates) (toleratingSet reserved)
      (toleratingJob reserved) := by
  have hlabel : (toleratingJob reserved).labels.get replicatedJobNameKey ≠ "" := by decide +kernel
  rw [resumption_idempotent_iff hlabel]
  have hnone : ∀ t ∈ (appliedTemplate restartJobGates (toleratingSet reserved)
      (toleratingJob reserved)).tolerations, t.tolerationSeconds = none := by decide +kernel
  intro t ht hseconds
  exact absurd (hnone t ht) hseconds

/-- A toleration with seconds is listed twice after the first resumption. -/
theorem resumption_duplicates :
    (resumedJob restartJobGates (toleratingSet unreachable)
      (toleratingJob unreachable)).spec.template.tolerations = [unreachable, unreachable] ∧
    ¬ ∀ env js job, job.labels.get replicatedJobNameKey ≠ "" → ResumesIdempotently env js job := by
  constructor
  · decide +kernel
  · intro h
    have hlabel : (toleratingJob unreachable).labels.get replicatedJobNameKey ≠ "" := by
      decide +kernel
    have hrepeated := (h (plainEnv restartJobGates) (toleratingSet unreachable)
      (toleratingJob unreachable) hlabel).repeated hlabel
    have hlisted : unreachable ∈ (appliedTemplate restartJobGates (toleratingSet unreachable)
        (toleratingJob unreachable)).tolerations := by decide +kernel
    have htwice := hrepeated unreachable hlisted (by decide)
    revert htwice
    decide +kernel

end JobSetOperator
