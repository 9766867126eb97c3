import JobSetOperator.Admission.Immutable
import JobSetOperator.Controller.JobPhase
import JobSetOperator.Library.Keyed

/-!
# Scaling the active Jobs

`syncJobScaling` compares the sizes a template asks for with the sizes of a Job, and
the API server has filled in those the template leaves out. A template without any size
never equals its Jobs, so they are patched again by every reconcile. A template with one
size is not equal to itself in the sense of the guard, so its Jobs are never patched,
also when an update has just taken the other size away. With both sizes, or with sizes
whose defaults have not changed, one pass reaches the fixpoint.
-/
namespace JobSetOperator.Convergence

open Library Library.Program

/-! ## Sizes and their defaults -/

/-- The parallelism and the completions of a Job. -/
def jobSizes (job : Job) : Option ℤ × Option ℤ := (job.spec.parallelism, job.spec.completions)

/-- How the Job API fills in missing sizes: parallelism becomes 1, and completions
too when both are missing. -/
structure JobDefaulting where
  defaults : Option ℤ × Option ℤ → Option ℤ × Option ℤ
  parallelism_set : ∀ p c, defaults (some p, c) = (some p, c)
  completions_set : ∀ c, defaults (none, some c) = (some 1, some c)
  unset : defaults (none, none) = (some 1, some 1)

/-- The Job belongs to a ReplicatedJob and has the sizes of its template. -/
def SizedBy (D : JobDefaulting) (js : JobSet) (job : Job) : Prop :=
  ∃ rjob ∈ js.spec.replicatedJobs, job.labels.lookup replicatedJobNameKey = some rjob.name ∧
    jobSizes job = D.defaults rjob.sizes

/-- A Job is stored so when it is created. -/
theorem sizedBy_constructJob (D : JobDefaulting) {platform : Platform} {gates : FeatureGates}
    {js : JobSet} {rjob : ReplicatedJob} (hrjob : rjob ∈ js.spec.replicatedJobs) {jobIdx : ℕ}
    {job stored : Job} (h : constructJob platform gates js rjob jobIdx = .ok job)
    (hlabels : stored.labels = job.labels) (hsizes : jobSizes stored = D.defaults (jobSizes job)) :
    SizedBy D js stored := by
  refine ⟨rjob, hrjob, ?_, ?_⟩
  · rw [hlabels]
    exact (constructJob_labels h).2.1
  · rw [hsizes]
    obtain ⟨individual, -, h⟩ := except_bind_ok h
    cases h
    rfl

/-- The server accepts a patch or refuses it. An accepted one is answered with the Job,
its sizes filled in. -/
def answers (D : JobDefaulting) : (r : Request) → r.Response → Prop
  | .patchScaling scaled, .ok stored => stored.name = scaled.name ∧
      stored.labels = scaled.labels ∧ jobSizes stored = D.defaults (jobSizes scaled)
  | _, _ => True

/-- Some run of `syncJobScaling` sends a patch. -/
def SendsPatch (D : JobDefaulting) (env : Env) (js : JobSet) (active : List Job) : Prop :=
  ∃ t res scaled x, Path (answers D) (syncJobScaling env js active) t res ∧
    (⟨.patchScaling scaled, x⟩ : Σ r : Request, r.Response) ∈ t

/-- Without a change of the templates no patch is sent. A run without an error leaves
every active Job at the sizes of its template, and the next one sends no patch. -/
def ReachesFixpoint (D : JobDefaulting) (env : Env) (old new : JobSet) (active : List Job) : Prop :=
  (new.spec.replicatedJobs = old.spec.replicatedJobs → ¬ SendsPatch D env new active) ∧
  ∀ t active', Path (answers D) (syncJobScaling env new active) t (.ok active') →
    List.Forall₂ (fun job job' => job'.name = job.name) active active' ∧
    (∀ job ∈ active', SizedBy D new job) ∧ ¬ SendsPatch D env new active'

/-- The JobSet itself, or an update of it that the webhook and the CRD let through. -/
def UpdateOf (w : Webhook) (old new : JobSet) : Prop :=
  new.spec = old.spec ∨ SameObject old new ∧ schemaValid new.spec = true ∧
    transitionValid old.spec new.spec = true ∧ validateUpdate w old new = []

/-- The template of every active Job asks for a size, and when it asks for one size only
an update has not changed what the Job API makes of it. -/
def SizesDecided (D : JobDefaulting) (old new : JobSet) (active : List Job) : Prop :=
  ∀ job ∈ active, ∀ name before after, job.labels.lookup replicatedJobNameKey = some name →
    rjobsByName old name = some before → rjobsByName new name = some after →
      after.sizes ≠ (none, none) ∧
      (after.sizes.1.isSome = true ∧ after.sizes.2.isSome = true ∨
        D.defaults after.sizes = D.defaults before.sizes)

/-! ## The runs of the loop -/

/-- The Job is patched. -/
def outOfSync (js : JobSet) (job : Job) : Bool :=
  (desiredScaling js job).any fun sizes => jobScalingNeedsPatch job sizes.1 sizes.2

/-- What becomes of an active Job in a run without an error. -/
def Scales (D : JobDefaulting) (js : JobSet) (job job' : Job) : Prop :=
  (outOfSync js job = false ∧ job' = job) ∨
  (outOfSync js job = true ∧ ∃ sizes, desiredScaling js job = some sizes ∧
    job'.name = job.name ∧ job'.labels = job.labels ∧ jobSizes job' = D.defaults sizes)

theorem outOfSync_of_none {js : JobSet} {job : Job} (h : desiredScaling js job = none) :
    outOfSync js job = false := by
  unfold outOfSync
  rw [h]
  rfl

theorem outOfSync_of_some {js : JobSet} {job : Job} {parallelism completions : Option ℤ}
    (h : desiredScaling js job = some (parallelism, completions)) :
    outOfSync js job = jobScalingNeedsPatch job parallelism completions := by
  unfold outOfSync
  rw [h]
  rfl

/-- How a run of the loop ends: normally, with a patch sent just when a Job was out of
sync, and with every Job scaled when there was no error. -/
def LoopEnds (D : JobDefaulting) (js : JobSet) (active : List Job)
    (t : List (Σ r : Request, r.Response)) (res : Except String (List Job × List String)) : Prop :=
  ∃ jobs errs, res = .ok (jobs, errs) ∧
    ((∃ scaled x, (⟨.patchScaling scaled, x⟩ : Σ r : Request, r.Response) ∈ t) ↔
      ∃ job ∈ active, outOfSync js job = true) ∧
    (errs = [] → List.Forall₂ (Scales D js) active jobs)

section Turns

variable {D : JobDefaulting} {js : JobSet} {job : Job} {rest : List Job}
  {t : List (Σ r : Request, r.Response)} {res : Except String (List Job × List String)}
  (hrest : ∀ {t res}, Path (answers D) (syncJobScalingLoop js rest) t res →
    LoopEnds D js rest t res)

include hrest

/-- A Job in sync is handed on. -/
theorem loopEnds_kept (hsync : outOfSync js job = false)
    (h : Path (answers D) (syncJobScalingLoop js rest >>= fun r => pure (job :: r.1, r.2)) t res) :
    LoopEnds D js (job :: rest) t res := by
  rcases path_bind.mp h with ⟨e, rfl, hfail⟩ | ⟨t₁, t₂, a, rfl, hloop, hend⟩
  · obtain ⟨jobs, errs, hres, -⟩ := hrest hfail
    cases hres
  · obtain ⟨rfl, rfl⟩ := hend
    obtain ⟨jobs, errs, hres, hsent, hscaled⟩ := hrest hloop
    cases hres
    refine ⟨job :: jobs, errs, rfl, ?_, fun herrs => ?_⟩
    · simpa [hsync] using hsent
    · exact List.Forall₂.cons (Or.inl ⟨hsync, rfl⟩) (hscaled herrs)

/-- A Job out of sync is patched, whatever the answer to the patch is. -/
theorem loopEnds_patched {scaled : Job} {sizes : Option ℤ × Option ℤ}
    (hsync : outOfSync js job = true) (hdesired : desiredScaling js job = some sizes)
    (hname : scaled.name = job.name) (hlabels : scaled.labels = job.labels)
    (hsizes : jobSizes scaled = sizes) {answer : Except String Job} {failure : String → String}
    (hanswer : answers D (.patchScaling scaled) answer)
    (h : Path (answers D) (syncJobScalingLoop js rest >>= fun r =>
      match answer with
      | .ok stored => pure (stored :: r.1, r.2)
      | .error e => pure (scaled :: r.1, failure e :: r.2)) t res) :
    LoopEnds D js (job :: rest) (⟨.patchScaling scaled, answer⟩ :: t) res := by
  have hsent : (∃ scaled' x, (⟨.patchScaling scaled', x⟩ : Σ r : Request, r.Response) ∈
        (⟨.patchScaling scaled, answer⟩ : Σ r : Request, r.Response) :: t) ↔
      ∃ job' ∈ job :: rest, outOfSync js job' = true :=
    ⟨fun _ => ⟨job, List.mem_cons_self, hsync⟩, fun _ => ⟨scaled, answer, List.mem_cons_self⟩⟩
  rcases path_bind.mp h with ⟨e, rfl, hfail⟩ | ⟨t₁, t₂, a, rfl, hloop, hend⟩
  · obtain ⟨jobs, errs, hres, -⟩ := hrest hfail
    cases hres
  · obtain ⟨jobs, errs, hres, -, hscaled⟩ := hrest hloop
    cases hres
    cases answer with
    | error e =>
      obtain ⟨-, rfl⟩ := hend
      exact ⟨_, _, rfl, hsent, fun herrs => by cases herrs⟩
    | ok stored =>
      obtain ⟨-, rfl⟩ := hend
      refine ⟨_, _, rfl, hsent, fun herrs => List.Forall₂.cons ?_ (hscaled herrs)⟩
      obtain ⟨hname', hlabels', hsizes'⟩ := hanswer
      refine Or.inr ⟨hsync, sizes, hdesired, hname'.trans hname, hlabels'.trans hlabels, ?_⟩
      rw [hsizes', hsizes]

end Turns

theorem path_syncJobScalingLoop {D : JobDefaulting} {js : JobSet} {active : List Job}
    {t : List (Σ r : Request, r.Response)} {res : Except String (List Job × List String)}
    (h : Path (answers D) (syncJobScalingLoop js active) t res) : LoopEnds D js active t res := by
  induction active generalizing t res with
  | nil =>
    obtain ⟨rfl, rfl⟩ := h
    exact ⟨[], [], rfl, by simp, fun _ => List.Forall₂.nil⟩
  | cons job rest ih =>
    unfold syncJobScalingLoop at h
    cases hdesired : desiredScaling js job with
    | none =>
      rw [hdesired] at h
      exact loopEnds_kept ih (outOfSync_of_none hdesired) h
    | some sizes =>
      rw [hdesired] at h
      dsimp only at h
      have hsync := outOfSync_of_some hdesired
      split_ifs at h with hpatch
      · obtain ⟨answer, t', hanswer, rfl, hloop⟩ := path_ask_bind.mp h
        refine loopEnds_patched ih (hsync.trans hpatch) hdesired ?_ ?_ ?_ hanswer hloop <;> rfl
      · exact loopEnds_kept ih (hsync.trans (Bool.eq_false_iff.mpr hpatch)) h

/-- A run of `syncJobScaling` is a run of its loop, which ends with its errors. -/
theorem path_syncJobScaling {D : JobDefaulting} {env : Env}
    (hgate : env.gates.elasticJobSet = true) {js : JobSet} {active : List Job}
    {t : List (Σ r : Request, r.Response)} {res : Except String (List Job)} :
    Path (answers D) (syncJobScaling env js active) t res ↔
      ∃ jobs errs, Path (answers D) (syncJobScalingLoop js active) t (.ok (jobs, errs)) ∧
        res = if errs = [] then .ok jobs else .error ("\n".intercalate errs) := by
  have hend : ∀ jobs errs, ∀ t₂, Path (answers D) (joinErrors errs >>= fun _ => pure jobs) t₂ res ↔
      t₂ = [] ∧ res = if errs = [] then .ok jobs else .error ("\n".intercalate errs) := by
    intro jobs errs t₂
    unfold joinErrors
    split_ifs <;> exact Iff.rfl
  unfold syncJobScaling
  rw [hgate]
  constructor
  · intro h
    rcases path_bind.mp h with ⟨e, -, hfail⟩ | ⟨t₁, t₂, ⟨jobs, errs⟩, rfl, hloop, hrest⟩
    · obtain ⟨jobs, errs, hres, -⟩ := path_syncJobScalingLoop hfail
      cases hres
    · obtain ⟨rfl, hres⟩ := (hend jobs errs t₂).mp hrest
      rw [List.append_nil]
      exact ⟨jobs, errs, hloop, hres⟩
  · rintro ⟨jobs, errs, hloop, hres⟩
    refine path_bind.mpr (Or.inr ⟨t, [], (jobs, errs), (List.append_nil t).symm, hloop, ?_⟩)
    exact (hend jobs errs []).mpr ⟨rfl, hres⟩

/-- A run without an error scales every Job. -/
theorem path_syncJobScaling_ok {D : JobDefaulting} {env : Env}
    (hgate : env.gates.elasticJobSet = true) {js : JobSet} {active active' : List Job}
    {t : List (Σ r : Request, r.Response)}
    (h : Path (answers D) (syncJobScaling env js active) t (.ok active')) :
    List.Forall₂ (Scales D js) active active' := by
  obtain ⟨jobs, errs, hloop, hres⟩ := (path_syncJobScaling hgate).mp h
  obtain ⟨jobs', errs', hloop', -, hscaled⟩ := path_syncJobScalingLoop hloop
  cases hloop'
  split_ifs at hres with herrs
  cases hres
  exact hscaled herrs

/-- The server may accept every patch, and then there is no error. -/
theorem exists_path_syncJobScaling (D : JobDefaulting) {env : Env}
    (hgate : env.gates.elasticJobSet = true) (js : JobSet) (active : List Job) :
    ∃ t active', Path (answers D) (syncJobScaling env js active) t (.ok active') := by
  have hloop : ∃ t jobs, Path (answers D) (syncJobScalingLoop js active) t (.ok (jobs, [])) := by
    induction active with
    | nil => exact ⟨[], [], rfl, rfl⟩
    | cons job rest ih =>
      obtain ⟨t, jobs, hrest⟩ := ih
      have hkept : Path (answers D) (syncJobScalingLoop js rest >>= fun r =>
          pure (job :: r.1, r.2)) t (.ok (job :: jobs, [])) :=
        path_bind.mpr (Or.inr ⟨t, [], (jobs, []), (List.append_nil t).symm, hrest, rfl, rfl⟩)
      unfold syncJobScalingLoop
      cases desiredScaling js job with
      | none => exact ⟨t, _, hkept⟩
      | some sizes =>
        dsimp only
        split_ifs
        · let defaulted := D.defaults sizes
          let stored : Job := { job with
            spec := { job.spec with parallelism := defaulted.1, completions := defaulted.2 } }
          refine ⟨_, stored :: jobs, path_ask_bind.mpr
            ⟨Except.ok stored, t, ⟨rfl, rfl, rfl⟩, rfl, path_bind.mpr (Or.inr
              ⟨t, [], (jobs, []), (List.append_nil t).symm, hrest, rfl, rfl⟩)⟩⟩
        · exact ⟨t, _, hkept⟩
  obtain ⟨t, jobs, hpath⟩ := hloop
  exact ⟨t, jobs, (path_syncJobScaling hgate).mpr ⟨jobs, [], hpath, rfl⟩⟩

/-- A patch is sent just when a Job is out of sync. -/
theorem sendsPatch_iff (D : JobDefaulting) {env : Env} (hgate : env.gates.elasticJobSet = true)
    (js : JobSet) (active : List Job) :
    SendsPatch D env js active ↔ ∃ job ∈ active, outOfSync js job = true := by
  constructor
  · rintro ⟨t, res, scaled, x, hpath, hmem⟩
    obtain ⟨jobs, errs, hloop, -⟩ := (path_syncJobScaling hgate).mp hpath
    obtain ⟨-, -, -, hsent, -⟩ := path_syncJobScalingLoop hloop
    exact hsent.mp ⟨scaled, x, hmem⟩
  · intro hsync
    obtain ⟨t, active', hpath⟩ := exists_path_syncJobScaling D hgate js active
    obtain ⟨jobs, errs, hloop, -⟩ := (path_syncJobScaling hgate).mp hpath
    obtain ⟨-, -, -, hsent, -⟩ := path_syncJobScalingLoop hloop
    obtain ⟨scaled, x, hmem⟩ := hsent.mpr hsync
    exact ⟨t, _, scaled, x, hpath, hmem⟩

/-! ## One Job -/

theorem desiredScaling_eq {js : JobSet} {job : Job} {name : String} {rjob : ReplicatedJob}
    (hlabel : job.labels.lookup replicatedJobNameKey = some name)
    (hrjob : rjobsByName js name = some rjob) :
    desiredScaling js job = some rjob.sizes := by
  unfold desiredScaling
  rw [hlabel, Option.bind_some]
  unfold rjobsByName at hrjob
  rw [hrjob]
  rfl

theorem outOfSync_iff {js : JobSet} {job : Job} {name : String} {rjob : ReplicatedJob}
    (hlabel : job.labels.lookup replicatedJobNameKey = some name)
    (hrjob : rjobsByName js name = some rjob) :
    outOfSync js job = true ↔
      rjob.sizes.1 = rjob.sizes.2 ∧ jobSizes job ≠ rjob.sizes := by
  rw [outOfSync_of_some (desiredScaling_eq hlabel hrjob)]
  have hne : jobSizes job ≠ rjob.sizes ↔
      job.spec.parallelism ≠ rjob.template.spec.parallelism ∨
        job.spec.completions ≠ rjob.template.spec.completions := by
    rw [Ne, Prod.ext_iff, not_and_or]
    rfl
  rw [hne]
  exact decide_eq_true_iff

theorem sizedBy_iff {D : JobDefaulting} {js : JobSet} (hnames : js.jobNames.Nodup) {job : Job}
    {name : String} {rjob : ReplicatedJob}
    (hlabel : job.labels.lookup replicatedJobNameKey = some name)
    (hrjob : rjobsByName js name = some rjob) :
    SizedBy D js job ↔ jobSizes job = D.defaults rjob.sizes := by
  constructor
  · rintro ⟨rjob', hmem, hlabel', hsizes⟩
    rw [hlabel, Option.some.injEq] at hlabel'
    have hfound := rjobsByName_of_mem hnames hmem
    rw [← hlabel', hrjob, Option.some.injEq] at hfound
    rw [hsizes, hfound]
  · intro hsizes
    obtain ⟨hmem, hname⟩ := rjobsByName_some hrjob
    exact ⟨rjob, hmem, by rw [hlabel, hname], hsizes⟩

/-- Equal sizes that are not both missing are left alone by the Job API. -/
theorem JobDefaulting.equal (D : JobDefaulting) {sizes : Option ℤ × Option ℤ}
    (h : sizes.1 = sizes.2) (hset : sizes ≠ (none, none)) : D.defaults sizes = sizes := by
  obtain ⟨p, c⟩ := sizes
  obtain rfl : p = c := h
  cases p with
  | none => exact absurd rfl hset
  | some p => exact D.parallelism_set p (some p)

/-- An active Job with the two versions of its ReplicatedJob. -/
structure Version (D : JobDefaulting) (old new : JobSet) (job : Job) where
  name : String
  before : ReplicatedJob
  after : ReplicatedJob
  label : job.labels.lookup replicatedJobNameKey = some name
  found_before : rjobsByName old name = some before
  found_after : rjobsByName new name = some after
  sized : jobSizes job = D.defaults before.sizes
  admitted : ScalesTogether before after

namespace Version

variable {D : JobDefaulting} {old new : JobSet} {job job' : Job} (v : Version D old new job)

/-- The condition, for the one Job. -/
def Decided : Prop :=
  v.after.sizes ≠ (none, none) ∧
    (v.after.sizes.1.isSome = true ∧ v.after.sizes.2.isSome = true ∨
      D.defaults v.after.sizes = D.defaults v.before.sizes)

theorem scales_label (h : Scales D new job job') :
    job'.labels.lookup replicatedJobNameKey = some v.name := by
  rcases h with ⟨-, rfl⟩ | ⟨-, -, -, -, hlabels, -⟩
  · exact v.label
  · rw [hlabels]
    exact v.label

/-- A Job whose two sizes differ is where it belongs already. -/
theorem Decided.unequal {v : Version D old new job} (h : v.Decided)
    (hne : v.after.sizes.1 ≠ v.after.sizes.2) :
    jobSizes job = D.defaults v.after.sizes := by
  rw [v.sized]
  rcases h.2 with ⟨hp, hc⟩ | hsame
  · obtain ⟨p, hp⟩ := Option.isSome_iff_exists.mp hp
    obtain ⟨c, hc⟩ := Option.isSome_iff_exists.mp hc
    rcases v.admitted with hsame | hequal
    · rw [hsame]
    · exact absurd (hp.trans ((congrArg some (hequal p c (Prod.ext hp hc))).trans hc.symm)) hne
  · exact hsame.symm

theorem Decided.settles {v : Version D old new job} (h : v.Decided)
    (hscales : Scales D new job job') :
    jobSizes job' = D.defaults v.after.sizes ∧ outOfSync new job' = false := by
  have hiff := outOfSync_iff (v.scales_label hscales) v.found_after
  have hsizes : jobSizes job' = D.defaults v.after.sizes := by
    rcases hscales with ⟨hsync, rfl⟩ | ⟨-, sizes, hdesired, -, -, hsizes⟩
    · by_cases heq : v.after.sizes.1 = v.after.sizes.2
      · rw [D.equal heq h.1]
        by_contra hne
        rw [hiff.mpr ⟨heq, hne⟩] at hsync
        cases hsync
      · exact h.unequal heq
    · rw [desiredScaling_eq v.label v.found_after, Option.some.injEq] at hdesired
      rw [hsizes, hdesired]
  refine ⟨hsizes, Bool.eq_false_iff.mpr fun hsync => ?_⟩
  obtain ⟨heq, hne⟩ := hiff.mp hsync
  exact hne (hsizes.trans (D.equal heq h.1))

/-- A settled Job shows that the sizes were decided. -/
theorem decided_of_settled (hscales : Scales D new job job')
    (hsizes : jobSizes job' = D.defaults v.after.sizes)
    (hsync : outOfSync new job' = false) : v.Decided := by
  have hiff := outOfSync_iff (v.scales_label hscales) v.found_after
  have hset : v.after.sizes ≠ (none, none) := by
    intro hunset
    have htrue : outOfSync new job' = true := by
      refine hiff.mpr ⟨by rw [hunset], ?_⟩
      rw [hsizes, hunset, D.unset]
      simp
    rw [hsync] at htrue
    cases htrue
  refine ⟨hset, ?_⟩
  by_cases heq : v.after.sizes.1 = v.after.sizes.2
  · have hsome : v.after.sizes.1.isSome = true := by
      by_contra hnone
      have hp := Option.not_isSome_iff_eq_none.mp hnone
      exact hset (Prod.ext hp (heq.symm.trans hp))
    exact Or.inl ⟨hsome, heq ▸ hsome⟩
  · -- the guard has skipped the Job
    have hjob : job' = job := by
      rcases hscales with ⟨-, hjob⟩ | ⟨hpatched, -⟩
      · exact hjob
      · exact absurd ((outOfSync_iff v.label v.found_after).mp hpatched).1 heq
    exact Or.inr (hsizes.symm.trans ((congrArg jobSizes hjob).trans v.sized))

end Version

/-! ## All active Jobs -/

theorem UpdateOf.names {w : Webhook} {old new : JobSet} (hold : Admitted w old)
    (h : UpdateOf w old new) : old.jobNames.Nodup ∧ new.jobNames.Nodup := by
  refine ⟨schemaValid_names hold.schemaValid, ?_⟩
  rcases h with hspec | ⟨-, hnew, -, -⟩
  · unfold JobSet.jobNames
    rw [hspec]
    exact schemaValid_names hold.schemaValid
  · exact schemaValid_names hnew

/-- The ReplicatedJob of an active Job is there in both versions. -/
theorem exists_version {w : Webhook} {D : JobDefaulting} {old new : JobSet}
    (hold : Admitted w old) (hnew : UpdateOf w old new) {job : Job}
    (hjob : SizedBy D old job) : Nonempty (Version D old new job) := by
  obtain ⟨before, hmem, hlabel, hsized⟩ := hjob
  have hnames := (hnew.names hold).1
  have hbefore := rjobsByName_of_mem hnames hmem
  rcases hnew with hspec | ⟨-, -, -, hvalid⟩
  · have hafter : rjobsByName new before.name = some before := by
      unfold rjobsByName at hbefore ⊢
      rw [hspec]
      exact hbefore
    exact ⟨⟨_, before, before, hlabel, hbefore, hafter, hsized, Or.inl rfl⟩⟩
  · have hscales := forall₂_and (validateUpdate_kept hvalid) (validateUpdate_sizes hnames hvalid)
    have hrel := find?_forall₂ (List.forall₂_reverse_iff.mpr hscales)
      (p := fun rjob : ReplicatedJob => decide (rjob.name = before.name))
      (q := fun rjob : ReplicatedJob => decide (rjob.name = before.name)) fun a b hab => by
        rw [hab.1.name]
    unfold rjobsByName at hbefore
    rw [hbefore] at hrel
    generalize hafter : new.spec.replicatedJobs.reverse.find? _ = found at hrel
    cases hrel with
    | some hversion => exact ⟨⟨_, before, _, hlabel, hbefore, hafter, hsized, hversion.2⟩⟩

theorem sizesDecided_iff {w : Webhook} {D : JobDefaulting} {old new : JobSet}
    (hold : Admitted w old) (hnew : UpdateOf w old new) {active : List Job}
    (hactive : ∀ job ∈ active, SizedBy D old job) :
    SizesDecided D old new active ↔
      ∀ job ∈ active, ∃ v : Version D old new job, v.Decided := by
  constructor
  · intro h job hjob
    obtain ⟨v⟩ := exists_version hold hnew (hactive job hjob)
    exact ⟨v, h job hjob v.name v.before v.after v.label v.found_before v.found_after⟩
  · intro h job hjob name before after hlabel hbefore hafter
    obtain ⟨v, hv⟩ := h job hjob
    obtain rfl : v.name = name := Option.some.inj (v.label.symm.trans hlabel)
    obtain rfl : v.before = before := Option.some.inj (v.found_before.symm.trans hbefore)
    obtain rfl : v.after = after := Option.some.inj (v.found_after.symm.trans hafter)
    exact hv

theorem Scales.name {D : JobDefaulting} {js : JobSet} {job job' : Job} (h : Scales D js job job') :
    job'.name = job.name := by
  rcases h with ⟨-, rfl⟩ | ⟨-, -, -, hname, -⟩
  · rfl
  · exact hname

/-- Elastic scaling of the active Jobs reaches a fixpoint exactly when the template of
every active Job asks for a size and an update that leaves one size out does not change
the sizes the Job API makes of it. -/
theorem reachesFixpoint_iff {w : Webhook} {env : Env}
    (hgate : env.gates.elasticJobSet = true) (D : JobDefaulting) {old new : JobSet}
    (hold : Admitted w old) (hnew : UpdateOf w old new) {active : List Job}
    (hactive : ∀ job ∈ active, SizedBy D old job) :
    ReachesFixpoint D env old new active ↔ SizesDecided D old new active := by
  obtain ⟨-, hnames⟩ := hnew.names hold
  rw [sizesDecided_iff hold hnew hactive]
  constructor
  · rintro ⟨-, hpass⟩ job hjob
    obtain ⟨t, active', hpath⟩ := exists_path_syncJobScaling D hgate new active
    obtain ⟨-, hsized, hquiet⟩ := hpass t active' hpath
    obtain ⟨job', hjob', hscales⟩ :=
      exists_of_forall₂ (path_syncJobScaling_ok hgate hpath).flip hjob
    obtain ⟨v⟩ := exists_version hold hnew (hactive job hjob)
    have hsizes := (sizedBy_iff hnames (v.scales_label hscales) v.found_after).mp
      (hsized job' hjob')
    refine ⟨v, v.decided_of_settled hscales hsizes (Bool.eq_false_iff.mpr fun hsync => ?_)⟩
    exact hquiet ((sendsPatch_iff D hgate new active').mpr ⟨job', hjob', hsync⟩)
  · intro hdecided
    refine ⟨fun hsame hsends => ?_, fun t active' hpath => ?_⟩
    · obtain ⟨job, hjob, hsync⟩ := (sendsPatch_iff D hgate new active).mp hsends
      obtain ⟨v, hv⟩ := hdecided job hjob
      have hversion : v.after = v.before := by
        have hafter := v.found_after
        unfold rjobsByName at hafter
        rw [hsame] at hafter
        exact Option.some.inj (hafter.symm.trans v.found_before)
      obtain ⟨heq, hne⟩ := (outOfSync_iff v.label v.found_after).mp hsync
      apply hne
      rw [v.sized, ← hversion, D.equal heq hv.1]
    · have hscaled := path_syncJobScaling_ok hgate hpath
      have hsettled : ∀ job' ∈ active', SizedBy D new job' ∧ outOfSync new job' = false := by
        intro job' hjob'
        obtain ⟨job, hjob, hscales⟩ := exists_of_forall₂ hscaled hjob'
        obtain ⟨v, hv⟩ := hdecided job hjob
        obtain ⟨hsizes, hsync⟩ := hv.settles hscales
        exact ⟨(sizedBy_iff hnames (v.scales_label hscales) v.found_after).mpr hsizes, hsync⟩
      refine ⟨hscaled.imp fun _ _ h => h.name, fun job' hjob' => (hsettled job' hjob').1, ?_⟩
      intro hsends
      obtain ⟨job', hjob', hsync⟩ := (sendsPatch_iff D hgate new active').mp hsends
      rw [(hsettled job' hjob').2] at hsync
      cases hsync

/-! ## A JobSet of one Job -/

/-- The defaults of the Job API. -/
def apiDefaults : JobDefaulting where
  defaults
    | (none, none) => (some 1, some 1)
    | (none, some c) => (some 1, some c)
    | (some p, c) => (some p, c)
  parallelism_set _ _ := rfl
  completions_set _ := rfl
  unset := rfl

def elasticGates : FeatureGates :=
  { restartJobGates with restartJob := false, elasticJobSet := true }

def elasticWebhook : Webhook := { trainWebhook with gates := elasticGates }

/-- One Indexed Job with the sizes of the template. -/
def elasticJob (parallelism completions : Option ℤ) : ReplicatedJob :=
  let rjob := ReplicatedJob.single "w" 1
  { rjob with template := { rjob.template with
      spec := { rjob.template.spec with parallelism := parallelism, completions := completions } } }

def elasticSet (parallelism completions : Option ℤ) : JobSet :=
  defaultJobSet elasticGates { JobSet.zero with
    name := "js"
    spec := { JobSetSpec.zero with replicatedJobs := [elasticJob parallelism completions] } }

/-- Its Job, as the server has it. -/
def elasticChild (parallelism completions : Option ℤ) : Job :=
  let sizes := apiDefaults.defaults (parallelism, completions)
  match constructJob (plainEnv elasticGates).platform elasticGates
    (elasticSet parallelism completions)
    (defaultReplicatedJob (elasticJob parallelism completions)) 0 with
  | .ok job => { job with
      spec := { job.spec with parallelism := sizes.1, completions := sizes.2 }
      status := ⟨[], 1, some 1, 0, none⟩ }
  | .error _ => Job.child "js" "w" "0" ⟨[], 1, some 1, 0, none⟩

theorem elasticChild_sized (parallelism completions : Option ℤ) :
    ∀ job ∈ [elasticChild parallelism completions],
      SizedBy apiDefaults (elasticSet parallelism completions) job := by
  intro job hjob
  rw [List.mem_singleton.mp hjob]
  have hbuilt : ∃ built, constructJob (plainEnv elasticGates).platform elasticGates
      (elasticSet parallelism completions)
      (defaultReplicatedJob (elasticJob parallelism completions)) 0 = .ok built := ⟨_, rfl⟩
  obtain ⟨built, hbuilt⟩ := hbuilt
  refine sizedBy_constructJob apiDefaults List.mem_cons_self hbuilt ?_ ?_
  · unfold elasticChild
    rw [hbuilt]
  · unfold elasticChild
    rw [hbuilt]
    obtain ⟨individual, -, h⟩ := except_bind_ok hbuilt
    cases h
    rfl

/-- Two pods become five. -/
theorem reachesFixpoint_scaled :
    Admitted elasticWebhook (elasticSet (some 2) (some 2)) ∧
    UpdateOf elasticWebhook (elasticSet (some 2) (some 2)) (elasticSet (some 5) (some 5)) ∧
    SendsPatch apiDefaults (plainEnv elasticGates) (elasticSet (some 5) (some 5))
      [elasticChild (some 2) (some 2)] ∧
    ReachesFixpoint apiDefaults (plainEnv elasticGates) (elasticSet (some 2) (some 2))
      (elasticSet (some 5) (some 5)) [elasticChild (some 2) (some 2)] := by
  have hold : Admitted elasticWebhook (elasticSet (some 2) (some 2)) := by
    apply Admitted.create
    · decide +kernel
    · decide +kernel
  have hnew : UpdateOf elasticWebhook (elasticSet (some 2) (some 2))
      (elasticSet (some 5) (some 5)) := by
    refine Or.inr ⟨⟨rfl, rfl, rfl⟩, ?_, ?_, ?_⟩ <;> decide +kernel
  refine ⟨hold, hnew, ?_, ?_⟩
  · exact (sendsPatch_iff apiDefaults rfl _ _).mpr
      ⟨_, List.mem_singleton.mpr rfl, by decide +kernel⟩
  · apply (reachesFixpoint_iff rfl apiDefaults hold hnew (elasticChild_sized _ _)).mpr
    intro job _ name before after _ _ hafter
    obtain ⟨hmem, -⟩ := rjobsByName_some hafter
    rw [List.mem_singleton.mp hmem]
    exact ⟨by decide, Or.inl ⟨rfl, rfl⟩⟩

/-- A template without sizes, and an update that takes one of two sizes away: the first
has its Job patched by every run, the second has it patched by none. -/
theorem not_reachesFixpoint_unset :
    (Admitted elasticWebhook (elasticSet none none) ∧
      (∀ job ∈ [elasticChild none none], SizedBy apiDefaults (elasticSet none none) job) ∧
      ¬ ReachesFixpoint apiDefaults (plainEnv elasticGates) (elasticSet none none)
        (elasticSet none none) [elasticChild none none]) ∧
    (Admitted elasticWebhook (elasticSet (some 3) (some 3)) ∧
      UpdateOf elasticWebhook (elasticSet (some 3) (some 3)) (elasticSet none (some 3)) ∧
      (∀ job ∈ [elasticChild (some 3) (some 3)],
        SizedBy apiDefaults (elasticSet (some 3) (some 3)) job) ∧
      ¬ ReachesFixpoint apiDefaults (plainEnv elasticGates) (elasticSet (some 3) (some 3))
        (elasticSet none (some 3)) [elasticChild (some 3) (some 3)]) := by
  refine ⟨⟨?_, elasticChild_sized _ _, fun h => ?_⟩, ?_, ?_, elasticChild_sized _ _, fun h => ?_⟩
  · apply Admitted.create
    · decide +kernel
    · decide +kernel
  · exact h.1 rfl ((sendsPatch_iff apiDefaults rfl _ _).mpr
      ⟨_, List.mem_singleton.mpr rfl, by decide +kernel⟩)
  · apply Admitted.create
    · decide +kernel
    · decide +kernel
  · refine Or.inr ⟨⟨rfl, rfl, rfl⟩, ?_, ?_, ?_⟩ <;> decide +kernel
  · obtain ⟨t, active', hpath⟩ := exists_path_syncJobScaling apiDefaults
      (rfl : (plainEnv elasticGates).gates.elasticJobSet = true) (elasticSet none (some 3))
      [elasticChild (some 3) (some 3)]
    obtain ⟨-, hsized, -⟩ := h.2 t active' hpath
    obtain ⟨job', hjob', hscales⟩ :=
      exists_of_forall₂ (path_syncJobScaling_ok rfl hpath).flip (List.mem_singleton.mpr rfl)
    obtain ⟨rjob, hrjob, -, hsizes⟩ := hsized job' hjob'
    rw [List.mem_singleton.mp hrjob] at hsizes
    rcases hscales with ⟨-, rfl⟩ | ⟨hsync, -⟩
    · revert hsizes
      decide +kernel
    · revert hsync
      decide +kernel

end JobSetOperator.Convergence
