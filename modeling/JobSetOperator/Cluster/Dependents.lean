import JobSetOperator.Admission.Immutable
import JobSetOperator.Cluster.Restarts
import JobSetOperator.Controller.Completion

/-!
# Dependencies over a run

Every Job there ever is was built by a reconcile, from a version of the JobSet and a list of
Jobs that are both older than the Job. What the reconcile has checked in that list is therefore
a fact about the past: the Jobs of a dependency were there first, in the same attempt or a
later one.
-/
namespace JobSetOperator

open Library

/-! ## The plan of a JobSet -/

/-- The name, and the names, numbers and dependencies of the ReplicatedJobs. -/
def JobSet.plan (js : JobSet) : String × List (String × ℕ × List DependsOn) :=
  (js.name, js.spec.replicatedJobs.map fun rjob =>
    (rjob.name, rjob.replicas, rjob.dependsOn.getD []))

section Plan

variable {a b js : JobSet}

theorem jobNames_of_plan (h : b.plan = a.plan) : b.jobNames = a.jobNames := by
  have hnames : ∀ js : JobSet, js.jobNames = js.plan.2.map Prod.fst := fun js => by
    unfold JobSet.jobNames JobSet.plan
    rw [List.map_map]
    rfl
  rw [hnames, hnames, h]

/-- Each ReplicatedJob has a counterpart in a JobSet of the same plan. -/
theorem exists_counterpart (h : b.plan = a.plan) {rjob : ReplicatedJob}
    (hrjob : rjob ∈ b.spec.replicatedJobs) : ∃ rjob' ∈ a.spec.replicatedJobs,
      rjob'.name = rjob.name ∧ rjob'.replicas = rjob.replicas ∧
      rjob'.dependsOn.getD [] = rjob.dependsOn.getD [] := by
  have hmem : (rjob.name, rjob.replicas, rjob.dependsOn.getD []) ∈ b.plan.2 :=
    List.mem_map_of_mem hrjob
  rw [h] at hmem
  obtain ⟨rjob', hrjob', hsame⟩ := List.mem_map.mp hmem
  obtain ⟨hname, hreplicas, hdeps⟩ := by simpa using hsame
  exact ⟨rjob', hrjob', hname, hreplicas, hdeps⟩

theorem plan_of_spec (hname : b.name = a.name) (hspec : b.spec = a.spec) : b.plan = a.plan := by
  unfold JobSet.plan
  rw [hname, hspec]

/-- The API server keeps the name, and the webhook the rest of the plan. -/
theorem plan_of_update {webhook : Webhook} (h : validateUpdate webhook a b = [])
    (hname : b.name = a.name) : b.plan = a.plan := by
  have hsame : List.Forall₂ (fun r r' : ReplicatedJob =>
      (r.name, r.replicas, r.dependsOn.getD []) = (r'.name, r'.replicas, r'.dependsOn.getD []))
      a.spec.replicatedJobs b.spec.replicatedJobs := by
    apply (validateUpdate_permitted h).imp
    intro r r' hpermitted
    obtain ⟨hname, -, -, hreplicas, hdeps⟩ := ReplicatedJob.mk.inj hpermitted.fixedPart
    have hdeps' : r.dependsOn.getD [] = r'.dependsOn.getD [] := (Option.some.inj hdeps).symm
    have hname' : r.name = r'.name := hname.symm
    have hreplicas' : r.replicas = r'.replicas := hreplicas.symm
    rw [hname', hreplicas', hdeps']
  unfold JobSet.plan
  rw [hname, Prod.mk.injEq, ← List.forall₂_eq_eq_eq, List.forall₂_map_left_iff,
    List.forall₂_map_right_iff]
  exact ⟨rfl, hsame.flip.imp fun _ _ heq => heq.symm⟩

theorem DependsOnOk.of_plan (h : DependsOnOk a) (hplan : b.plan = a.plan) : DependsOnOk b := by
  refine ⟨by rw [jobNames_of_plan hplan]; exact h.names, ?_⟩
  intro before rjob after hsplit dep hdep
  let f := fun r : ReplicatedJob => (r.name, r.replicas, r.dependsOn.getD [])
  have hlists : a.plan.2 = before.map f ++ f rjob :: after.map f := by
    rw [← hplan]
    unfold JobSet.plan
    dsimp only
    rw [hsplit, List.map_append, List.map_cons]
  obtain ⟨before', rest', hsplit', hbefore, hrest⟩ := List.map_eq_append_iff.mp hlists
  obtain ⟨rjob', after', rfl, hrjob, -⟩ := List.map_eq_cons_iff.mp hrest
  have hdeps : rjob'.dependsOn.getD [] = rjob.dependsOn.getD [] :=
    (Prod.mk.inj (Prod.mk.inj hrjob).2).2
  obtain ⟨d', hd', hname⟩ := h.earlier before' rjob' after' hsplit' dep (hdeps ▸ hdep)
  have hmem := List.mem_map_of_mem (f := f) hd'
  rw [hbefore] at hmem
  obtain ⟨d, hd, hsame⟩ := List.mem_map.mp hmem
  exact ⟨d, hd, (Prod.mk.inj hsame).1.trans hname⟩

/-! ## The slot of a Job -/

/-- The name and the labels of the Job are those of an index of a ReplicatedJob. -/
def Slotted (js : JobSet) (job : Job) : Prop :=
  ∃ rjob ∈ js.spec.replicatedJobs, ∃ i < rjob.replicas,
    job.name = genJobName js.name rjob.name i ∧
    job.labels.lookup replicatedJobNameKey = some rjob.name ∧ jobIndexLabel job = some (i : ℤ)

theorem Slotted.of_plan {job : Job} (h : Slotted b job) (hplan : b.plan = a.plan) :
    Slotted a job := by
  obtain ⟨rjob, hrjob, i, hi, hname, hlabel, hindex⟩ := h
  obtain ⟨rjob', hrjob', hname', hreplicas, -⟩ := exists_counterpart hplan hrjob
  have hjs : b.name = a.name := (Prod.mk.inj hplan).1
  rw [← hname', hjs] at hname
  rw [← hname'] at hlabel
  exact ⟨rjob', hrjob', i, hreplicas ▸ hi, hname, hlabel, hindex⟩

theorem Slotted.congr {job job' : Job} (h : Slotted js job) (hname : job'.name = job.name)
    (hlabels : job'.labels = job.labels) : Slotted js job' := by
  unfold Slotted jobIndexLabel at h ⊢
  rw [hname, hlabels]
  exact h

/-- Slotted Jobs with different names have different slots. -/
theorem childrenOk_of_slotted {jobs : List Job} (hslots : ∀ job ∈ jobs, Slotted js job)
    (hdistinct : (jobs.map (·.name)).Nodup) : ChildrenOk js jobs := by
  constructor
  · intro job hjob
    obtain ⟨rjob, hrjob, i, hi, -, hlabel, hindex⟩ := hslots job hjob
    exact ⟨rjob, hrjob, i, hi, hlabel, hindex⟩
  · apply (List.pairwise_map.mp hdistinct).imp_of_mem
    rintro x y hx hy hne ⟨hname, hindex⟩
    obtain ⟨rx, -, i, -, hnx, hlx, hix⟩ := hslots x hx
    obtain ⟨ry, -, j, -, hny, hly, hiy⟩ := hslots y hy
    rw [hlx, hly] at hname
    rw [hix, hiy] at hindex
    have hij : i = j := by simpa using hindex
    apply hne
    rw [hnx, hny, Option.some.inj hname, hij]

end Plan

section Creation

variable {env : Env} {js : JobSet} {jobs : List Job} {s : Seen} {job : Job}

theorem Running.frame {owned : ChildJobs} {active : List Job} {p q : Pass}
    (h : Running env js jobs s owned active p q) : q.js = { js with status := q.js.status } :=
  frame_trans (entryPass_keepsTerminal env js owned).frame
    (h.passed.harmless.trans h.attempts.harmless).frame

theorem Creates.slotted (h : Creates env js jobs s job) : Slotted js job := by
  obtain ⟨owned, active, p, q, rjob, created, hr, ⟨before, after, hsplit, -⟩, hc, hjob⟩ := h
  obtain ⟨i, hi, hconstruct, -⟩ := constructJobsFromTemplate_mem hc hjob
  have hbuilt := constructJob_builtFor hconstruct
  have hname : q.js.name = js.name := by rw [hr.frame]
  refine ⟨rjob, by rw [hsplit]; simp, i, hi, ?_, hbuilt.replicatedJob, hbuilt.index⟩
  rw [← hname]
  exact hbuilt.name

theorem Creates.restartLabel (h : Creates env js jobs s job) :
    restartLabel job = some (js.status.restarts : ℤ) := by
  obtain ⟨owned, active, p, q, rjob, created, hr, -, hc, hjob⟩ := h
  obtain ⟨i, -, hconstruct, -⟩ := constructJobsFromTemplate_mem hc hjob
  obtain ⟨hlabel, -⟩ := constructJob_labels hconstruct
  have hsame : q.js.status.restarts = js.status.restarts := by
    rw [(hr.passed.harmless.trans hr.attempts.harmless).restarts, entryPass_js]
  unfold JobSetOperator.restartLabel StrMap.get
  rw [hlabel, ← hsame]
  exact parseInt_itoa _

/-- The dependencies of a new Job are met by the Jobs of the list. -/
theorem Creates.dependencies (h : Creates env js jobs s job) (hjs : DependsOnOk js)
    (hjobs : ChildrenOk js jobs) : ∃ rjob ∈ js.spec.replicatedJobs,
      job.labels.lookup replicatedJobNameKey = some rjob.name ∧
      ∀ dep ∈ rjob.dependsOn.getD [], DependencyMet env.gates js jobs dep := by
  obtain ⟨owned, active, p, q, rjob, created, hr, ⟨before, after, hsplit, hturn⟩, hc, hjob⟩ := h
  obtain ⟨i, -, hconstruct, -⟩ := constructJobsFromTemplate_mem hc hjob
  refine ⟨rjob, by rw [hsplit]; simp, (constructJob_builtFor hconstruct).replicatedJob, ?_⟩
  intro dep hdep
  have hreached := List.all_eq_true.mp hturn.reached dep hdep
  exact dependencyMet_of_reached hjs hjobs hr.sorted hsplit hdep hreached

end Creation

namespace Cluster

/-! ## Where the Jobs come from -/

/-- The gates are fixed, users keep the plan, and only the controller creates child Jobs. -/
structure PlanSetting (S : Setting) (gates : FeatureGates) : Prop where
  gates : ∀ env, S.allowed env → env.gates = gates
  plan : ∀ a b, S.admits a b → b.plan = a.plan
  foreign : ∀ job, ¬ S.foreign job

/-- A reconcile has built the Job of version `k` from older versions. -/
def Built (S : Setting) (w : World) (k : ℕ) (job : Job) : Prop :=
  ∃ env jobs s created, S.allowed env ∧ ∃ u ≤ w.sets.top, ∃ k' < k,
    jobs.Perm (w.jobs.entry k') ∧ Creates env (w.sets.entry u) jobs s created ∧
    job.name = created.name ∧ job.labels = created.labels

section Runs

variable {S : Setting} {gates : FeatureGates} {js : JobSet} {w : World}

theorem PlanSetting.fixedGates (hS : PlanSetting S gates) : FixedGates S gates :=
  ⟨hS.gates, fun a b h => jobNames_of_plan (hS.plan a b h), hS.foreign⟩

/-- Every version keeps the plan. -/
theorem reachable_plan (hS : PlanSetting S gates) (h : Reachable S js w) :
    w.sets.All fun a => a.plan = js.plan := by
  have hall := reachable_sets (P := fun a => a.plan = js.plan) (R := fun _ _ => True)
    (fun _ => trivial) (fun _ _ _ _ _ => trivial)
    (fun a b hadmits _ ha => ⟨(hS.plan a b hadmits).trans ha, trivial⟩)
    (fun a t ha => ⟨ha, trivial⟩)
    (fun env js₀ jobs s js' _ hread _ hwrites =>
      ⟨(plan_of_spec (by rw [hwrites.frame]) (by rw [hwrites.frame])).trans hread, trivial⟩)
    rfl h
  exact hall.1

theorem Built.grow {w' : World} {k : ℕ} {job : Job} (h : Built S w k job)
    (hk : k ≤ w.jobs.top + 1) (hsets : w.sets.Grows w'.sets) (hjobs : w.jobs.Grows w'.jobs) :
    Built S w' k job := by
  obtain ⟨env, jobs, s, created, hallowed, u, hu, k', hk', hperm, hcreates, hsame⟩ := h
  refine ⟨env, jobs, s, created, hallowed, u, hu.trans hsets.1, k', hk', ?_, ?_, hsame⟩
  · rw [hjobs.2 k' (by omega)]
    exact hperm
  · rw [hsets.2 u hu]
    exact hcreates

theorem reachable_built (hforeign : ∀ job, ¬ S.foreign job) (h : Reachable S js w) :
    ∀ k ≤ w.jobs.top, ∀ job ∈ w.jobs.entry k, Built S w k job := by
  induction h with
  | refl => simp [World.initial]
  | @tail w w' hrun hstep ih =>
    have hinv := reachable_inv hrun
    have hmove := step_move hinv hstep
    have hsets := History.grows_of_push hmove.sets
    have hgrows := History.grows_of_push hmove.jobs
    have hold : ∀ k ≤ w.jobs.top, ∀ job ∈ w.jobs.entry k, Built S w' k job := fun k hk job hjob =>
      (ih k hk job hjob).grow (by omega) hsets hgrows
    intro k hk job hjob
    rcases hmove.jobs with hsame | ⟨l, hpush⟩
    · rw [hsame] at hk hjob
      exact hold k hk job hjob
    · rw [hpush] at hk hjob
      rcases w.jobs.push_entry_cases l hk with ⟨hk', he⟩ | ⟨hk', he⟩
      · rw [he] at hjob
        exact hold k hk' job hjob
      · have hcurrent : job ∈ w'.jobs.current := by
          rw [hpush, History.push_current]
          rwa [he] at hjob
        rcases hmove.origin hcurrent with ⟨a, ha, hs⟩ | ⟨a, created, busy, hc, rfl, -⟩ |
          ⟨_, hother, -⟩
        · obtain ⟨env, jobs, s, created, hallowed, u, hu, k₀, hk₀, hrest⟩ := hold _ le_rfl a ha
          obtain ⟨hperm, hcreates, hname, hlabels⟩ := hrest
          exact ⟨env, jobs, s, created, hallowed, u, hu, k₀, by omega, hperm, hcreates,
            hs.name.trans hname, hs.labels.trans hlabels⟩
        · have hread := hinv.attempt a busy
          refine ⟨a.env, a.jobs, a.seen, created, hread.allowed, w.seenSets,
            hinv.seenSets.trans hsets.1, w.seenJobs, ?_, ?_, ?_, rfl, rfl⟩
          · have := hinv.seenJobs
            omega
          · rw [hgrows.2 _ hinv.seenJobs]
            exact hread.jobs
          · rw [hsets.2 _ hinv.seenSets, ← hread.js]
            exact hc
        · exact absurd hother (hforeign _)

theorem reachable_slotted (hS : PlanSetting S gates) (h : Reachable S js w) {k : ℕ}
    (hk : k ≤ w.jobs.top) {job : Job} (hjob : job ∈ w.jobs.entry k) : Slotted js job := by
  obtain ⟨env, jobs, s, created, -, u, hu, k', -, -, hcreates, hname, hlabels⟩ :=
    reachable_built hS.foreign h k hk job hjob
  exact (hcreates.slotted.congr hname hlabels).of_plan (reachable_plan hS h u hu)

/-- Any list of Jobs there ever was has at most one Job for each slot. -/
theorem reachable_childrenOk (hS : PlanSetting S gates) (h : Reachable S js w) {k : ℕ}
    (hk : k ≤ w.jobs.top) {jobs : List Job} (hjobs : jobs.Perm (w.jobs.entry k)) {u : ℕ}
    (hu : u ≤ w.sets.top) : ChildrenOk (w.sets.entry u) jobs := by
  apply childrenOk_of_slotted
  · intro job hjob
    apply (reachable_slotted hS h hk (hjobs.mem_iff.mp hjob)).of_plan
    exact (reachable_plan hS h u hu).symm
  · exact (hjobs.map _).nodup_iff.mpr ((reachable_inv h).jobs.names k hk)

/-! ## Dependencies -/

/-- The Job has come as far as the dependency asks. -/
def Reached (status : DependsOnStatus) (job : Job) : Prop :=
  match status with
  | .dependencyComplete => jobFinished job = some .jobComplete
  | .dependencyReady => (jobFinished job = none ∧ jobReady job = true) ∨
      jobFinished job = some .jobComplete ∨ jobFinished job = some .jobFailed

/-- In a version before `k`, each index of the dependency had a Job that had come as far as
asked, in the attempt of the Job or a later one. -/
def Preceded (js : JobSet) (w : World) (k : ℕ) (job : Job) (dep : DependsOn) : Prop :=
  ∃ d ∈ js.spec.replicatedJobs, d.name = dep.name ∧ ∃ k' < k, ∀ i < d.replicas,
    ∃ earlier ∈ w.jobs.entry k', earlier.labels.lookup replicatedJobNameKey = some d.name ∧
      jobIndexLabel earlier = some (i : ℤ) ∧ Reached dep.status earlier ∧
      ∃ r r', restartLabel job = some r ∧ restartLabel earlier = some r' ∧ r ≤ r'

/-- **Dependencies come first.** In every run, each Job there ever is belongs to a ReplicatedJob
each of whose dependencies had come as far as asked before the Job was created: in one earlier
list of Jobs every index of it had a Job, in the attempt of the Job or a later one, that had
succeeded or, for `Ready`, was ready or had finished. -/
theorem dependents_follow (hS : PlanSetting S gates) (hjs : DependsOnOk js)
    (h : Reachable S js w) : ∀ k ≤ w.jobs.top, ∀ job ∈ w.jobs.entry k,
      ∃ rjob ∈ js.spec.replicatedJobs, job.labels.lookup replicatedJobNameKey = some rjob.name ∧
        ∀ dep ∈ rjob.dependsOn.getD [], Preceded js w k job dep := by
  intro k hk job hjob
  obtain ⟨env, jobs, s, created, -, u, hu, k', hk', hperm, hcreates, -, hlabels⟩ :=
    reachable_built hS.foreign h k hk job hjob
  have hplan := reachable_plan hS h u hu
  have hchildren := reachable_childrenOk hS h (by omega) hperm hu
  obtain ⟨rjob', hrjob', hname', hdeps⟩ := hcreates.dependencies (hjs.of_plan hplan) hchildren
  obtain ⟨rjob, hrjob, hname, -, hsame⟩ := exists_counterpart hplan hrjob'
  refine ⟨rjob, hrjob, by rw [hlabels, hname', hname], fun dep hdep => ?_⟩
  rw [hsame] at hdep
  obtain ⟨d', hd', hdname, hmet⟩ := hdeps dep hdep
  obtain ⟨d, hd, hdname', hreplicas, -⟩ := exists_counterpart hplan hd'
  have hlabel : restartLabel job = some ((w.sets.entry u).status.restarts : ℤ) := by
    rw [← hcreates.restartLabel]
    unfold restartLabel
    rw [hlabels]
  have hcovered : Covered jobs d' fun earlier => CurrentJob env.gates (w.sets.entry u) earlier ∧
      Reached dep.status earlier := by
    unfold Reached
    cases hstatus : dep.status with
    | dependencyComplete =>
      rw [hstatus] at hmet
      exact hmet
    | dependencyReady =>
      rw [hstatus] at hmet
      exact hmet
  refine ⟨d, hd, hdname'.trans hdname, k', hk', fun i hi => ?_⟩
  obtain ⟨earlier, hmem, hof, hindex, ⟨⟨r, hr, hle⟩, -⟩, hreached⟩ := hcovered i (hreplicas ▸ hi)
  exact ⟨earlier, hperm.mem_iff.mp hmem, by rw [hof, hdname'], hindex, hreached, _, r, hlabel, hr,
    hle⟩

end Runs

/-! ## A Job that waits for another one -/

/-- The Job of `b` waits for the Job of `a`. -/
def waitingSet : JobSet :=
  plainSet [.single "a" 1, { ReplicatedJob.single "b" 1 with
    dependsOn := some [⟨"a", .dependencyComplete⟩] }] 0 .recreate

def completeStatus : JobStatus := ⟨[⟨.jobComplete, .conditionTrue, "", "", 0⟩], 0, none, 1, some 0⟩

/-- The Job of `a` is created and succeeds, and then the Job of `b` is created. -/
def waitingEvents : List Event :=
  [.begin 0 0, .answer 0, .answer 0, .stop, .progress "js-a-0" completeStatus, .begin 1 2,
    .answer 0]

theorem waitingSet_dependsOnOk : DependsOnOk waitingSet := by
  refine ⟨by decide, ?_⟩
  rintro (_ | ⟨first, _ | ⟨second, before⟩⟩) rjob after hsplit
  · cases hsplit
    simp [ReplicatedJob.single]
  · cases hsplit
    simp [ReplicatedJob.single]
  · simp [waitingSet, plainSet] at hsplit

/-- Users change neither the name nor the spec. -/
def namedSetting (env : Env) : Setting :=
  { plainSetting env with admits := fun a b => b.name = a.name ∧ b.spec = a.spec }

theorem named_planSetting (gates : FeatureGates) :
    PlanSetting (namedSetting (plainEnv gates)) gates where
  gates := by rintro env rfl; rfl
  plan := fun a b h => plan_of_spec h.1 h.2
  foreign := fun _ h => h

/-- The Job of `b` is there, and the Job of `a` had succeeded before. -/
theorem dependents_follow_two :
    ∃ w, Reachable (namedSetting (plainEnv restartJobGates)) waitingSet w ∧
      ∃ job ∈ w.jobs.current, job.labels.lookup replicatedJobNameKey = some "b" ∧
        Preceded waitingSet w w.jobs.top job ⟨"a", .dependencyComplete⟩ := by
  obtain ⟨w, hw, hp⟩ := run_reachable (S := namedSetting (plainEnv restartJobGates))
    (p := fun w => w.jobs.current.any fun job : Job =>
      job.labels.lookup replicatedJobNameKey = some "b")
    rfl waitingSet waitingEvents (by simp [waitingEvents, Event.Permitted]) (by decide +kernel)
  obtain ⟨job, hjob, hlabel⟩ := List.any_eq_true.mp hp
  rw [decide_eq_true_eq] at hlabel
  obtain ⟨rjob, hrjob, hname, hdeps⟩ := dependents_follow (named_planSetting restartJobGates)
    waitingSet_dependsOnOk hw w.jobs.top le_rfl job hjob
  rw [hlabel] at hname
  have hb : rjob = { ReplicatedJob.single "b" 1 with
      dependsOn := some [⟨"a", .dependencyComplete⟩] } := by
    rcases List.mem_cons.mp hrjob with rfl | hrest
    · simp [ReplicatedJob.single] at hname
    · exact List.mem_singleton.mp hrest
  subst hb
  exact ⟨w, hw, job, hjob, hlabel, hdeps _ List.mem_cons_self⟩

end Cluster

end JobSetOperator
