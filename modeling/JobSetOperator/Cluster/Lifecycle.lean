import JobSetOperator.Admission.Immutable
import JobSetOperator.Cluster.Execution
import JobSetOperator.Cluster.Restarts
import JobSetOperator.Cluster.Terminal
import JobSetOperator.Library.Workloads

/-!
# The life of a JobSet

What a JobSet is for, apart from all conditions, caches and lists of counters: its Jobs
are the parts of a workload that restarts within a budget until it completes or fails.
`JobSet.workload` forgets the rest of a status. Whatever users and the controller do,
each persisted version of the JobSet is one step of the workload after the one before it
or shows the same workload.
-/
namespace JobSetOperator

open Library

/-- One part for each index of each ReplicatedJob. -/
def JobSet.parts (js : JobSet) : Finset (String × ℕ) :=
  (js.spec.replicatedJobs.flatMap fun rjob =>
    (List.range rjob.replicas).map fun jobIdx => (rjob.name, jobIdx)).toFinset

/-- The ReplicatedJobs with their numbers of replicas. -/
def JobSet.scale (js : JobSet) : List (String × ℕ) :=
  js.spec.replicatedJobs.map fun rjob => (rjob.name, rjob.replicas)

/-- The restarts that may count towards the maximum. -/
def JobSet.restartBudget (js : JobSet) : Option ℤ := js.spec.failurePolicy.map (·.maxRestarts)

/-- What the terminal state says. -/
def JobSet.fate (js : JobSet) : Fate :=
  match js.status.terminalState with
  | some .jobSetCompleted => .completed
  | some .jobSetFailed => .failed
  | _ => .running

/-- The restarts of the Jobs of one ReplicatedJob that count. -/
def countedRestarts (js : JobSet) (name : String) : ℕ :=
  (getJobRestartsCountTowardsMax js name).sum

/-- The workload that a version of the JobSet shows. -/
def JobSet.workload (js : JobSet) : Workload (String × ℕ) where
  fate := js.fate
  restarts := js.status.restarts
  partRestarts part := if part.1 ∈ js.jobNames then individualCounter js part.1 part.2 else 0
  charged := js.status.restartsCountTowardsMax +
    ∑ name ∈ js.jobNames.toFinset, countedRestarts js name

/-! ## Versions that show the same workload -/

theorem countedRestarts_eq (js : JobSet) (name : String) :
    countedRestarts js name =
      (((findReplicatedJobStatus js.status.replicatedJobsStatus name).map
        (·.jobRestartsCountTowardsMax)).getD []).sum := by
  unfold countedRestarts
  cases hf : findReplicatedJobStatus js.status.replicatedJobsStatus name with
  | none =>
    unfold getJobRestartsCountTowardsMax
    rw [hf]
    simp
  | some rjs =>
    rw [getJobRestartsCountTowardsMax_of_find hf, filled_sum]
    rfl

theorem individualCounter_of_statuses {a b : JobSet}
    (h : b.status.replicatedJobsStatus = a.status.replicatedJobsStatus) (name : String) (i : ℕ) :
    individualCounter b name i = individualCounter a name i := by
  rw [individualCounter_eq, individualCounter_eq, h]

theorem countedRestarts_of_statuses {a b : JobSet}
    (h : b.status.replicatedJobsStatus = a.status.replicatedJobsStatus) (name : String) :
    countedRestarts b name = countedRestarts a name := by
  rw [countedRestarts_eq, countedRestarts_eq, h]

theorem jobNames_congr {a b : JobSet} (h : b.scale = a.scale) : b.jobNames = a.jobNames := by
  have hnames : ∀ js : JobSet, js.jobNames = js.scale.map Prod.fst := fun js => by
    unfold JobSet.jobNames JobSet.scale
    rw [List.map_map]
    rfl
  rw [hnames, hnames, h]

theorem parts_congr {a b : JobSet} (h : b.scale = a.scale) : b.parts = a.parts := by
  have hparts : ∀ js : JobSet, js.parts =
      (js.scale.flatMap fun p => (List.range p.2).map fun jobIdx => (p.1, jobIdx)).toFinset :=
    fun js => by
      unfold JobSet.parts JobSet.scale
      rw [List.flatMap_map]
  rw [hparts, hparts, h]

theorem replicas_congr {a b : JobSet} (h : b.scale = a.scale) (name : String) :
    getReplicatedJobReplicas b name = getReplicatedJobReplicas a name := by
  have hreplicas : ∀ js : JobSet, getReplicatedJobReplicas js name =
      ((js.scale.find? fun p => p.1 = name).map Prod.snd).getD 0 := fun js => by
    unfold getReplicatedJobReplicas JobSet.scale
    rw [List.find?_map]
    cases hfind : js.spec.replicatedJobs.find? fun rj => rj.name = name <;>
      simp [hfind]
  rw [hreplicas, hreplicas, h]

section Same

variable {a b : JobSet}

theorem fate_congr (h : b.status.terminalState = a.status.terminalState) : b.fate = a.fate := by
  unfold JobSet.fate
  rw [h]

theorem workload_partRestarts (hjobs : b.jobNames = a.jobNames)
    (hparts : ∀ name ∈ a.jobNames, ∀ i, individualCounter b name i = individualCounter a name i) :
    b.workload.partRestarts = a.workload.partRestarts := by
  funext part
  unfold JobSet.workload
  dsimp only
  rw [hjobs]
  split_ifs with hname
  · exact hparts _ hname _
  · rfl

theorem workload_charged (hjobs : b.jobNames = a.jobNames) {charge : ℕ}
    (hcounted : b.status.restartsCountTowardsMax = a.status.restartsCountTowardsMax + charge)
    (hsums : ∀ name ∈ a.jobNames, countedRestarts b name = countedRestarts a name) :
    b.workload.charged = a.workload.charged + charge := by
  have hsum : ∑ name ∈ a.jobNames.toFinset, countedRestarts b name =
      ∑ name ∈ a.jobNames.toFinset, countedRestarts a name :=
    Finset.sum_congr rfl fun name hname => hsums name (List.mem_toFinset.mp hname)
  unfold JobSet.workload
  dsimp only
  rw [hjobs, hcounted, hsum]
  exact Nat.add_right_comm _ _ _

theorem workload_congr (hjobs : b.jobNames = a.jobNames)
    (hstate : b.status.terminalState = a.status.terminalState)
    (hrestarts : b.status.restarts = a.status.restarts)
    (hcounted : b.status.restartsCountTowardsMax = a.status.restartsCountTowardsMax)
    (hparts : ∀ name ∈ a.jobNames, ∀ i, individualCounter b name i = individualCounter a name i)
    (hsums : ∀ name ∈ a.jobNames, countedRestarts b name = countedRestarts a name) :
    b.workload = a.workload := by
  apply Workload.ext
  · exact fate_congr hstate
  · exact hrestarts
  · exact workload_partRestarts hjobs hparts
  · exact workload_charged hjobs (hcounted.trans (Nat.add_zero _).symm) hsums

theorem workload_of_status (hjobs : b.jobNames = a.jobNames) (h : b.status = a.status) :
    b.workload = a.workload := by
  apply workload_congr hjobs (by rw [h]) (by rw [h]) (by rw [h])
  · exact fun name _ => individualCounter_of_statuses (by rw [h]) name
  · exact fun name _ => countedRestarts_of_statuses (by rw [h]) name

theorem scale_of_spec (h : b.spec = a.spec) : b.scale = a.scale := by
  unfold JobSet.scale
  rw [h]

theorem jobNames_of_spec (h : b.spec = a.spec) : b.jobNames = a.jobNames :=
  jobNames_congr (scale_of_spec h)

theorem KeepsTerminal.spec (h : KeepsTerminal a b) : b.spec = a.spec := by
  rw [h.frame]

theorem Harmless.workload (h : Harmless a b) : b.workload = a.workload := by
  apply workload_congr (jobNames_of_spec h.spec) h.terminalState h.restarts h.counted
  · exact fun name _ => individualCounter_of_statuses h.statuses name
  · exact fun name _ => countedRestarts_of_statuses h.statuses name

end Same

section Entry

variable {env : Env} {js : JobSet} {owned : ChildJobs}

theorem entry_countedRestarts (hgate : env.gates.restartJob = true) {name : String}
    (hname : name ∈ js.jobNames) :
    countedRestarts (entryPass env js owned).js name = countedRestarts js name := by
  rw [countedRestarts_eq, countedRestarts_eq, entry_find env js owned hname]
  simp [replicatedJobStatus, hgate]

/-- New counts of the Jobs show the same workload. -/
theorem workload_entry (hgate : env.gates.restartJob = true) :
    (entryPass env js owned).js.workload = js.workload := by
  have hkeeps := entryPass_keepsTerminal env js owned
  apply workload_congr (jobNames_of_spec hkeeps.spec) hkeeps.terminalState
  · rw [entryPass_js]
  · rw [entryPass_js]
  · exact fun name hname i => entry_individualCounter hgate hname i
  · exact fun name hname => entry_countedRestarts hgate hname

/-- The new counts have one entry for each name, so the budget is compared with what the
workload was charged. -/
theorem entry_total :
    totalRestartsCountTowardsMax (entryPass env js owned).js =
      (entryPass env js owned).js.workload.charged := by
  have hnames : (entryPass env js owned).js.jobNames.toFinset = (replicatedJobNames js).toFinset := by
    rw [jobNames_of_spec (entryPass_keepsTerminal env js owned).spec]
    ext name
    rw [List.mem_toFinset, List.mem_toFinset]
    exact List.mem_dedup.symm
  have hsum : sumJobRestartsCountTowardsMax (entryPass env js owned).js =
      ((replicatedJobNames js).map (countedRestarts (entryPass env js owned).js)).sum := by
    have hperm : ((entryPass env js owned).js.status.replicatedJobsStatus).Perm
        (calculateReplicatedJobStatuses env.gates js owned) := by
      rw [entryPass_js]
      exact List.perm_insertionSort _ _
    unfold sumJobRestartsCountTowardsMax
    rw [(hperm.map _).sum_eq]
    unfold calculateReplicatedJobStatuses
    rw [List.map_map]
    congr 1
    apply List.map_congr_left
    intro name hname
    rw [countedRestarts_eq, entry_find env js owned (List.mem_dedup.mp hname)]
    rfl
  unfold totalRestartsCountTowardsMax JobSet.workload
  dsimp only
  have hnodup : (replicatedJobNames js).Nodup := List.nodup_dedup _
  rw [hsum, hnames, List.sum_toFinset _ hnodup]

end Entry

/-! ## Steps -/

section Steps

variable {env : Env} {owned : ChildJobs} {job : Job} {a b : JobSet}

theorem Ends.workload {t : JobSetConditionType} (h : Ends t a b) :
    b.workload = { a.workload with fate := b.fate } := by
  have hspec : b.spec = a.spec := by rw [h.frame]
  apply Workload.ext
  · rfl
  · exact h.restarts
  · exact workload_partRestarts (jobNames_of_spec hspec)
      fun name _ => individualCounter_of_statuses h.statuses name
  · exact workload_charged (jobNames_of_spec hspec) (h.counted.trans (Nat.add_zero _).symm)
      fun name _ => countedRestarts_of_statuses h.statuses name

theorem Ends.step {t : JobSetConditionType} (h : Ends t a b) (running : a.fate = .running)
    (parts : Finset (String × ℕ)) (budget : Option ℤ) :
    Workload.Step parts budget a.workload b.workload := by
  rw [h.workload]
  have hstate := h.terminalState
  have hterminal := h.isTerminal
  rcases hterminal with rfl | rfl
  · have hfate : b.fate = .completed := by
      unfold JobSet.fate
      rw [hstate]
    rw [hfate]
    exact .complete running
  · have hfate : b.fate = .failed := by
      unfold JobSet.fate
      rw [hstate]
    rw [hfate]
    exact .fail running

theorem RestartsAll.step (h : RestartsAll env owned job a b) (hgate : env.gates.restartJob = true)
    (running : a.fate = .running) (htotal : totalRestartsCountTowardsMax a = a.workload.charged)
    (parts : Finset (String × ℕ)) :
    Workload.Step parts a.restartBudget a.workload b.workload := by
  have hjobs : b.jobNames = a.jobNames := jobNames_of_spec h.toKeepsTerminal.spec
  have hworkload : ∀ charge : ℕ,
      b.status.restartsCountTowardsMax = a.status.restartsCountTowardsMax + charge →
      b.workload = { a.workload with
        restarts := a.workload.restarts + 1, charged := a.workload.charged + charge } := by
    intro charge hcharge
    apply Workload.ext
    · exact fate_congr h.terminalState
    · exact h.restarts
    · exact workload_partRestarts hjobs
        fun name _ => individualCounter_of_statuses h.statuses name
    · exact workload_charged hjobs hcharge
        fun name _ => countedRestarts_of_statuses h.statuses name
  rcases h.counted with hcounted | ⟨hcounted, fp, hfp, hleft⟩
  · rw [hworkload 0 hcounted]
    exact .restart running (Or.inl rfl)
  · rw [hworkload 1 hcounted]
    apply Workload.Step.restart running
    refine Or.inr ⟨rfl, fp.maxRestarts, ?_, htotal ▸ hleft hgate⟩
    unfold JobSet.restartBudget
    rw [hfp]
    rfl

/-- An index below the length of the list of restarts is a part. -/
theorem mem_parts {name : String} {index : ℕ} (h : index < getReplicatedJobReplicas a name) :
    (name, index) ∈ a.parts := by
  unfold getReplicatedJobReplicas at h
  cases hfind : a.spec.replicatedJobs.find? (fun rjob => rjob.name = name) with
  | none =>
    rw [hfind] at h
    exact absurd h (Nat.not_lt_zero _)
  | some rjob =>
    rw [hfind] at h
    have hname : rjob.name = name := by simpa using List.find?_some hfind
    unfold JobSet.parts
    rw [List.mem_toFinset, List.mem_flatMap]
    refine ⟨rjob, List.mem_of_find?_eq_some hfind, List.mem_map.mpr ⟨index, ?_, ?_⟩⟩
    · exact List.mem_range.mpr h
    · rw [hname]

theorem name_of_parts {part : String × ℕ} (h : part ∈ a.parts) : part.1 ∈ a.jobNames := by
  unfold JobSet.parts at h
  rw [List.mem_toFinset, List.mem_flatMap] at h
  obtain ⟨rjob, hrjob, hmem⟩ := h
  obtain ⟨index, -, rfl⟩ := List.mem_map.mp hmem
  exact List.mem_map_of_mem hrjob

/-- What a restart of one Job adds to the lists of counted restarts, and that it may. -/
theorem RestartsJob.charge (h : RestartsJob env owned job a b)
    (hnames : ∀ n ∈ a.jobNames,
      (findReplicatedJobStatus a.status.replicatedJobsStatus n).isSome = true)
    (htotal : totalRestartsCountTowardsMax a = a.workload.charged) {name : String} {index : ℕ}
    (hname : job.labels.lookup replicatedJobNameKey = some name)
    (hindex : jobIndexLabel job = some (index : ℤ)) :
    index < (getJobRestarts a name).length ∧
    ∃ charge, a.workload.Affords a.restartBudget charge ∧ ∀ n ∈ a.jobNames,
      countedRestarts b n = countedRestarts a n + if n = name then charge else 0 := by
  obtain ⟨name', index', hname', hindex', total, counts, hlt, rfl, hstatuses⟩ := h.raised
  obtain rfl : name = name' := Option.some.inj (hname.symm.trans hname')
  obtain rfl : index = index' := by
    have hsame : (index : ℤ) = index' := Option.some.inj (hindex.symm.trans hindex')
    omega
  refine ⟨hlt, ?_⟩
  rcases hstatuses with hs | ⟨fp, hfp, hleft, hlt', rfl, hs⟩
  · refine ⟨0, Or.inl rfl, fun n hn => ?_⟩
    obtain ⟨rjs, hfind⟩ := Option.isSome_iff_exists.mp (hnames n hn)
    rw [countedRestarts_eq b, countedRestarts_eq a, hs, find_updateStatusOf, hfind]
    · by_cases hsame : n = name <;> simp [hsame]
    · exact fun _ => rfl
  · refine ⟨1, Or.inr ⟨rfl, fp.maxRestarts, ?_, htotal ▸ hleft⟩, fun n hn => ?_⟩
    · unfold JobSet.restartBudget
      rw [hfp]
      rfl
    · obtain ⟨rjs, hfind⟩ := Option.isSome_iff_exists.mp (hnames n hn)
      rw [countedRestarts_eq b, countedRestarts_eq a, hs, find_updateStatusOf, hfind]
      · by_cases hsame : n = name
        · subst hsame
          have hsum : ((getJobRestartsCountTowardsMax a n).modify index (· + 1)).sum =
              rjs.jobRestartsCountTowardsMax.sum + 1 := by
            rw [modify_sum _ hlt', getJobRestartsCountTowardsMax_of_find hfind, filled_sum]
          simpa using hsum
        · simp [hsame]
      · exact fun _ => rfl

theorem RestartsJob.step (h : RestartsJob env owned job a b)
    (hnames : ∀ n ∈ a.jobNames,
      (findReplicatedJobStatus a.status.replicatedJobsStatus n).isSome = true)
    (running : a.fate = .running) (htotal : totalRestartsCountTowardsMax a = a.workload.charged)
    (hlengths : ∀ name, (getJobRestarts a name).length = getReplicatedJobReplicas a name) :
    Workload.Step a.parts a.restartBudget a.workload b.workload := by
  have hjobs : b.jobNames = a.jobNames := jobNames_of_spec h.toKeepsTerminal.spec
  rcases h.increment hnames with ⟨hr, -⟩ | ⟨-, hrestarts, name, index, hname, hindex, hraised⟩
  · rw [h.restarts] at hr
    omega
  · obtain ⟨hlt, charge, affords, hcharge⟩ := h.charge hnames htotal hname hindex
    have hpart : (name, index) ∈ a.parts := mem_parts (hlengths name ▸ hlt)
    have hmem : name ∈ a.jobNames := name_of_parts hpart
    have hworkload : b.workload = { a.workload with
        partRestarts := Function.update a.workload.partRestarts (name, index)
          (a.workload.partRestarts (name, index) + 1)
        charged := a.workload.charged + charge } := by
      apply Workload.ext
      · exact fate_congr h.terminalState
      · exact hrestarts
      · funext part
        obtain ⟨n, i⟩ := part
        unfold JobSet.workload
        dsimp only
        rw [hjobs]
        by_cases hn : n ∈ a.jobNames
        · rw [if_pos hn, hraised n hn i]
          by_cases hsame : n = name ∧ i = index
          · obtain ⟨rfl, rfl⟩ := hsame
            simp [hn]
          · have hne : (n, i) ≠ (name, index) := fun he => hsame (Prod.mk.inj he)
            rw [Function.update_of_ne hne, if_pos hn, if_neg hsame, Nat.add_zero]
        · have hne : (n, i) ≠ (name, index) := fun he => hn ((Prod.mk.inj he).1 ▸ hmem)
          rw [if_neg hn, Function.update_of_ne hne, if_neg hn]
      · have hsum : ∑ n ∈ a.jobNames.toFinset, countedRestarts b n =
            (∑ n ∈ a.jobNames.toFinset, countedRestarts a n) + charge := by
          rw [Finset.sum_congr rfl fun n hn => hcharge n (List.mem_toFinset.mp hn),
            Finset.sum_add_distrib, Finset.sum_ite_eq', if_pos (List.mem_toFinset.mpr hmem)]
        unfold JobSet.workload
        dsimp only
        rw [hjobs, h.counted, hsum, Nat.add_assoc]
    rw [hworkload]
    exact .restartPart running hpart affords

end Steps

/-! ## Status writes -/

theorem running_of_unfinished {js : JobSet} (h : TerminalOk js) (hun : jobSetFinished js = false) :
    js.fate = .running := by
  have hnone : js.status.terminalState = none := by
    cases hstate : js.status.terminalState with
    | none => rfl
    | some t =>
      have hfin := h.finished.mp (by rw [hstate]; rfl)
      rw [hun] at hfin
      cases hfin
  unfold JobSet.fate
  rw [hnone]

/-- What a reconcile has read and what its first write has stored show the same workload. -/
theorem Writes.base_workload {env : Env} {js js' : JobSet} {jobs : List Job} {s : Seen}
    (h : Writes env js jobs s js') (hgate : env.gates.restartJob = true) :
    (s.acked.getD js).workload = js.workload := by
  rcases h.base with hfirst | ⟨owned, x, -, hacked, hharmless⟩
  · rw [hfirst]
    rfl
  · rw [hacked, Option.getD_some, hharmless.workload, workload_entry hgate]

/-- A status write is a step of the workload, or does not show in it. -/
theorem Writes.workload_step {env : Env} {js js' : JobSet} {jobs : List Job} {s : Seen}
    (h : Writes env js jobs s js') (hgate : env.gates.restartJob = true)
    (hterminal : TerminalOk js) (hcounters : CountersOk js) :
    js'.workload = (s.acked.getD js).workload ∨
      Workload.Step js.parts js.restartBudget (s.acked.getD js).workload js'.workload := by
  rw [h.base_workload hgate]
  obtain ⟨owned, -, ho⟩ := h.outcome
  have hentry : (entryPass env js owned).js.workload = js.workload := workload_entry hgate
  have hspec : (entryPass env js owned).js.spec = js.spec :=
    (entryPass_keepsTerminal env js owned).spec
  have hparts : (entryPass env js owned).js.parts = js.parts := parts_congr (scale_of_spec hspec)
  have hbudget : (entryPass env js owned).js.restartBudget = js.restartBudget := by
    unfold JobSet.restartBudget
    rw [hspec]
  have hrunning : jobSetFinished js = false → (entryPass env js owned).js.fate = .running := by
    intro hf
    rw [fate_congr (entryPass_keepsTerminal env js owned).terminalState]
    exact running_of_unfinished hterminal hf
  rw [← hentry, ← hparts, ← hbudget]
  cases ho with
  | finished hf first => exact Or.inl rfl
  | harmless hf effect => exact Or.inl effect.workload
  | ends hf effect => exact Or.inr (effect.step (hrunning hf) _ _)
  | restartsAll hf first effect =>
    exact Or.inr (effect.step hgate (hrunning hf) entry_total _)
  | restartsJob hf first effect =>
    apply Or.inr
    apply effect.step _ (hrunning hf) entry_total (hcounters.entry hgate).getJobRestarts_length
    intro n hn
    rw [jobNames_of_spec hspec] at hn
    rw [entry_find env js owned hn]
    rfl

namespace Cluster

/-! ## Runs -/

/-- The RestartJob gate is on, and users change neither the names and numbers of the
ReplicatedJobs nor the failure policy. -/
structure LifecycleSetting (S : Setting) : Prop where
  gate : ∀ env, S.allowed env → env.gates.restartJob = true
  scale : ∀ a b, S.admits a b → b.scale = a.scale
  policy : ∀ a b, S.admits a b → b.spec.failurePolicy = a.spec.failurePolicy

/-- The webhook accepts no other names or numbers. -/
theorem scale_of_update {webhook : Webhook} {old new : JobSet}
    (h : validateUpdate webhook old new = []) : new.scale = old.scale := by
  have hsame : List.Forall₂ (fun a b => (a.name, a.replicas) = (b.name, b.replicas))
      old.spec.replicatedJobs new.spec.replicatedJobs := by
    apply (validateUpdate_permitted h).imp
    intro a b hpermitted
    obtain ⟨hname, -, -, hreplicas, -⟩ := ReplicatedJob.mk.inj hpermitted.fixedPart
    exact Prod.ext hname.symm hreplicas.symm
  unfold JobSet.scale
  rw [← List.forall₂_eq_eq_eq, List.forall₂_map_left_iff, List.forall₂_map_right_iff]
  exact hsame.flip.imp fun _ _ heq => heq.symm

/-- What every version keeps. -/
structure LifeOk (js a : JobSet) : Prop where
  scale : a.scale = js.scale
  policy : a.spec.failurePolicy = js.spec.failurePolicy
  terminal : TerminalOk a
  counters : CountersOk a

theorem LifeOk.restartBudget {js a : JobSet} (h : LifeOk js a) :
    a.restartBudget = js.restartBudget := by
  unfold JobSet.restartBudget
  rw [h.policy]

/-- The counters do not depend on the rest of the spec. -/
theorem countersOk_of_status {a b : JobSet} (h : CountersOk a) (hscale : b.scale = a.scale)
    (hpolicy : b.spec.failurePolicy = a.spec.failurePolicy) (hstatus : b.status = a.status) :
    CountersOk b := by
  constructor
  · rw [hstatus]
    intro rjs hrjs
    rw [replicas_congr hscale]
    exact h.lengths rjs hrjs
  · rw [hstatus]
    exact h.pointwise
  · rw [hstatus]
    exact h.counted
  · unfold totalRestartsCountTowardsMax sumJobRestartsCountTowardsMax
    rw [hstatus, hpolicy]
    exact h.budget

section Lifecycle

variable {S : Setting} {js : JobSet} {w : World}

theorem reachable_lifeOk (hS : LifecycleSetting S) (hnew : js.status = .new)
    (hmax : ∀ fp, js.spec.failurePolicy = some fp → 0 ≤ fp.maxRestarts) (h : Reachable S js w) :
    w.sets.All (LifeOk js) := by
  apply (reachable_sets (P := LifeOk js) (R := fun _ _ => True) (fun _ => trivial) (fun _ _ _ _ _ => trivial)
    ?_ ?_ ?_ ?_ h).1
  · intro a b hadmits hstatus ha
    have hscale := hS.scale a b hadmits
    have hpolicy := hS.policy a b hadmits
    exact ⟨⟨hscale.trans ha.scale, hpolicy.trans ha.policy,
      terminalOk_of_status hstatus ha.terminal,
      countersOk_of_status ha.counters hscale hpolicy hstatus⟩, trivial⟩
  · intro a t ha
    exact ⟨⟨ha.scale, ha.policy, ha.terminal, countersOk_of_status ha.counters rfl rfl rfl⟩, trivial⟩
  · intro env js₀ jobs s js' hallowed hread _ hwrites
    have hspec : js'.spec = js₀.spec := by rw [hwrites.frame]
    exact ⟨⟨(scale_of_spec hspec).trans hread.scale, hspec ▸ hread.policy, hwrites.terminalOk hread.terminal,
      hwrites.countersOk (hS.gate env hallowed) hread.counters⟩, trivial⟩
  · refine ⟨rfl, rfl, ?_, ?_, ?_, ?_, fun fp hfp => ?_⟩
    · intro t
      simp [hnew, JobSetStatus.new, not_condTrue_nil]
    · simp [hnew, JobSetStatus.new]
    · simp [hnew, JobSetStatus.new]
    · simp [hnew, JobSetStatus.new]
    · simpa [hnew, JobSetStatus.new, totalRestartsCountTowardsMax,
        sumJobRestartsCountTowardsMax] using hmax fp hfp

/-- The version after this one shows the same workload, or one that a step leads to. -/
def Continues (js : JobSet) (w : World) (v : ℕ) : Prop :=
  (w.sets.entry (v + 1)).workload = (w.sets.entry v).workload ∨
    Workload.Step js.parts js.restartBudget (w.sets.entry v).workload
      (w.sets.entry (v + 1)).workload

theorem reachable_continues (hS : LifecycleSetting S) (hnew : js.status = .new)
    (hmax : ∀ fp, js.spec.failurePolicy = some fp → 0 ≤ fp.maxRestarts) (h : Reachable S js w) :
    ∀ v < w.sets.top, Continues js w v := by
  induction h with
  | refl => exact fun v hv => absurd hv (Nat.not_lt_zero v)
  | @tail w w' hrun hstep ih =>
    have hinv := reachable_inv hrun
    have hok := reachable_lifeOk hS hnew hmax hrun
    have hsets := History.grows_of_push (step_move hinv hstep).sets
    intro v hv
    unfold Continues
    rcases Nat.lt_or_ge v w.sets.top with hlt | hge
    · rw [hsets.2 v hlt.le, hsets.2 (v + 1) hlt]
      exact ih v hlt
    · rcases step_version hinv hstep with hsame | ⟨js', hpush, hversion⟩
      · rw [hsame] at hv
        exact absurd hge (not_le.mpr hv)
      · obtain rfl : v = w.sets.top := by
          rw [hpush, History.push_top] at hv
          omega
        rw [hsets.2 _ le_rfl, hpush, History.push_entry_top]
        rcases hversion with hstatus | ⟨a, busy, hwrites, hcurrent, -⟩
        · have hnames : js'.jobNames = w.sets.current.jobNames := by
            have hjs' := (reachable_lifeOk hS hnew hmax (hrun.tail hstep)).current.scale
            rw [hpush, History.push_current] at hjs'
            exact jobNames_congr (hjs'.trans hok.current.scale.symm)
          exact Or.inl (workload_of_status hnames hstatus)
        · have hread := hinv.attempt a busy
          have hreadOk : LifeOk js a.js := by
            rw [hread.js]
            exact hok _ hinv.seenSets
          have hstep' := hwrites.workload_step (hS.gate a.env hread.allowed) hreadOk.terminal
            hreadOk.counters
          rw [parts_congr hreadOk.scale, hreadOk.restartBudget, ← hcurrent] at hstep'
          exact hstep'

end Lifecycle

end Cluster

end JobSetOperator
