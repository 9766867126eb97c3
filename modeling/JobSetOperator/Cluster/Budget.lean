import JobSetOperator.Cluster.Execution
import JobSetOperator.Cluster.Invariant

/-!
# The restart budget

The lists of per-index restarts are empty until they are first written, and then
hold one number per replica. `CountersOk` is what every persisted status keeps of
them: their lengths, counted restarts below all restarts, and the sum of
everything that counts below the maximum. One lemma per outcome of a status write
carries it over.
-/
namespace JobSetOperator

open Library

/-! ## Lists that are filled in late -/

/-- An empty list stands for zeros. -/
def filled (replicas : ℕ) (l : List ℕ) : List ℕ := if l = [] then List.replicate replicas 0 else l

theorem filled_length {replicas : ℕ} {l : List ℕ} (h : l = [] ∨ l.length = replicas) :
    (filled replicas l).length = replicas := by
  unfold filled
  split_ifs with he
  · simp
  · exact h.resolve_left he

theorem filled_getD (replicas : ℕ) (l : List ℕ) (i : ℕ) :
    (filled replicas l).getD i 0 = l.getD i 0 := by
  unfold filled
  split_ifs with he
  · subst he
    by_cases hi : i < replicas <;> simp [List.getD, hi]
  · rfl

theorem filled_sum (replicas : ℕ) (l : List ℕ) : (filled replicas l).sum = l.sum := by
  unfold filled
  split_ifs with he
  · subst he
    simp
  · rfl

theorem modify_getD (l : List ℕ) {i : ℕ} (hi : i < l.length) (j : ℕ) :
    (l.modify i (· + 1)).getD j 0 = l.getD j 0 + if j = i then 1 else 0 := by
  rw [List.getD_eq_getElem?_getD, List.getD_eq_getElem?_getD, List.getElem?_modify]
  by_cases hj : j = i
  · subst hj
    simp [hi]
  · have hne : ¬ i = j := fun h => hj h.symm
    simp [hj, hne]

theorem modify_sum (l : List ℕ) {i : ℕ} (hi : i < l.length) :
    (l.modify i (· + 1)).sum = l.sum + 1 := by
  induction l generalizing i with
  | nil => simp at hi
  | cons x xs ih =>
    cases i with
    | zero =>
      simp only [List.modify_zero_cons, List.sum_cons]
      omega
    | succ i =>
      have hi' : i < xs.length := by simpa using hi
      simp only [List.modify_succ_cons, List.sum_cons, ih hi']
      omega

/-! ## The counters of a status -/

/-- What a persisted status keeps of its restart counters. -/
structure CountersOk (js : JobSet) : Prop where
  lengths : ∀ rjs ∈ js.status.replicatedJobsStatus,
    (rjs.jobRestarts = [] ∨ rjs.jobRestarts.length = getReplicatedJobReplicas js rjs.name) ∧
    (rjs.jobRestartsCountTowardsMax = [] ∨
      rjs.jobRestartsCountTowardsMax.length = getReplicatedJobReplicas js rjs.name)
  pointwise : ∀ rjs ∈ js.status.replicatedJobsStatus, ∀ i,
    rjs.jobRestartsCountTowardsMax.getD i 0 ≤ rjs.jobRestarts.getD i 0
  counted : js.status.restartsCountTowardsMax ≤ js.status.restarts
  budget : ∀ fp, js.spec.failurePolicy = some fp →
    (totalRestartsCountTowardsMax js : ℤ) ≤ fp.maxRestarts

/-- The lookup of a list of restarts fills it in. -/
theorem getJobRestarts_of_find {js : JobSet} {name : String} {rjs : ReplicatedJobStatus}
    (h : findReplicatedJobStatus js.status.replicatedJobsStatus name = some rjs) :
    getJobRestarts js name = filled (getReplicatedJobReplicas js name) rjs.jobRestarts := by
  unfold getJobRestarts
  rw [h]
  rfl

theorem getJobRestartsCountTowardsMax_of_find {js : JobSet} {name : String}
    {rjs : ReplicatedJobStatus}
    (h : findReplicatedJobStatus js.status.replicatedJobsStatus name = some rjs) :
    getJobRestartsCountTowardsMax js name =
      filled (getReplicatedJobReplicas js name) rjs.jobRestartsCountTowardsMax := by
  unfold getJobRestartsCountTowardsMax
  rw [h]
  rfl

theorem find_mem {l : List ReplicatedJobStatus} {name : String} {rjs : ReplicatedJobStatus}
    (h : findReplicatedJobStatus l name = some rjs) : rjs ∈ l ∧ rjs.name = name := by
  unfold findReplicatedJobStatus at h
  exact ⟨List.mem_of_find?_eq_some h, by simpa using List.find?_some h⟩

theorem CountersOk.getJobRestarts_length {js : JobSet} (h : CountersOk js) (name : String) :
    (getJobRestarts js name).length = getReplicatedJobReplicas js name := by
  cases hf : findReplicatedJobStatus js.status.replicatedJobsStatus name with
  | none =>
    unfold getJobRestarts
    rw [hf]
    simp
  | some rjs =>
    obtain ⟨hmem, rfl⟩ := find_mem hf
    rw [getJobRestarts_of_find hf]
    exact filled_length (h.lengths rjs hmem).1

theorem CountersOk.getJobRestartsCountTowardsMax_length {js : JobSet} (h : CountersOk js)
    (name : String) :
    (getJobRestartsCountTowardsMax js name).length = getReplicatedJobReplicas js name := by
  cases hf : findReplicatedJobStatus js.status.replicatedJobsStatus name with
  | none =>
    unfold getJobRestartsCountTowardsMax
    rw [hf]
    simp
  | some rjs =>
    obtain ⟨hmem, rfl⟩ := find_mem hf
    rw [getJobRestartsCountTowardsMax_of_find hf]
    exact filled_length (h.lengths rjs hmem).2

/-! ## The counts of the ReplicatedJobs carry the lists over -/

/-- Adding one entry under a name that occurs at most once. -/
theorem sum_update_le {names : List String} (hn : names.Nodup) (name : String) (a : ℕ)
    (f : String → ℕ) :
    (names.map fun n => if name = n then a else f n).sum ≤ a + (names.map f).sum := by
  induction names with
  | nil => simp
  | cons n rest ih =>
    obtain ⟨hnot, hrest⟩ := List.nodup_cons.mp hn
    simp only [List.map_cons, List.sum_cons]
    by_cases hname : name = n
    · subst hname
      have hsame : (rest.map fun n => if name = n then a else f n) = rest.map f := by
        refine List.map_congr_left fun m hm => ?_
        have hne : name ≠ m := fun he => hnot (he ▸ hm)
        simp [hne]
      rw [hsame]
      simp
    · have := ih hrest
      simp only [if_neg hname]
      omega

/-- Looking every name up once finds no entry twice. -/
theorem sum_find_le (g : ReplicatedJobStatus → ℕ) {names : List String} (hn : names.Nodup)
    (l : List ReplicatedJobStatus) :
    (names.map fun name => ((findReplicatedJobStatus l name).map g).getD 0).sum ≤
      (l.map g).sum := by
  induction l with
  | nil =>
    have : (names.map fun name => ((findReplicatedJobStatus [] name).map g).getD 0) =
        names.map fun _ => 0 := rfl
    simp [this]
  | cons rjs l ih =>
    have hsplit : (names.map fun name => ((findReplicatedJobStatus (rjs :: l) name).map g).getD 0) =
        names.map fun name => if rjs.name = name then g rjs
          else ((findReplicatedJobStatus l name).map g).getD 0 := by
      refine List.map_congr_left fun name _ => ?_
      rw [find_cons]
      split_ifs <;> rfl
    rw [hsplit, List.map_cons, List.sum_cons]
    have := sum_update_le hn rjs.name (g rjs)
      fun name => ((findReplicatedJobStatus l name).map g).getD 0
    omega

section Entry

variable {env : Env} {js : JobSet} {owned : ChildJobs}

/-- An entry of the new counts has the lists of an old entry with its name, or none. -/
theorem entry_lists (hgate : env.gates.restartJob = true) {rjs : ReplicatedJobStatus}
    (h : rjs ∈ (entryPass env js owned).js.status.replicatedJobsStatus) :
    (∃ old ∈ js.status.replicatedJobsStatus, old.name = rjs.name ∧
      rjs.jobRestarts = old.jobRestarts ∧
      rjs.jobRestartsCountTowardsMax = old.jobRestartsCountTowardsMax) ∨
    (rjs.jobRestarts = [] ∧ rjs.jobRestartsCountTowardsMax = []) := by
  rw [entryPass_js] at h
  have hmem : rjs ∈ calculateReplicatedJobStatuses env.gates js owned :=
    (List.perm_insertionSort _ _).mem_iff.mp h
  obtain ⟨name, -, rfl⟩ := List.mem_map.mp hmem
  unfold replicatedJobStatus
  dsimp only
  cases hf : findReplicatedJobStatus js.status.replicatedJobsStatus name with
  | none => exact Or.inr ⟨by simp [hgate], by simp [hgate]⟩
  | some old =>
    obtain ⟨hold, hname⟩ := find_mem hf
    exact Or.inl ⟨old, hold, hname, by simp [hgate], by simp [hgate]⟩

theorem entry_sum_le : sumJobRestartsCountTowardsMax (entryPass env js owned).js ≤
    sumJobRestartsCountTowardsMax js := by
  unfold sumJobRestartsCountTowardsMax
  rw [entryPass_js]
  dsimp only
  have hperm := ((sortStatuses_perm (calculateReplicatedJobStatuses env.gates js owned)).map
    fun rjs => rjs.jobRestartsCountTowardsMax.sum).sum_eq
  rw [hperm]
  unfold calculateReplicatedJobStatuses
  rw [List.map_map]
  refine le_trans ?_ (sum_find_le (fun rjs => rjs.jobRestartsCountTowardsMax.sum)
    (List.nodup_dedup (js.spec.replicatedJobs.map (·.name))) js.status.replicatedJobsStatus)
  refine List.sum_le_sum fun name _ => ?_
  unfold replicatedJobStatus
  dsimp only [Function.comp]
  cases findReplicatedJobStatus js.status.replicatedJobsStatus name <;>
    cases env.gates.restartJob <;> simp

theorem CountersOk.entry (h : CountersOk js) (hgate : env.gates.restartJob = true) :
    CountersOk (entryPass env js owned).js := by
  have hreplicas : ∀ name, getReplicatedJobReplicas (entryPass env js owned).js name =
      getReplicatedJobReplicas js name := by
    intro name
    rw [entryPass_js]
    rfl
  refine ⟨fun rjs hrjs => ?_, fun rjs hrjs i => ?_, ?_, fun fp hfp => ?_⟩
  · rw [hreplicas]
    rcases entry_lists hgate hrjs with ⟨old, hold, hname, hr, hc⟩ | ⟨hr, hc⟩
    · rw [hr, hc, ← hname]
      exact h.lengths old hold
    · exact ⟨Or.inl hr, Or.inl hc⟩
  · rcases entry_lists hgate hrjs with ⟨old, hold, hname, hr, hc⟩ | ⟨hr, hc⟩
    · rw [hr, hc]
      exact h.pointwise old hold i
    · rw [hr, hc]
  · rw [entryPass_js]
    exact h.counted
  · have hspec : (entryPass env js owned).js.spec = js.spec := by rw [entryPass_js]
    have hcounted : (entryPass env js owned).js.status.restartsCountTowardsMax =
        js.status.restartsCountTowardsMax := by rw [entryPass_js]
    rw [hspec] at hfp
    have hold := h.budget fp hfp
    have hsum : sumJobRestartsCountTowardsMax (entryPass env js owned).js ≤
        sumJobRestartsCountTowardsMax js := entry_sum_le
    unfold totalRestartsCountTowardsMax at hold ⊢
    rw [hcounted]
    omega

end Entry

/-! ## The outcomes of a write -/

section Outcomes

variable {env : Env} {owned : ChildJobs} {job : Job} {a b : JobSet}

/-- The lists stay, and what counts stays within the two bounds. -/
theorem CountersOk.keep (h : CountersOk a) (hframe : b = { a with status := b.status })
    (hstatuses : b.status.replicatedJobsStatus = a.status.replicatedJobsStatus)
    (hcounted : b.status.restartsCountTowardsMax ≤ b.status.restarts)
    (hbudget : ∀ fp, a.spec.failurePolicy = some fp →
      (totalRestartsCountTowardsMax b : ℤ) ≤ fp.maxRestarts) : CountersOk b := by
  have hspec : b.spec = a.spec := by rw [hframe]
  have hreplicas : ∀ name, getReplicatedJobReplicas b name = getReplicatedJobReplicas a name := by
    intro name
    unfold getReplicatedJobReplicas
    rw [hspec]
  refine ⟨?_, ?_, hcounted, ?_⟩
  · simp only [hstatuses, hreplicas]
    exact h.lengths
  · rw [hstatuses]
    exact h.pointwise
  · rw [hspec]
    exact hbudget

theorem CountersOk.same (h : CountersOk a) (hframe : b = { a with status := b.status })
    (hrestarts : b.status.restarts = a.status.restarts)
    (hcounted : b.status.restartsCountTowardsMax = a.status.restartsCountTowardsMax)
    (hstatuses : b.status.replicatedJobsStatus = a.status.replicatedJobsStatus) : CountersOk b := by
  refine h.keep hframe hstatuses (by rw [hrestarts, hcounted]; exact h.counted) fun fp hfp => ?_
  have := h.budget fp hfp
  unfold totalRestartsCountTowardsMax sumJobRestartsCountTowardsMax at this ⊢
  rwa [hcounted, hstatuses]

theorem CountersOk.restartsAll (h : CountersOk a) (hgate : env.gates.restartJob = true)
    (hr : RestartsAll env owned job a b) : CountersOk b := by
  have hbudget := h.budget
  have hle := h.counted
  have hrestarts := hr.restarts
  refine h.keep hr.frame hr.statuses ?_ fun fp hfp => ?_
  · rcases hr.counted with hc | ⟨hc, -⟩ <;> omega
  · have hold := hbudget fp hfp
    unfold totalRestartsCountTowardsMax sumJobRestartsCountTowardsMax at hold ⊢
    rw [hr.statuses]
    rcases hr.counted with hc | ⟨hc, fp', hfp', hlt⟩
    · rw [hc]
      exact hold
    · obtain rfl : fp = fp' := Option.some.inj (hfp.symm.trans hfp')
      have hlt := hlt hgate
      unfold totalRestartsCountTowardsMax sumJobRestartsCountTowardsMax at hlt
      rw [hc]
      omega

theorem mem_updateStatusOf {name : String} {f : ReplicatedJobStatus → ReplicatedJobStatus}
    {l : List ReplicatedJobStatus} {x : ReplicatedJobStatus} (h : x ∈ updateStatusOf name f l) :
    x ∈ l ∨ ∃ rjs, findReplicatedJobStatus l name = some rjs ∧ x = f rjs := by
  induction l with
  | nil => exact Or.inl h
  | cons rjs rest ih =>
    unfold updateStatusOf at h
    rw [find_cons]
    split_ifs at h ⊢ with hname
    · rcases List.mem_cons.mp h with rfl | h
      · exact Or.inr ⟨rjs, rfl, rfl⟩
      · exact Or.inl (List.mem_cons_of_mem _ h)
    · rcases List.mem_cons.mp h with rfl | h
      · exact Or.inl List.mem_cons_self
      · exact (ih h).imp (List.mem_cons_of_mem _) id

theorem sum_updateStatusOf {name : String} {f : ReplicatedJobStatus → ReplicatedJobStatus}
    {g : ReplicatedJobStatus → ℕ} {d : ℕ} {l : List ReplicatedJobStatus}
    (h : ∀ rjs, findReplicatedJobStatus l name = some rjs → g (f rjs) = g rjs + d) :
    ((updateStatusOf name f l).map g).sum ≤ (l.map g).sum + d := by
  induction l with
  | nil => simp [updateStatusOf]
  | cons rjs rest ih =>
    simp only [find_cons] at h
    unfold updateStatusOf
    split_ifs with hname
    · have := h rjs (by rw [if_pos hname])
      simp only [List.map_cons, List.sum_cons]
      omega
    · have := ih fun r hr => h r (by rw [if_neg hname, hr])
      simp only [List.map_cons, List.sum_cons]
      omega

/-- The lists of one entry after its restart, with the counted list raised by `d`. -/
theorem CountersOk.raise (h : CountersOk a) {name : String} (index d : ℕ)
    {f : ReplicatedJobStatus → ReplicatedJobStatus}
    (hframe : b = { a with status := b.status })
    (hrestarts : b.status.restarts = a.status.restarts)
    (hcounted : b.status.restartsCountTowardsMax = a.status.restartsCountTowardsMax)
    (hstatuses : b.status.replicatedJobsStatus =
      updateStatusOf name f a.status.replicatedJobsStatus)
    (hf : ∀ rjs, findReplicatedJobStatus a.status.replicatedJobsStatus name = some rjs →
      (f rjs).name = rjs.name ∧
      ((f rjs).jobRestarts.length = getReplicatedJobReplicas a name ∧
        ∀ i, (f rjs).jobRestarts.getD i 0 = rjs.jobRestarts.getD i 0 + if i = index then 1 else 0) ∧
      ((f rjs).jobRestartsCountTowardsMax = [] ∨
        (f rjs).jobRestartsCountTowardsMax.length = getReplicatedJobReplicas a name) ∧
      (∀ i, (f rjs).jobRestartsCountTowardsMax.getD i 0 ≤
        rjs.jobRestartsCountTowardsMax.getD i 0 + if i = index then 1 else 0) ∧
      (f rjs).jobRestartsCountTowardsMax.sum = rjs.jobRestartsCountTowardsMax.sum + d)
    (hbudget : ∀ fp, a.spec.failurePolicy = some fp →
      (totalRestartsCountTowardsMax a : ℤ) + d ≤ fp.maxRestarts) : CountersOk b := by
  have hspec : b.spec = a.spec := by rw [hframe]
  have hreplicas : ∀ n, getReplicatedJobReplicas b n = getReplicatedJobReplicas a n := by
    intro n
    unfold getReplicatedJobReplicas
    rw [hspec]
  refine ⟨fun rjs hrjs => ?_, fun rjs hrjs i => ?_, ?_, fun fp hfp => ?_⟩
  · rw [hreplicas]
    rw [hstatuses] at hrjs
    rcases mem_updateStatusOf hrjs with hold | ⟨old, hfind, rfl⟩
    · exact h.lengths rjs hold
    · obtain ⟨hname, ⟨hlen, -⟩, hclen, -⟩ := hf old hfind
      rw [hname, (find_mem hfind).2]
      exact ⟨Or.inr hlen, hclen⟩
  · rw [hstatuses] at hrjs
    rcases mem_updateStatusOf hrjs with hold | ⟨old, hfind, rfl⟩
    · exact h.pointwise rjs hold i
    · obtain ⟨-, ⟨-, htotal⟩, -, hcount, -⟩ := hf old hfind
      have hold := h.pointwise old (find_mem hfind).1 i
      have hcount := hcount i
      rw [htotal i]
      omega
  · rw [hrestarts, hcounted]
    exact h.counted
  · rw [hspec] at hfp
    have hold := hbudget fp hfp
    have hsum := sum_updateStatusOf (g := fun rjs => rjs.jobRestartsCountTowardsMax.sum)
      fun rjs hrjs => (hf rjs hrjs).2.2.2.2
    unfold totalRestartsCountTowardsMax sumJobRestartsCountTowardsMax at hold ⊢
    rw [hcounted, hstatuses]
    omega

theorem CountersOk.restartsJob (h : CountersOk a) (hr : RestartsJob env owned job a b) :
    CountersOk b := by
  obtain ⟨name, index, -, -, total, counts, hindex, rfl, hstatuses⟩ := hr.raised
  have hlength := h.getJobRestarts_length name
  -- the list of all restarts is raised at the index, whether or not the restart counts
  have htotal : ∀ rjs, findReplicatedJobStatus a.status.replicatedJobsStatus name = some rjs →
      ((getJobRestarts a name).modify index (· + 1)).length = getReplicatedJobReplicas a name ∧
      ∀ i, ((getJobRestarts a name).modify index (· + 1)).getD i 0 =
        rjs.jobRestarts.getD i 0 + if i = index then 1 else 0 := by
    intro rjs hrjs
    refine ⟨by rw [List.length_modify, hlength], fun i => ?_⟩
    rw [modify_getD _ hindex, getJobRestarts_of_find hrjs, filled_getD]
  rcases hstatuses with hstatuses | ⟨fp, hfp, hlt, hindex', rfl, hstatuses⟩
  · refine h.raise index 0 hr.frame hr.restarts hr.counted hstatuses (fun rjs hrjs => ?_)
      fun fp hfp => by simpa using h.budget fp hfp
    have hold := (h.lengths rjs (find_mem hrjs).1).2
    rw [(find_mem hrjs).2] at hold
    exact ⟨rfl, htotal rjs hrjs, hold, fun i => by dsimp only; omega, rfl⟩
  · have hclength := h.getJobRestartsCountTowardsMax_length name
    refine h.raise index 1 hr.frame hr.restarts hr.counted hstatuses (fun rjs hrjs => ?_)
      fun fp' hfp' => ?_
    · refine ⟨rfl, htotal rjs hrjs, Or.inr ?_, fun i => ?_, ?_⟩
      · dsimp only
        rw [List.length_modify, hclength]
      · dsimp only
        rw [modify_getD _ hindex', getJobRestartsCountTowardsMax_of_find hrjs, filled_getD]
      · dsimp only
        rw [modify_sum _ hindex', getJobRestartsCountTowardsMax_of_find hrjs, filled_sum]
    · obtain rfl : fp = fp' := Option.some.inj (hfp.symm.trans hfp')
      push_cast
      omega

end Outcomes

theorem Writes.countersOk {env : Env} {js js' : JobSet} {jobs : List Job} {s : Seen}
    (h : Writes env js jobs s js') (hgate : env.gates.restartJob = true) (hjs : CountersOk js) :
    CountersOk js' := by
  obtain ⟨owned, -, ho⟩ := h.outcome
  have hentry : CountersOk (entryPass env js owned).js := hjs.entry hgate
  cases ho with
  | finished hf first => exact hentry
  | harmless hf e => exact hentry.same e.frame e.restarts e.counted e.statuses
  | ends hf e => exact hentry.same e.frame e.restarts e.counted e.statuses
  | restartsAll hf first e => exact hentry.restartsAll hgate e
  | restartsJob hf first e => exact hentry.restartsJob e

namespace Cluster

/-- The restart budget: with the RestartJob gate, in every run with a fixed spec
from a new JobSet, every persisted status has lists of per-index restarts that are
empty or have one entry per replica, counted restarts below all restarts, and at
most `maxRestarts` counted restarts in all. An index below the number of replicas
is in range of the lists the code looks up. -/
theorem restart_budget {S : Setting} (hgate : ∀ env, S.allowed env → env.gates.restartJob = true)
    (hspec : ∀ a b, S.admits a b → b.spec = a.spec) {js : JobSet} (hnew : js.status = .new)
    (hmax : ∀ fp, js.spec.failurePolicy = some fp → 0 ≤ fp.maxRestarts) {w : World}
    (h : Reachable S js w) {i : ℕ} (hi : i ≤ w.sets.top) :
    (∀ rjs ∈ (w.sets.entry i).status.replicatedJobsStatus,
      (rjs.jobRestarts = [] ∨ rjs.jobRestarts.length = getReplicatedJobReplicas js rjs.name) ∧
      (rjs.jobRestartsCountTowardsMax = [] ∨
        rjs.jobRestartsCountTowardsMax.length = getReplicatedJobReplicas js rjs.name) ∧
      ∀ k, rjs.jobRestartsCountTowardsMax.getD k 0 ≤ rjs.jobRestarts.getD k 0) ∧
    (∀ name index, index < getReplicatedJobReplicas js name →
      index < (getJobRestarts (w.sets.entry i) name).length ∧
      index < (getJobRestartsCountTowardsMax (w.sets.entry i) name).length) ∧
    (w.sets.entry i).status.restartsCountTowardsMax ≤ (w.sets.entry i).status.restarts ∧
    ∀ fp, js.spec.failurePolicy = some fp →
      (((w.sets.entry i).status.restartsCountTowardsMax +
        ((w.sets.entry i).status.replicatedJobsStatus.map fun rjs =>
          rjs.jobRestartsCountTowardsMax.sum).sum : ℕ) : ℤ) ≤ fp.maxRestarts := by
  have hall := (reachable_sets (P := fun a => a.spec = js.spec ∧ CountersOk a)
    (R := fun _ _ => True) (fun _ => trivial) (fun _ _ _ _ _ => trivial) ?_ ?_ ?_ ?_ h).1 i hi
  · obtain ⟨hs, hok⟩ := hall
    have hreplicas : ∀ name, getReplicatedJobReplicas (w.sets.entry i) name =
        getReplicatedJobReplicas js name := by
      intro name
      unfold getReplicatedJobReplicas
      rw [hs]
    refine ⟨fun rjs hrjs => ?_, fun name index hlt => ?_, hok.counted, fun fp hfp => ?_⟩
    · have hlen := hok.lengths rjs hrjs
      rw [hreplicas] at hlen
      exact ⟨hlen.1, hlen.2, hok.pointwise rjs hrjs⟩
    · rw [hok.getJobRestarts_length, hok.getJobRestartsCountTowardsMax_length, hreplicas]
      exact ⟨hlt, hlt⟩
    · exact hok.budget fp (by rw [hs, hfp])
  · intro a b hadmits hstatus ha
    have hb : b.spec = a.spec := hspec a b hadmits
    refine ⟨⟨hb.trans ha.1, ?_⟩, trivial⟩
    have hok := ha.2
    constructor
    · unfold getReplicatedJobReplicas
      rw [hstatus, hb]
      exact hok.lengths
    · rw [hstatus]
      exact hok.pointwise
    · rw [hstatus]
      exact hok.counted
    · unfold totalRestartsCountTowardsMax sumJobRestartsCountTowardsMax
      rw [hstatus, hb]
      exact hok.budget
  · intro a t ha
    exact ⟨⟨ha.1, ha.2.lengths, ha.2.pointwise, ha.2.counted, ha.2.budget⟩, trivial⟩
  · intro env js₀ jobs s js' hallowed hread _ hwrites
    have hs : js'.spec = js₀.spec := by rw [hwrites.frame]
    exact ⟨⟨hs.trans hread.1, hwrites.countersOk (hgate env hallowed) hread.2⟩, trivial⟩
  · refine ⟨rfl, ?_, ?_, ?_, fun fp hfp => ?_⟩
    · simp [hnew, JobSetStatus.new]
    · simp [hnew, JobSetStatus.new]
    · simp [hnew, JobSetStatus.new]
    · simpa [hnew, JobSetStatus.new, totalRestartsCountTowardsMax,
        sumJobRestartsCountTowardsMax] using hmax fp hfp

/-- One failure uses up a budget of one restart. -/
theorem restart_budget_oneJob :
    ∃ w, Reachable (plainSetting (plainEnv restartJobGates))
        (plainSet [.single "w" 1] 1 .recreate) w ∧
      w.sets.current.status.restartsCountTowardsMax = 1 ∧
      ((w.sets.current.status.restartsCountTowardsMax +
        (w.sets.current.status.replicatedJobsStatus.map fun rjs =>
          rjs.jobRestartsCountTowardsMax.sum).sum : ℕ) : ℤ) ≤ 1 := by
  obtain ⟨w, hw, hp⟩ := run_reachable (S := plainSetting (plainEnv restartJobGates))
    (p := fun w => w.sets.current.status.restartsCountTowardsMax = 1)
    rfl (plainSet [.single "w" 1] 1 .recreate) failOnce (by simp [failOnce, Event.Permitted]) (by decide +kernel)
  have hbudget := restart_budget (by rintro env rfl; rfl) (fun a b h => h) rfl
    (by rintro fp ⟨⟩; decide) hw le_rfl
  exact ⟨w, hw, by simpa using hp, hbudget.2.2.2 _ rfl⟩

end Cluster

end JobSetOperator
