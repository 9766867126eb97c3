import JobSetOperator.Cluster.Terminal
import JobSetOperator.Cluster.Visits
import JobSetOperator.Controller.Cleanup

/-!
# The TTL over a run

The time at which a JobSet has finished is a time that the clock has told the reconcile
that made it finish, and it stays. The controller deletes a JobSet only when the clock has
shown that its TTL has passed since.
-/
namespace JobSetOperator.Cluster

open Library Library.Program

/-- The reconcile has read a JobSet that had not finished, and was told the time. -/
structure Visit.Ended (v : Visit) (s : Time) : Prop where
  unfinished : jobSetFinished v.js = false
  told : s ∈ v.clock

/-- Every finish time was told to the reconcile that made the JobSet finish. -/
structure ExpiryOk (w : World) (visits : List Visit) : Prop where
  current : ∀ a, w.attempt = some a → ∃ v rest, visits = v :: rest ∧ v.js = a.js ∧
    Cleanly a.js (fun _ _ => True) v.clock a.rest
  dated : ∀ u ≤ w.sets.top, ∀ s, jobSetFinishTime (w.sets.entry u) = .ok s →
    ∃ v ∈ visits, v.Ended s

section Steps

variable {S : Setting} {w w' : World} {visits : List Visit} {v : Visit}

theorem finishTime_of_conditions {a b : JobSet} {s : Time}
    (h : b.status.conditions = a.status.conditions) (hs : jobSetFinishTime b = .ok s) :
    jobSetFinishTime a = .ok s := by
  unfold jobSetFinishTime at hs ⊢
  rw [h] at hs
  split at hs
  · rename_i c hc
    by_cases hzero : c.lastTransitionTime = zeroTime
    · rw [if_pos hzero] at hs
      cases hs
    · rw [if_neg hzero] at hs
      exact (if_neg hzero).trans hs
  · cases hs

/-- The finish time is that of a terminal condition. -/
theorem finishTime_mem {clock : Set Time} {js : JobSet} {s : Time} (h : Dated clock js)
    (hs : jobSetFinishTime js = .ok s) : s ∈ clock := by
  unfold jobSetFinishTime at hs
  split at hs
  · rename_i c hc
    split_ifs at hs
    cases hs
    have hprop := List.find?_some hc
    simp only [decide_eq_true_eq] at hprop
    exact h c (List.mem_of_find?_eq_some hc) hprop.1 hprop.2
  · cases hs

theorem exists_next {sv' : Server} {r : Request} {x : r.Response} {s : Time}
    (h : ∃ v' ∈ v :: visits, v'.Ended s) : ∃ v' ∈ v.next sv' r x :: visits, v'.Ended s := by
  obtain ⟨v', hmem, hended⟩ := h
  rcases List.mem_cons.mp hmem with rfl | hmem
  · exact ⟨_, List.mem_cons_self, hended.unfinished, grows_clocked _ r x hended.told⟩
  · exact ⟨v', List.mem_cons_of_mem _ hmem, hended⟩

/-- A new version with the conditions of an old one has its finish time. -/
theorem dated_push {js : JobSet} {visits' : List Visit} {u : ℕ} (hu : u ≤ w.sets.top)
    (hold : ∀ y ≤ w.sets.top, ∀ s, jobSetFinishTime (w.sets.entry y) = .ok s →
      ∃ v ∈ visits', v.Ended s)
    (hsame : js.status.conditions = (w.sets.entry u).status.conditions) :
    ∀ y ≤ (w.sets.push js).top, ∀ s, jobSetFinishTime ((w.sets.push js).entry y) = .ok s →
      ∃ v ∈ visits', v.Ended s := by
  intro y hy s hs
  rcases History.push_entry_cases _ _ hy with ⟨hle, hentry⟩ | ⟨-, hentry⟩
  · rw [hentry] at hs
    exact hold y hle s hs
  · rw [hentry] at hs
    exact hold u hu s (finishTime_of_conditions hsame hs)

/-- What a status write dates was told to its reconcile, or it was there before. -/
theorem dated_write {a : Attempt} (hattempt : AttemptOk S w a) (hseen : w.seenSets ≤ w.sets.top)
    {js : JobSet} {k : Outcome → Prog ℤ} (next : a.rest = .call (.updateStatus js) k)
    {clock : Set Time} (hclean : Cleanly a.js (fun _ _ => True) clock a.rest) {s : Time}
    (hs : jobSetFinishTime js = .ok s) :
    (jobSetFinished a.js = false ∧ s ∈ clock) ∨
      ∃ u ≤ w.sets.top, jobSetFinishTime (w.sets.entry u) = .ok s := by
  have hcalls := hattempt.follows
  rw [next] at hcalls hclean
  have hwrites : Writes a.env a.js a.jobs a.seen js := hcalls.1
  obtain ⟨owned, hlive, ho⟩ := hwrites.outcome
  cases hfin : jobSetFinished a.js with
  | false =>
    have hdated : Dated clock js := hclean.1 hlive.internal hfin
    exact Or.inl ⟨rfl, finishTime_mem hdated hs⟩
  | true =>
    refine Or.inr ⟨w.seenSets, hseen, ?_⟩
    rw [← hattempt.js]
    cases ho with
    | finished hf first =>
      apply finishTime_of_conditions _ hs
      rw [entryPass_js]
    | harmless hf effect => rw [hf] at hfin; cases hfin
    | ends hf effect => rw [hf] at hfin; cases hfin
    | restartsAll hf first effect => rw [hf] at hfin; cases hfin
    | restartsJob hf first effect => rw [hf] at hfin; cases hfin

theorem VisitStep.expiryOk {guard : World → Attempt → Prop} {js : JobSet}
    {u u' : World × List Visit}
    (hrun : Relation.ReflTransGen (VisitStep S guard) (World.initial js, []) u)
    (h : ExpiryOk u.1 u.2) (hstep : VisitStep S guard u u') : ExpiryOk u'.1 u'.2 := by
  have hinv := reachable_inv (VisitRun.guarded hrun).reachable
  cases hstep with
  | user admitted status =>
    exact ⟨h.current, dated_push le_rfl h.dated (congrArg (·.conditions) status)⟩
  | jobs step sets same =>
    refine ⟨fun a busy => h.current a (same ▸ busy), ?_⟩
    rw [sets]
    exact h.dated
  | begin idle step busy ready =>
    obtain ⟨i, jobs, env, rfl, -, hsets, -⟩ := step.started idle busy
    constructor
    · intro a busy'
      rw [busy] at busy'
      cases busy'
      exact ⟨_, _, rfl, rfl, reconcileRequest_cleanly env _ jobs⟩
    · rw [hsets]
      intro y hy s hs
      obtain ⟨v, hv, hended⟩ := h.dated y hy s hs
      exact ⟨v, List.mem_cons_of_mem _ hv, hended⟩
  | @answer w v visits a busy r k next x sv' base' reply =>
    obtain ⟨v', rest, hvisits, hjs, hclean⟩ := h.current a busy
    obtain ⟨rfl, rfl⟩ := List.cons.inj hvisits
    have hold : ∀ y ≤ w.sets.top, ∀ s, jobSetFinishTime (w.sets.entry y) = .ok s →
        ∃ v' ∈ v.next sv' r x :: visits, v'.Ended s :=
      fun y hy s hs => exists_next (h.dated y hy s hs)
    constructor
    · intro a' busy'
      cases busy'
      refine ⟨_, _, rfl, hjs, ?_⟩
      rw [next] at hclean
      exact hclean.2 x
    · rcases reply.sets with hsame | ⟨js', rfl, version, hsv⟩ | ⟨js', t, rfl, hsv⟩
      · change ∀ y ≤ sv'.sets.top, _
        rw [hsame]
        exact hold
      · change ∀ y ≤ sv'.sets.top, _
        rw [hsv]
        intro y hy s hs
        rcases History.push_entry_cases _ _ hy with ⟨hle, hentry⟩ | ⟨-, hentry⟩
        · rw [hentry] at hs
          exact hold y hle s hs
        · rw [hentry] at hs
          have hs' : jobSetFinishTime js' = .ok s := by
            apply finishTime_of_conditions _ hs
            rfl
          rcases dated_write (hinv.attempt a busy) hinv.seenSets next hclean hs' with
            ⟨hun, htold⟩ | ⟨z, hz, hfinish⟩
          · refine ⟨_, List.mem_cons_self, ?_, grows_clocked _ _ x htold⟩
            change jobSetFinished v.js = false
            rw [hjs]
            exact hun
          · exact hold z hz s hfinish
      · change ∀ y ≤ sv'.sets.top, _
        rw [hsv]
        exact dated_push le_rfl hold rfl
  | stop =>
    refine ⟨?_, h.dated⟩
    intro a busy
    cases busy

theorem visitRun_expiryOk {guard : World → Attempt → Prop} {js : JobSet}
    (hjs : jobSetFinished js = false) {u : World × List Visit}
    (hrun : Relation.ReflTransGen (VisitStep S guard) (World.initial js, []) u) :
    ExpiryOk u.1 u.2 := by
  induction hrun with
  | refl =>
    constructor
    · intro a busy
      cases busy
    · intro y hy s hs
      have hs' : jobSetFinishTime js = .ok s := hs
      have hnone : s ∈ (∅ : Set Time) := finishTime_mem (dated_of_unfinished hjs) hs'
      exact hnone.elim
  | tail hrun hstep ih => exact hstep.expiryOk hrun ih

end Steps

/-- One Job, no restarts and a TTL of one second. -/
def expiringSet : JobSet :=
  let js := plainSet [.single "w" 1] 0 .recreate
  { js with spec := { js.spec with ttlSecondsAfterFinished := some 1 } }

/-- The next call deletes the JobSet. -/
def deletesNext (p : Prog ℤ) : Bool :=
  match p with
  | .call (.deleteJobSet _) _ => true
  | _ => false

theorem exists_of_deletesNext {p : Prog ℤ} (h : deletesNext p = true) :
    ∃ js k, p = .call (.deleteJobSet js) k := by
  unfold deletesNext at h
  split at h
  · rename_i js k
    exact ⟨js, k, rfl⟩
  · cases h

/-- The Job fails, and so does the JobSet. It is read once more. -/
def expiredEvents : List Event :=
  [.begin 0 0, .answer 1, .answer 1, .stop, .progress "js-w-0" failedStatus, .begin 1 2, .answer 1,
    .stop, .begin 2 2]

end JobSetOperator.Cluster
