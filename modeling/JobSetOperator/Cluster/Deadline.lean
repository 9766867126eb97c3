import JobSetOperator.Cluster.Blocking
import JobSetOperator.Cluster.Terminal
import JobSetOperator.Cluster.Visits

/-!
# The active deadline over a run

The start time is changed in memory and stored with the status write at the end of a
reconcile. A reconcile that has read a suspended JobSet clears it, but when its status
write does not get through, the old start time survives the suspension. In a run in
which that does not happen a JobSet fails with DeadlineExceeded only when it has been
active, without a global restart, for as long as its deadline says.
-/
namespace JobSetOperator.Cluster

open Library Library.Program

/-- The controller does nothing that could fail the JobSet. -/
def Inert (js : JobSet) : Prop :=
  jobSetMarkedForDeletion js = true ∨ managedByExternalController js ≠ none ∨
    jobSetFinished js = true

/-- The deadline gate is on, and users neither bring back a JobSet that is being deleted nor
hand it over to another controller. -/
structure DeadlineSetting (S : Setting) : Prop where
  gate : ∀ env, S.allowed env → env.gates.jobSetActiveDeadlineSeconds = true
  deletion : ∀ a b, S.admits a b → jobSetMarkedForDeletion a = true →
    jobSetMarkedForDeletion b = true
  manager : ∀ a b, S.admits a b → b.spec.managedBy = a.spec.managedBy

/-- When the last version that was read is suspended and has a start time, a reconcile has
written the version after it. -/
def StartCleared (w : World) (_ : Attempt) : Prop :=
  jobSetSuspended (w.sets.entry w.seenSets) = true → ¬ Inert (w.sets.entry w.seenSets) →
    (w.sets.entry w.seenSets).status.startTime ≠ none → w.authors (w.seenSets + 1) ≠ none

/-- The instant was told to a reconcile of an active JobSet. All reconciles since have read an
active JobSet, and up to the version there was no global restart since. -/
def Anchored (sets : History JobSet) (visits : List Visit) (u : ℕ) (s : Time) : Prop :=
  ∃ newer v older, visits = newer ++ v :: older ∧
    (∀ v' ∈ newer ++ [v], jobSetSuspended v'.js = false) ∧ s ∈ v.clock ∧
    ∀ x, v.last ≤ x → x ≤ u →
      (sets.entry x).status.restarts = (sets.entry v.last).status.restarts

/-- The JobSet has been active for that many seconds when the last reconcile reads its clock. -/
def ActiveFor (w : World) (visits : List Visit) (seconds : ℤ) : Prop :=
  ∃ s t, Anchored w.sets visits w.sets.top s ∧ (∃ v ∈ visits.head?, t ∈ v.clock) ∧
    s + seconds * nanosecondsPerSecond ≤ t

/-! ## Inert versions -/

theorem inert_update {S : Setting} (hS : DeadlineSetting S) {a b : JobSet} (h : S.admits a b)
    (hstatus : b.status = a.status) (ha : Inert a) : Inert b := by
  rcases ha with hdeleted | hmanaged | hfinished
  · exact Or.inl (hS.deletion a b h hdeleted)
  · refine Or.inr (Or.inl ?_)
    unfold managedByExternalController at hmanaged ⊢
    rwa [hS.manager a b h]
  · refine Or.inr (Or.inr ?_)
    unfold jobSetFinished at hfinished ⊢
    rwa [hstatus]

theorem live_not_inert {env : Env} {js : JobSet} {jobs : List Job} {owned : ChildJobs}
    (h : Live env js jobs owned) (hun : jobSetFinished js = false) : ¬ Inert js := by
  rintro (hdeleted | hmanaged | hfinished)
  · rw [h.present] at hdeleted
    cases hdeleted
  · exact hmanaged h.internal
  · rw [hun] at hfinished
    cases hfinished

/-- A reconcile of an unfinished JobSet writes on a version that is not inert. -/
theorem base_not_inert {env : Env} {js js' : JobSet} {jobs : List Job} {s : Seen}
    (h : Writes env js jobs s js') (hun : jobSetFinished js = false) :
    ¬ Inert (s.acked.getD js) := by
  obtain ⟨owned, hlive, -⟩ := h.outcome
  rcases h.base with hfirst | ⟨owned', x, -, hacked, hharmless⟩
  · rw [hfirst]
    exact live_not_inert hlive hun
  · rw [hacked]
    have hkeeps : KeepsTerminal js x :=
      (entryPass_keepsTerminal env js owned').trans hharmless.toKeepsTerminal
    have hframe := hkeeps.frame
    rintro (hdeleted | hmanaged | hfinished)
    · rw [hframe] at hdeleted
      exact live_not_inert hlive hun (Or.inl hdeleted)
    · rw [hframe] at hmanaged
      exact live_not_inert hlive hun (Or.inr (Or.inl hmanaged))
    · have hunfinished := hkeeps.finished.symm.trans hfinished
      rw [hun] at hunfinished
      cases hunfinished

/-- What is written on an unfinished JobSet comes from one. -/
theorem unfinished_of_writes {env : Env} {js js' : JobSet} {jobs : List Job} {s : Seen}
    (h : Writes env js jobs s js') (hjs' : ¬ Inert js') : jobSetFinished js = false := by
  obtain ⟨owned, -, ho⟩ := h.outcome
  cases ho with
  | finished hf first =>
    refine absurd (Or.inr (Or.inr ?_)) hjs'
    rw [entryPass_finished]
    exact hf
  | harmless hf effect => exact hf
  | ends hf effect => exact hf
  | restartsAll hf first effect => exact hf
  | restartsJob hf first effect => exact hf

/-- What is written on an inert version is inert. -/
theorem inert_of_writes {env : Env} {js js' : JobSet} {jobs : List Job} {s : Seen}
    (h : Writes env js jobs s js') (hinert : Inert (s.acked.getD js)) : Inert js' := by
  by_contra hlive
  exact base_not_inert h (unfinished_of_writes h hlive) hinert

/-- The second write of a reconcile keeps start time and restarts of the first. -/
theorem continues_of_writes {env : Env} {js js' x : JobSet} {jobs : List Job} {s : Seen}
    (h : Writes env js jobs s js') (hacked : s.acked = some x) :
    js'.status.startTime = x.status.startTime ∧ js'.status.restarts = x.status.restarts := by
  have hfirst : s.acked = none → js'.status.startTime = x.status.startTime ∧
      js'.status.restarts = x.status.restarts := by
    intro hnone
    rw [hnone] at hacked
    cases hacked
  cases h with
  | finished live first hf => exact hfirst first
  | waiting hu first => exact hfirst first
  | completed hu first now hs hmet => exact hfirst first
  | expired hu first now now' harmed hpassed => exact hfirst first
  | failed hu first now now' hne hp => exact hfirst first
  | attempts hu first hf hscaled hn => exact hfirst first
  | @running owned active p q q₁ q₂ q₃ hr hstartup hsuspend hinPlace =>
    have hattempts := hr.attempts
    rw [hacked] at hattempts
    have hsame := (hstartup.timeless.trans hsuspend.timeless).trans hinPlace.timeless
    cases hattempts with
    | resume hn => exact ⟨hsame.startTime, hsame.restarts⟩

theorem reachable_inert {S : Setting} (hS : DeadlineSetting S) {js : JobSet} {w : World}
    (h : Reachable S js w) : w.sets.Ordered fun a b => Inert a → Inert b := by
  apply (@reachable_sets S (fun _ => True) (fun a b => Inert a → Inert b) _ _ _ _ _ js trivial w
    h).2
  · exact fun _ => id
  · exact fun _ _ _ hab hbc ha => hbc (hab ha)
  · exact fun a b hadmits hstatus _ => ⟨trivial, inert_update hS hadmits hstatus⟩
  · exact fun _ _ _ => ⟨trivial, fun _ => Or.inl rfl⟩
  · exact fun _ _ _ _ _ _ _ _ hwrites => ⟨trivial, inert_of_writes hwrites⟩

/-! ## Anchors -/

section Anchors

variable {sets sets' : History JobSet} {visits : List Visit} {u : ℕ} {s : Time}

/-- Another reconcile reads an active JobSet. -/
theorem Anchored.cons (h : Anchored sets visits u s) {v : Visit}
    (hv : jobSetSuspended v.js = false) : Anchored sets (v :: visits) u s := by
  obtain ⟨newer, v₀, older, rfl, hactive, hs, hkept⟩ := h
  refine ⟨v :: newer, v₀, older, rfl, fun v' hv' => ?_, hs, hkept⟩
  rcases List.mem_cons.mp hv' with rfl | hmem
  · exact hv
  · exact hactive v' hmem

/-- Old versions stay. -/
theorem Anchored.grow (h : Anchored sets visits u s) (hgrows : sets.Grows sets')
    (hu : u ≤ sets.top) : Anchored sets' visits u s := by
  obtain ⟨newer, v₀, older, rfl, hactive, hs, hkept⟩ := h
  refine ⟨newer, v₀, older, rfl, hactive, hs, fun x hx hle => ?_⟩
  rw [hgrows.2 x (hle.trans hu), hgrows.2 _ ((hx.trans hle).trans hu)]
  exact hkept x hx hle

/-- The next version has the same restarts. -/
theorem Anchored.extend (h : Anchored sets visits sets.top s) {js : JobSet}
    (hrestarts : js.status.restarts = sets.current.status.restarts) :
    Anchored (sets.push js) visits (sets.top + 1) s := by
  have hgrows : sets.Grows (sets.push js) := History.grows_of_push (Or.inr ⟨js, rfl⟩)
  obtain ⟨newer, v₀, older, rfl, hactive, hs, hkept⟩ := h
  refine ⟨newer, v₀, older, rfl, hactive, hs, fun x hx hle => ?_⟩
  rcases Nat.lt_or_ge sets.top x with hlt | hle'
  · obtain rfl : x = sets.top + 1 := by omega
    rcases Nat.lt_or_ge sets.top v₀.last with hlast | hlast
    · rw [le_antisymm hx hlast]
    · rw [History.push_entry_top, History.push_entry_of_le _ _ hlast, hrestarts]
      exact hkept _ hlast le_rfl
  · rw [hgrows.2 x hle', hgrows.2 _ (hx.trans hle')]
    exact hkept x hx hle'

/-- The last reconcile gets an answer. -/
theorem Anchored.answered {v : Visit} {sv' : Server} (h : Anchored sets (v :: visits) u s)
    (hgrows : sets.Grows sv'.sets) (hu : u ≤ sets.top) (r : Request) (x : r.Response) :
    Anchored sv'.sets (v.next sv' r x :: visits) u s := by
  obtain ⟨newer, v₀, older, hvisits, hactive, hs, hkept⟩ := h.grow hgrows hu
  cases newer with
  | nil =>
    obtain ⟨rfl, rfl⟩ := List.cons.inj hvisits
    refine ⟨[], v.next sv' r x, visits, rfl, fun v' hv' => ?_, grows_clocked _ r x hs,
      fun y hy hle => ?_⟩
    · rw [List.mem_singleton.mp hv']
      exact hactive v List.mem_cons_self
    · have hlast : sv'.sets.top ≤ y := hy
      rw [le_antisymm ((hle.trans hu).trans hgrows.1) hlast]
      rfl
  | cons v₁ newer =>
    obtain ⟨rfl, rfl⟩ := List.cons.inj hvisits
    refine ⟨v.next sv' r x :: newer, v₀, older, rfl, fun v' hv' => ?_, hs, hkept⟩
    rcases List.mem_cons.mp hv' with rfl | hmem
    · exact hactive v List.mem_cons_self
    · exact hactive v' (List.mem_cons_of_mem _ hmem)

/-- An instant the last reconcile was told, when nothing was written since. -/
theorem anchored_head {v : Visit} (hv : jobSetSuspended v.js = false) (hs : s ∈ v.clock)
    (hkept : ∀ x, v.last ≤ x → x ≤ u →
      (sets.entry x).status.restarts = (sets.entry v.last).status.restarts) :
    Anchored sets (v :: visits) u s := by
  refine ⟨[], v, visits, rfl, fun v' hv' => ?_, hs, hkept⟩
  rw [List.mem_singleton.mp hv']
  exact hv

end Anchors

/-! ## The invariant -/

/-- Behind a suspended version the start time is cleared, or it stays because no reconcile has
written since. -/
def Kept (w : World) : Prop :=
  ∀ i x, w.seenSets ≤ i → i ≤ x → x ≤ w.sets.top →
    jobSetSuspended (w.sets.entry i) = true → ¬ Inert (w.sets.entry x) →
    (w.sets.entry x).status.startTime = none ∨
      ((w.sets.entry x).status.startTime = (w.sets.entry i).status.startTime ∧
        ∀ y, i < y → y ≤ x → w.authors y = none)

/-- Every start time that may still be read is anchored. -/
def Moored (w : World) (visits : List Visit) : Prop :=
  ∀ u, w.seenSets ≤ u → u ≤ w.sets.top → ¬ Inert (w.sets.entry u) →
    ∀ s, (w.sets.entry u).status.startTime = some s → Anchored w.sets visits u s

/-- The visit is that of the reconcile in progress. Since its last answer no reconcile has
written. -/
structure Current (w : World) (v : Visit) (a : Attempt) : Prop where
  js : v.js = a.js
  times : Times a.js (fun _ _ => True) v.clock a.rest
  settled : ∀ x, v.last ≤ x → x ≤ w.sets.top →
    (w.sets.entry x).status.restarts = (w.sets.entry v.last).status.restarts

/-- Start times are anchored unless the last reconcile has read a suspended JobSet. -/
structure DeadlineOk (w : World) (visits : List Visit) : Prop where
  kept : Kept w
  current : ∀ a, w.attempt = some a → ∃ v rest, visits = v :: rest ∧ Current w v a
  moored : (∃ v rest, visits = v :: rest ∧ jobSetSuspended v.js = true) ∨ Moored w visits

/-- No reconcile has written a version that is not there yet. -/
theorem reachable_unwritten {S : Setting} {js : JobSet} {w : World} (h : Reachable S js w) :
    ∀ y, w.sets.top < y → w.authors y = none := by
  induction h with
  | refl => exact fun _ _ => rfl
  | @tail w w' hrun hstep ih =>
    intro y hy
    have hgrows := History.grows_of_push (step_move (reachable_inv hrun) hstep).sets
    have hold := ih y (hgrows.1.trans_lt hy)
    cases hstep with
    | @answer a busy r k next x sv' base' reply =>
      change World.record w sv' a.toReading y = none
      unfold World.record
      split_ifs
      · exact hold
      · have hne : y ≠ sv'.sets.top := hy.ne'
        rw [Function.update_of_ne hne]
        exact hold
    | _ => exact hold

section Push

variable {w w' : World} {js : JobSet}

theorem Kept.push (h : Kept w) (hsets : w'.sets = w.sets.push js)
    (hseen : w'.seenSets = w.seenSets)
    (hauthors : ∀ y ≤ w.sets.top, w'.authors y = w.authors y)
    (hnew : ∀ i, w.seenSets ≤ i → i ≤ w.sets.top → jobSetSuspended (w.sets.entry i) = true →
      ¬ Inert js → js.status.startTime = none ∨
        (js.status.startTime = w.sets.current.status.startTime ∧ ¬ Inert w.sets.current ∧
          w'.authors (w.sets.top + 1) = none)) : Kept w' := by
  intro i x hi hix hx hsuspended hlive
  rw [hseen] at hi
  rw [hsets] at hx hsuspended hlive ⊢
  rcases History.push_entry_cases _ _ hx with ⟨hle, hentry⟩ | ⟨rfl, hentry⟩
  · rw [hentry] at hlive ⊢
    rw [History.push_entry_of_le _ _ (hix.trans hle)] at hsuspended ⊢
    refine (h i x hi hix hle hsuspended hlive).imp id fun hsame => ⟨hsame.1, fun y hy hyx => ?_⟩
    rw [hauthors y (hyx.trans hle)]
    exact hsame.2 y hy hyx
  · rw [hentry] at hlive ⊢
    rcases Nat.lt_or_ge w.sets.top i with hlt | hle
    · obtain rfl : i = w.sets.top + 1 := le_antisymm hix hlt
      rw [hentry]
      exact Or.inr ⟨rfl, fun y hy hyx => absurd hyx (not_le.mpr hy)⟩
    · rw [History.push_entry_of_le _ _ hle] at hsuspended ⊢
      rcases hnew i hi hle hsuspended hlive with hnone | ⟨hsame, hcurrent, hauthor⟩
      · exact Or.inl hnone
      · rcases h i _ hi hle le_rfl hsuspended hcurrent with hnone | ⟨hold, hauthors'⟩
        · exact Or.inl (hsame.trans hnone)
        · refine Or.inr ⟨hsame.trans hold, fun y hy hyx => ?_⟩
          rcases Nat.lt_or_ge w.sets.top y with hylt | hyle
          · obtain rfl : y = w.sets.top + 1 := le_antisymm hyx hylt
            exact hauthor
          · rw [hauthors y hyle]
            exact hauthors' y hy hyle

/-- The anchors of the old versions are kept, and the new version is anchored. -/
theorem Moored.push {visits visits' : List Visit} (h : Moored w visits)
    (hsets : w'.sets = w.sets.push js) (hseen : w'.seenSets = w.seenSets)
    (hold : ∀ u ≤ w.sets.top, ∀ s, Anchored w.sets visits u s → Anchored w'.sets visits' u s)
    (hnew : ¬ Inert js → ∀ s, js.status.startTime = some s →
      Anchored w'.sets visits' (w.sets.top + 1) s) : Moored w' visits' := by
  intro u hu hle hlive s hs
  rw [hseen] at hu
  rw [hsets] at hle hlive hs
  rcases History.push_entry_cases _ _ hle with ⟨hle', hentry⟩ | ⟨rfl, hentry⟩
  · rw [hentry] at hlive hs
    exact hold u hle' s (h u hu hle' hlive s hs)
  · rw [hentry] at hlive hs
    exact hnew hlive s hs

end Push

/-! ## Steps -/

section Steps

variable {S : Setting} {w w' : World} {visits : List Visit}

/-- Users keep the status. -/
theorem DeadlineOk.user (hS : DeadlineSetting S) (h : DeadlineOk w visits)
    (hseen : w.seenSets ≤ w.sets.top) (hunwritten : ∀ y, w.sets.top < y → w.authors y = none)
    {js : JobSet} (admitted : S.admits w.sets.current js)
    (status : js.status = w.sets.current.status) (hsets : w'.sets = w.sets.push js)
    (hseen' : w'.seenSets = w.seenSets) (hattempt : w'.attempt = w.attempt)
    (hauthors : w'.authors = w.authors) : DeadlineOk w' visits := by
  have hgrows : w.sets.Grows w'.sets := History.grows_of_push (Or.inr ⟨js, hsets⟩)
  have hlive : ¬ Inert js → ¬ Inert w.sets.current := fun hjs hinert =>
    hjs (inert_update hS admitted status hinert)
  constructor
  · apply h.kept.push hsets hseen' fun y _ => by rw [hauthors]
    intro i _ _ _ hjs
    refine Or.inr ⟨by rw [status], hlive hjs, ?_⟩
    rw [hauthors]
    exact hunwritten _ (Nat.lt_succ_self _)
  · intro a busy
    rw [hattempt] at busy
    obtain ⟨v, rest, hvisits, hcurrent⟩ := h.current a busy
    refine ⟨v, rest, hvisits, hcurrent.js, hcurrent.times, fun x hx hle => ?_⟩
    rw [hsets] at hle ⊢
    rcases History.push_entry_cases _ _ hle with ⟨hle', hentry⟩ | ⟨rfl, hentry⟩
    · rw [hentry, History.push_entry_of_le _ _ (hx.trans hle')]
      exact hcurrent.settled x hx hle'
    · rcases Nat.lt_or_ge w.sets.top v.last with hlast | hlast
      · rw [le_antisymm hx hlast]
      · rw [hentry, status, History.push_entry_of_le _ _ hlast]
        exact hcurrent.settled _ hlast le_rfl
  · refine h.moored.imp id fun hmoored => ?_
    apply hmoored.push hsets hseen'
    · exact fun u hu s hs => hs.grow hgrows hu
    · intro hjs s hs
      rw [status] at hs
      rw [hsets]
      exact (hmoored _ hseen le_rfl (hlive hjs) s hs).extend (by rw [status])

/-- Nothing is known of the start times once a suspended JobSet has been read. Otherwise the
guard has seen to it that the next reconcile reads no old one. -/
theorem DeadlineOk.begin (hS : DeadlineSetting S) (h : DeadlineOk w visits)
    (hinert : w.sets.Ordered fun a b => Inert a → Inert b)
    (hnewest : ∀ v rest, visits = v :: rest → v.js = w.sets.entry w.seenSets)
    (idle : w.attempt = none) (step : Step S w w') {a : Attempt} (busy : w'.attempt = some a)
    (ready : StartCleared w a) :
    DeadlineOk w' (⟨a.js, ∅, w.sets.top⟩ :: visits) := by
  obtain ⟨i, jobs, env, rfl, allowed, hsets, hauthors, hi, hnewer, hpast⟩ :=
    step.started idle busy
  constructor
  · intro j x hj hjx hx
    rw [hsets] at hx ⊢
    rw [hauthors]
    rw [hi] at hj
    exact h.kept j x (hnewer.trans hj) hjx hx
  · intro a' busy'
    rw [busy] at busy'
    cases busy'
    refine ⟨_, _, rfl, rfl, reconcileRequest_times env _ jobs (hS.gate env allowed),
      fun x hx hle => ?_⟩
    rw [hsets] at hle ⊢
    rw [le_antisymm hle hx]
  · cases hread : jobSetSuspended (w.sets.entry i) with
    | true => exact Or.inl ⟨_, _, rfl, hread⟩
    | false =>
      refine Or.inr fun u hu hle hlive s hs => ?_
      rw [hsets] at hle hlive hs ⊢
      rw [hi] at hu
      rcases h.moored with ⟨v, rest, hvisits, hsuspended⟩ | hmoored
      · -- the version that was read last is suspended, and cleared behind it
        exfalso
        rw [hnewest v rest hvisits] at hsuspended
        have hlater : w.seenSets < i := by
          refine lt_of_le_of_ne hnewer fun he => ?_
          rw [← he, hsuspended] at hread
          cases hread
        have hold : ¬ Inert (w.sets.entry w.seenSets) := fun hinertOld =>
          hlive (hinert _ u (hnewer.trans hu) hle hinertOld)
        rcases h.kept _ u le_rfl (hnewer.trans hu) hle hsuspended hlive with hnone | ⟨hsame, hnot⟩
        · rw [hnone] at hs
          cases hs
        · apply ready hsuspended hold
          · rw [← hsame, hs]
            exact Option.some_ne_none _
          · exact hnot _ (Nat.lt_succ_self _) (hlater.trans_le hu)
      · exact (hmoored u (hnewer.trans hu) hle hlive s hs).cons hread

variable {v : Visit}

theorem Current.answered {a a' : Attempt} (h : Current w v a) {r : Request}
    {k : r.Response → Prog ℤ} (next : a.rest = .call r k) {x : r.Response} {sv' : Server}
    (hsets : w'.sets = sv'.sets) (hjs : a'.js = a.js) (hrest : a'.rest = k x) :
    Current w' (v.next sv' r x) a' := by
  have htimes := h.times
  rw [next] at htimes
  refine ⟨?_, ?_, fun y hy hle => ?_⟩
  · rw [hjs]
    exact h.js
  · rw [hjs, hrest]
    exact htimes.2 x
  · rw [hsets] at hle ⊢
    rw [le_antisymm hle hy]
    rfl

/-- An answer that changes no version. -/
theorem DeadlineOk.heard (h : DeadlineOk w (v :: visits)) {a a' : Attempt}
    (busy : w.attempt = some a) {r : Request} {k : r.Response → Prog ℤ}
    (next : a.rest = .call r k) {x : r.Response} {sv' : Server} (hsv : sv'.sets = w.sets)
    (hsets : w'.sets = w.sets) (hseen' : w'.seenSets = w.seenSets)
    (hauthors : w'.authors = w.authors) (busy' : w'.attempt = some a') (hjs : a'.js = a.js)
    (hrest : a'.rest = k x) : DeadlineOk w' (v.next sv' r x :: visits) := by
  obtain ⟨v', rest, hvisits, hcurrent⟩ := h.current a busy
  obtain ⟨rfl, rfl⟩ := List.cons.inj hvisits
  have hgrows : w.sets.Grows sv'.sets := History.grows_of_push (Or.inl hsv)
  constructor
  · intro i y hi hiy hy
    rw [hsets] at hy ⊢
    rw [hauthors]
    exact h.kept i y (hseen' ▸ hi) hiy hy
  · intro a₁ busy₁
    rw [busy'] at busy₁
    cases busy₁
    exact ⟨_, _, rfl, hcurrent.answered next (hsets.trans hsv.symm) hjs hrest⟩
  · rcases h.moored with ⟨v', rest, hvisits, hsuspended⟩ | hmoored
    · obtain ⟨rfl, rfl⟩ := List.cons.inj hvisits
      exact Or.inl ⟨_, _, rfl, hsuspended⟩
    · refine Or.inr fun u hu hle hlive s hs => ?_
      rw [hsets] at hle hlive hs ⊢
      have hanchored := (hmoored u (hseen' ▸ hu) hle hlive s hs).answered hgrows hle r x
      rwa [hsv] at hanchored

/-- A step of the Jobs, or a stop. -/
theorem DeadlineOk.same (h : DeadlineOk w visits) (hsets : w'.sets = w.sets)
    (hseen : w'.seenSets = w.seenSets) (hauthors : w'.authors = w.authors)
    (hattempt : ∀ a, w'.attempt = some a → w.attempt = some a) : DeadlineOk w' visits := by
  constructor
  · unfold Kept
    rw [hsets, hseen, hauthors]
    exact h.kept
  · intro a busy
    obtain ⟨v, rest, hvisits, hcurrent⟩ := h.current a (hattempt a busy)
    refine ⟨v, rest, hvisits, hcurrent.js, hcurrent.times, ?_⟩
    rw [hsets]
    exact hcurrent.settled
  · unfold Moored
    rw [hsets, hseen]
    exact h.moored

/-- A status write that takes effect. It clears the start time of a suspended JobSet, keeps an
old one, or stores an instant that the clock has told. -/
theorem DeadlineOk.wrote (h : DeadlineOk w (v :: visits)) {a a' : Attempt}
    (hattempt : AttemptOk S w a) (hseen : w.seenSets ≤ w.sets.top) (hown : OwnSpec w)
    (busy : w.attempt = some a) {js : JobSet} {k : Outcome → Prog ℤ}
    (next : a.rest = .call (.updateStatus js) k) (version : a.base = w.sets.top) {x : Outcome}
    {sv' : Server} (hsv : sv'.sets = w.sets.push { w.sets.current with status := js.status })
    (hsets : w'.sets = sv'.sets) (hseen' : w'.seenSets = w.seenSets)
    (hauthors : ∀ y ≤ w.sets.top, w'.authors y = w.authors y)
    (busy' : w'.attempt = some a') (hjs : a'.js = a.js) (hrest : a'.rest = k x) :
    DeadlineOk w' (v.next sv' (.updateStatus js) x :: visits) := by
  have hcalls := hattempt.follows
  rw [next] at hcalls
  have hwrites : Writes a.env a.js a.jobs a.seen js := hcalls.1
  have hbase : w.sets.current = a.seen.acked.getD a.js := by
    have hstored := hattempt.stored
    rwa [version] at hstored
  obtain ⟨v', rest, hvisits, hcurrent⟩ := h.current a busy
  obtain ⟨rfl, rfl⟩ := List.cons.inj hvisits
  have htimes := hcurrent.times
  rw [next] at htimes
  -- what is stored differs from the write in nothing but what the server has kept
  have hnew : { w.sets.current with status := js.status } = js := by
    have hframe := hwrites.frame
    have hcurrentFrame := hattempt.frame
    rw [version] at hcurrentFrame
    change w.sets.current = { a.js with status := w.sets.current.status } at hcurrentFrame
    rw [hcurrentFrame, hframe]
  rw [hnew] at hsv
  have hgrows : w.sets.Grows sv'.sets := History.grows_of_push (Or.inr ⟨js, hsv⟩)
  have htimed : ¬ Inert js → Timed a.js v.clock js := by
    intro hlive
    obtain ⟨owned, hreads, -⟩ := hwrites.outcome
    exact htimes.1 hreads.internal (unfinished_of_writes hwrites hlive)
  constructor
  · apply h.kept.push (hsets.trans hsv) hseen' hauthors
    intro i hi hle hsuspended hlive
    apply Or.inl
    apply (htimed hlive).cleared
    have hspec := hown a busy i hi (version ▸ hle)
    unfold jobSetSuspended at hsuspended ⊢
    rwa [← hspec]
  · intro a₁ busy₁
    rw [busy'] at busy₁
    cases busy₁
    exact ⟨_, _, rfl, hcurrent.answered next hsets hjs hrest⟩
  · rcases h.moored with ⟨v', rest, hvisits, hsuspended⟩ | hmoored
    · obtain ⟨rfl, rfl⟩ := List.cons.inj hvisits
      exact Or.inl ⟨_, _, rfl, hsuspended⟩
    · cases hread : jobSetSuspended a.js with
      | true =>
        refine Or.inl ⟨_, _, rfl, ?_⟩
        change jobSetSuspended v.js = true
        rw [hcurrent.js]
        exact hread
      | false =>
        apply Or.inr
        apply hmoored.push (hsets.trans hsv) hseen'
        · intro u hu s hs
          rw [hsets]
          exact hs.answered hgrows hu (.updateStatus js) x
        · intro hlive s hs
          rw [hsets]
          have htop : sv'.sets.top = w.sets.top + 1 := by rw [hsv]; rfl
          have hold : ∀ {b : JobSet}, w.sets.current = b → b.status.startTime = some s →
              js.status.restarts = b.status.restarts →
              Anchored sv'.sets (v.next sv' (.updateStatus js) x :: visits) (w.sets.top + 1) s := by
            rintro b hb hstart hrestarts
            have hliveCurrent : ¬ Inert w.sets.current := by
              rw [hbase]
              exact fun hinert => hlive (inert_of_writes hwrites hinert)
            have hbefore := hmoored _ hseen le_rfl hliveCurrent s
              ((congrArg (·.status.startTime) hb).trans hstart)
            have hafter := hbefore.extend (hrestarts.trans (congrArg (·.status.restarts) hb.symm))
            rw [← hsv] at hafter
            rw [← htop] at hafter ⊢
            exact hafter.answered ⟨le_rfl, fun _ _ => rfl⟩ le_rfl (.updateStatus js) x
          rcases hattempted : a.seen.acked with _ | y
          · rcases (htimed hlive).started s hs with hmem | ⟨hstart, hrestarts⟩
            · apply anchored_head
              · change jobSetSuspended v.js = false
                rw [hcurrent.js]
                exact hread
              · exact hmem
              · intro y hy hle
                have hlast : sv'.sets.top ≤ y := hy
                rw [htop] at hlast
                rw [le_antisymm hle hlast, ← htop]
                rfl
            · rw [hattempted] at hbase
              exact hold hbase hstart hrestarts
          · obtain ⟨hstart, hrestarts⟩ := continues_of_writes hwrites hattempted
            rw [hattempted] at hbase
            exact hold hbase (hstart.symm.trans hs) hrestarts

/-- The JobSet is marked for deletion. -/
theorem DeadlineOk.marked (h : DeadlineOk w (v :: visits)) {a a' : Attempt}
    (busy : w.attempt = some a) {r : Request} {k : r.Response → Prog ℤ}
    (next : a.rest = .call r k) {x : r.Response} {sv' : Server} {t : Time}
    (hsv : sv'.sets = w.sets.push { w.sets.current with deletionTimestamp := some t })
    (hsets : w'.sets = sv'.sets) (hseen' : w'.seenSets = w.seenSets)
    (hauthors : ∀ y ≤ w.sets.top, w'.authors y = w.authors y)
    (busy' : w'.attempt = some a') (hjs : a'.js = a.js) (hrest : a'.rest = k x) :
    DeadlineOk w' (v.next sv' r x :: visits) := by
  have hgrows : w.sets.Grows sv'.sets := History.grows_of_push (Or.inr ⟨_, hsv⟩)
  have hinert : Inert { w.sets.current with deletionTimestamp := some t } := Or.inl rfl
  obtain ⟨v', rest, hvisits, hcurrent⟩ := h.current a busy
  obtain ⟨rfl, rfl⟩ := List.cons.inj hvisits
  constructor
  · apply h.kept.push (hsets.trans hsv) hseen' hauthors
    exact fun _ _ _ _ hlive => absurd hinert hlive
  · intro a₁ busy₁
    rw [busy'] at busy₁
    cases busy₁
    exact ⟨_, _, rfl, hcurrent.answered next hsets hjs hrest⟩
  · rcases h.moored with ⟨v', rest, hvisits, hsuspended⟩ | hmoored
    · obtain ⟨rfl, rfl⟩ := List.cons.inj hvisits
      exact Or.inl ⟨_, _, rfl, hsuspended⟩
    · apply Or.inr
      apply hmoored.push (hsets.trans hsv) hseen'
      · intro u hu s hs
        rw [hsets]
        exact hs.answered hgrows hu r x
      · exact fun hlive => absurd hinert hlive

/-- Every step keeps it, when a reconcile starts only with the start time cleared. -/
theorem VisitStep.deadlineOk (hS : DeadlineSetting S) {js : JobSet}
    {u u' : World × List Visit}
    (hrun : Relation.ReflTransGen (VisitStep S StartCleared) (World.initial js, []) u)
    (h : DeadlineOk u.1 u.2) (hstep : VisitStep S StartCleared u u') : DeadlineOk u'.1 u'.2 := by
  have hreach := (VisitRun.guarded hrun).reachable
  have hinv := reachable_inv hreach
  cases hstep with
  | user admitted status =>
    exact h.user hS hinv.seenSets (reachable_unwritten hreach) admitted status rfl rfl rfl rfl
  | jobs step sets same =>
    obtain ⟨hseen, hauthors⟩ := step.same sets same
    exact h.same sets hseen hauthors fun a busy => same ▸ busy
  | begin idle step busy ready =>
    exact h.begin hS (reachable_inert hS hreach) (VisitRun.newest hrun).2 idle step busy ready
  | @answer w v visits a busy r k next x sv' base' reply =>
    have hauthors : ∀ y ≤ w.sets.top, w.record sv' a.toReading y = w.authors y := fun y hy =>
      step_authors hinv (.answer busy next reply) hy
    rcases reply.sets with hsame | ⟨js', rfl, version, hsv⟩ | ⟨js', t, rfl, hsv⟩
    · exact h.heard busy next hsame hsame rfl (if_pos (congrArg History.top hsame)) rfl rfl rfl
    · exact h.wrote (hinv.attempt a busy) hinv.seenSets (reachable_ownSpec hreach) busy next
        version hsv rfl rfl hauthors rfl rfl rfl
    · exact h.marked busy next hsv rfl rfl hauthors rfl rfl rfl
  | stop => exact h.same rfl rfl rfl fun a busy => by cases busy

theorem visitRun_deadlineOk (hS : DeadlineSetting S) {js : JobSet}
    (hjs : js.status.startTime = none) {u : World × List Visit}
    (hrun : Relation.ReflTransGen (VisitStep S StartCleared) (World.initial js, []) u) :
    DeadlineOk u.1 u.2 := by
  induction hrun with
  | refl =>
    constructor
    · exact fun _ _ _ _ _ _ _ => Or.inl hjs
    · intro a busy
      cases busy
    · refine Or.inr fun u _ _ _ s hs => ?_
      have hs' : js.status.startTime = some s := hs
      rw [hjs] at hs'
      cases hs'
  | tail hrun hstep ih => exact hstep.deadlineOk hS hrun ih

/-- What the status write of an unfinished JobSet says about time. -/
theorem DeadlineOk.timed {a : Attempt} (h : DeadlineOk w visits) (hattempt : AttemptOk S w a)
    (busy : w.attempt = some a) (hun : jobSetFinished a.js = false) {js : JobSet}
    {k : Outcome → Prog ℤ} (next : a.rest = .call (.updateStatus js) k) :
    ∃ v rest, visits = v :: rest ∧ Current w v a ∧ Timed a.js v.clock js := by
  obtain ⟨v, rest, hvisits, hcurrent⟩ := h.current a busy
  have hcalls := hattempt.follows
  have htimes := hcurrent.times
  rw [next] at hcalls htimes
  obtain ⟨owned, hlive, -⟩ := Writes.outcome hcalls.1
  exact ⟨v, rest, hvisits, hcurrent, htimes.1 hlive.internal hun⟩

end Steps

/-! ## A deadline that passes -/

theorem suspend_deadlineSetting : DeadlineSetting (suspendSetting (plainEnv deadlineGates)) where
  gate := by rintro env rfl; rfl
  deletion := by rintro a b ⟨on, rfl⟩ h; exact h
  manager := by rintro a b ⟨on, rfl⟩; rfl

/-- The next call fails the JobSet with DeadlineExceeded. -/
def failsNext (a : Attempt) (p : Prog ℤ) : Bool :=
  !jobSetFinished a.js &&
    match p with
    | .call (.updateStatus js) _ => js.status.conditions.any fun c => c.type = .jobSetFailed ∧
        c.status = .conditionTrue ∧ c.reason = "DeadlineExceeded"
    | _ => false

theorem exists_of_failsNext {a : Attempt} {p : Prog ℤ} (h : failsNext a p = true) :
    jobSetFinished a.js = false ∧ ∃ js k, p = .call (.updateStatus js) k ∧
      Persisted .jobSetActiveDeadlineExceeded js := by
  unfold failsNext at h
  rw [Bool.and_eq_true, Bool.not_eq_true'] at h
  refine ⟨h.1, ?_⟩
  replace h := h.2
  split at h
  · rename_i js k
    obtain ⟨c, hc, hexpired⟩ := List.any_eq_true.mp h
    obtain ⟨htype, htrue, hreason⟩ := of_decide_eq_true hexpired
    exact ⟨js, k, rfl, c, hc, htype, htrue, hreason⟩
  · cases h

/-- The Jobs are created at the start time. Eleven seconds later they are deleted. -/
def expiringEvents : List Event :=
  [.begin 0 0, .answer 0, .answer 0, .answer 0, .stop, .begin 1 2, .answer 11000000000,
    .answer 11000000000]

end JobSetOperator.Cluster
