import JobSetOperator.Cluster.World

/-!
# Executing a run

An executable form of the step relation, for runs that are given step by step. An
`Event` is one step, except that the calls outside the model are answered on the
way to the next call that reaches the server. Every run that can be executed is a
run of the step relation (`run_reachable`).
-/
namespace JobSetOperator.Cluster

open Library

/-- The call takes effect and is answered so. -/
def accept (sv : Server) (base : ℕ) : (r : Request) → Option (r.Response × Server)
  | .createJob job =>
    if ∀ j ∈ sv.jobs.current, j.name ≠ job.name then some (Except.ok (), sv.addJob job) else none
  | .deleteJob name =>
    match sv.jobs.current.find? fun j => j.name = name with
    | some job => some (Except.ok (), sv.putJob
        { job with deletionTimestamp := some (job.deletionTimestamp.getD 0) })
    | none => some (Except.ok (), sv)
  | .updateJob sent =>
    match sv.jobs.current.find? fun j =>
      sent.name = j.name ∧ sent.resourceVersion = j.resourceVersion with
    | some job => some (Except.ok (), sv.putJob { job with
        labels := sent.labels, annotations := sent.annotations, spec := sent.spec })
    | none => none
  | .updateStatus js =>
    if base = sv.sets.top then
      some (Except.ok (), sv.putSet { sv.sets.current with status := js.status })
    else none
  | _ => none

/-- The call has no effect and is answered with an error. -/
def refuse : (r : Request) → Option r.Response
  | .createJob _ => some (Except.error "")
  | .deleteJob _ => some (Except.error "")
  | .updateJob _ => some (Except.error "")
  | .updateStatus _ => some (Except.error "")
  | _ => none

/-- The steps of an executable run. -/
inductive Event
  | suspend (on : Bool)
  | schedule (scheduling : Option JobSetScheduling)
  | progress (name : String) (status : JobStatus)
  | remove (name : String)
  | begin (i j : ℕ)
  | answer (clock : Time)
  | refuse (clock : Time)
  | stop

/-- The world after the next call of the reconcile that reaches the server. -/
def answered (clock : Time) (w : World) : Option World :=
  match w.attempt with
  | none => none
  | some a =>
    match skip clock 200 a.rest with
    | .call r k =>
      match accept w.toServer a.base r with
      | some (x, sv') => some { w with
          toServer := sv'
          attempt := some { a with
            base := nextBase sv' a.base r, seen := a.seen.next r x, rest := k x }
          authors := w.record sv' a.toReading }
      | none => none
    | _ => none

/-- The world after that call has failed. -/
def refused (clock : Time) (w : World) : Option World :=
  match w.attempt with
  | none => none
  | some a =>
    match skip clock 200 a.rest with
    | .call r k =>
      match refuse r with
      | some x => some { w with
          attempt := some { a with seen := a.seen.next r x, rest := k x } }
      | none => none
    | _ => none

/-- One event. A reconcile starts only if the check allows it. -/
def Event.apply (env : Env) (check : World → Attempt → Bool) (w : World) : Event → Option World
  | .suspend on => some { w with
      toServer := w.toServer.putSet { w.sets.current with
        spec := { w.sets.current.spec with suspend := some on } } }
  | .schedule scheduling => some { w with
      toServer := w.toServer.putSet { w.sets.current with
        spec := { w.sets.current.spec with scheduling := scheduling } } }
  | .progress name status =>
    match w.jobs.current.find? fun j => j.name = name with
    | some job =>
      if jobFinished job = none then
        some { w with toServer := w.toServer.putJob { job with status := status } }
      else none
    | none => none
  | .remove name =>
    match w.jobs.current.find? fun j => j.name = name ∧ j.deletionTimestamp.isSome with
    | some job => some { w with toServer := w.toServer.dropJob job }
    | none => none
  | .begin i j =>
    if w.attempt.isNone ∧ w.seenSets ≤ i ∧ i ≤ w.sets.top ∧ w.seenJobs ≤ j ∧ j ≤ w.jobs.top ∧
        check w (.start env (w.sets.entry i) (w.jobs.entry j) i) then
      some { w with
        seenSets := i, seenJobs := j
        attempt := some (.start env (w.sets.entry i) (w.jobs.entry j) i) }
    else none
  | .answer clock => answered clock w
  | .refuse clock => refused clock w
  | .stop => some { w with attempt := none }

/-- The events one after the other. -/
def run (env : Env) (check : World → Attempt → Bool) : World → List Event → Option World
  | w, [] => some w
  | w, event :: rest => (event.apply env check w).bind fun w' => run env check w' rest

/-! ## Soundness -/

/-- The setting lets the event happen. -/
def Event.Permitted (S : Setting) : Event → Prop
  | .suspend on => ∀ js, S.admits js { js with spec := { js.spec with suspend := some on } }
  | .schedule scheduling => ∀ js,
    S.admits js { js with spec := { js.spec with scheduling := scheduling } }
  | .remove _ => ∀ job : Job, job.deletionTimestamp.isSome = true → S.removable job
  | _ => True

theorem outside_of_quiet {clock : Time} {r : Request} {x : r.Response}
    (h : quietAnswer clock r = some x) :
    Outside r := by
  cases r <;> first | exact trivial | cases h

theorem seen_of_quiet {clock : Time} {r : Request} {x : r.Response}
    (h : quietAnswer clock r = some x) (s : Seen) :
    s.next r x = s := by
  cases r <;> first | rfl | cases h

/-- Only the start of a reconcile is guarded. -/
theorem guarded_of_busy {S : Setting} {guard : World → Attempt → Prop} {w w' : World} {a : Attempt}
    (busy : w.attempt = some a) (h : Step S w w') : GuardedStep S guard w w' :=
  ⟨h, fun idle => by rw [idle] at busy; cases busy⟩

theorem guarded_of_same {S : Setting} {guard : World → Attempt → Prop} {w w' : World}
    (he : w'.attempt = w.attempt) (h : Step S w w') : GuardedStep S guard w w' :=
  ⟨h, fun idle a ha => by rw [he, idle] at ha; cases ha⟩

/-- The calls outside the model are steps that change nothing else. -/
theorem steps_skip (S : Setting) (guard : World → Attempt → Prop) (clock : Time) (n : ℕ)
    {w : World} {a : Attempt} (busy : w.attempt = some a) :
    Relation.ReflTransGen (GuardedStep S guard) w
      { w with attempt := some { a with rest := skip clock n a.rest } } := by
  induction n generalizing w a with
  | zero =>
    have hw : { w with attempt := some { a with rest := skip clock 0 a.rest } } = w := by
      rw [show skip clock 0 a.rest = a.rest from rfl, ← busy]
    rw [hw]
  | succ n ih =>
    cases hrest : a.rest with
    | done x =>
      have hw : { w with attempt := some { a with rest := skip clock (n + 1) (.done x) } } = w := by
        rw [show skip clock (n + 1) (.done x) = .done x from rfl, ← hrest, ← busy]
      rw [hw]
    | fail e =>
      have hw : { w with attempt := some { a with rest := skip clock (n + 1) (.fail e) } } = w := by
        rw [show skip clock (n + 1) (.fail e) = .fail e from rfl, ← hrest, ← busy]
      rw [hw]
    | call r k =>
      cases hq : quietAnswer clock r with
      | none =>
        have hskip : skip clock (n + 1) (.call r k) = .call r k := by
          unfold skip
          rw [hq]
        have hw : { w with attempt := some { a with rest := skip clock (n + 1) (.call r k) } } = w := by
          rw [hskip, ← hrest, ← busy]
        rw [hw]
      | some x =>
        have hskip : skip clock (n + 1) (.call r k) = skip clock n (k x) := by
          rw [skip, hq]
        have hstep := Step.answer (S := S) busy hrest (Reply.outside (outside_of_quiet hq) x)
        rw [seen_of_quiet hq, World.record, if_pos rfl] at hstep
        rw [hskip]
        exact Relation.ReflTransGen.head (guarded_of_busy busy hstep)
          (ih (w := { w with attempt := some { a with rest := k x } }) rfl)

/-- An accepted call is answered in accordance with its effect. -/
theorem reply_of_accept {sv sv' : Server} {base : ℕ} {r : Request} {x : r.Response}
    (h : accept sv base r = some (x, sv')) : Reply sv base r x sv' (nextBase sv' base r) := by
  cases r with
  | createJob job =>
    simp only [accept] at h
    split_ifs at h with hfree
    cases h
    exact .accepted (.createJob job hfree) trivial
  | deleteJob name =>
    simp only [accept] at h
    split at h
    · rename_i job hfind
      cases h
      have hname : job.name = name := by simpa using List.find?_some hfind
      subst hname
      exact .accepted (.deleteJob (List.mem_of_find?_eq_some hfind) 0) trivial
    · rename_i hfind
      cases h
      exact .gone fun j hj => by simpa using List.find?_eq_none.mp hfind j hj
  | updateJob sent =>
    simp only [accept] at h
    split at h
    · rename_i job hfind
      cases h
      have hsame : sent.name = job.name ∧ sent.resourceVersion = job.resourceVersion := by
        simpa using List.find?_some hfind
      exact .accepted (.updateJob (List.mem_of_find?_eq_some hfind) sent hsame.1 hsame.2) trivial
    · cases h
  | updateStatus js =>
    simp only [accept] at h
    split_ifs at h with hbase
    cases h
    exact .accepted (.updateStatus js hbase) trivial
  | _ => cases h

theorem steps_answered {S : Setting} {guard : World → Attempt → Prop} {clock : Time}
    {w w' : World} (h : answered clock w = some w') :
    Relation.ReflTransGen (GuardedStep S guard) w w' := by
  unfold answered at h
  split at h
  · cases h
  · rename_i a busy
    split at h
    · rename_i r k hskip
      split at h
      · rename_i x sv' haccept
        cases h
        have hsteps := steps_skip S guard clock 200 busy
        exact hsteps.tail (guarded_of_busy rfl (Step.answer
          (w := { w with attempt := some { a with rest := skip clock 200 a.rest } }) rfl hskip
          (reply_of_accept haccept)))
      · cases h
    · cases h

theorem failed_of_refuse {r : Request} {x : r.Response} (h : refuse r = some x) : Failed r x := by
  cases r <;> first | (cases h; exact trivial) | cases h

theorem steps_refused {S : Setting} {guard : World → Attempt → Prop} {clock : Time}
    {w w' : World} (h : refused clock w = some w') :
    Relation.ReflTransGen (GuardedStep S guard) w w' := by
  unfold refused at h
  split at h
  · cases h
  · rename_i a busy
    split at h
    · rename_i r k hskip
      split at h
      · rename_i x hrefuse
        cases h
        have hsteps := steps_skip S guard clock 200 busy
        have hstep := Step.answer (S := S)
          (w := { w with attempt := some { a with rest := skip clock 200 a.rest } }) rfl hskip
          (Reply.failed (failed_of_refuse hrefuse))
        rw [World.record, if_pos rfl] at hstep
        exact hsteps.tail (guarded_of_busy rfl hstep)
      · cases h
    · cases h

section Run

variable {S : Setting} {env : Env} {guard : World → Attempt → Prop}
  {check : World → Attempt → Bool}

theorem steps_event (hS : S.allowed env) (hcheck : ∀ w a, check w a = true → guard w a)
    {w w' : World} {event : Event} (permitted : event.Permitted S)
    (h : event.apply env check w = some w') :
    Relation.ReflTransGen (GuardedStep S guard) w w' := by
  cases event with
  | suspend on =>
    cases h
    exact .single (guarded_of_same rfl (.userUpdate (permitted _) rfl))
  | schedule scheduling =>
    cases h
    exact .single (guarded_of_same rfl (.userUpdate (permitted _) rfl))
  | progress name status =>
    simp only [Event.apply] at h
    split at h
    · rename_i job hfind
      split_ifs at h with hunfinished
      cases h
      refine .single (guarded_of_same rfl
        (.jobProgress (List.mem_of_find?_eq_some hfind) status fun t ht => ?_))
      rw [hunfinished] at ht
      cases ht
    · cases h
  | remove name =>
    simp only [Event.apply] at h
    split at h
    · rename_i job hfind
      cases h
      have hmarked : job.name = name ∧ job.deletionTimestamp.isSome = true := by
        simpa using List.find?_some hfind
      exact .single (guarded_of_same rfl
        (.jobRemoved (List.mem_of_find?_eq_some hfind) (permitted job hmarked.2)))
    · cases h
  | begin i j =>
    simp only [Event.apply] at h
    split_ifs at h with hread
    cases h
    obtain ⟨idle, newer, past, newerJobs, pastJobs, hallowed⟩ := hread
    refine .single ⟨.begin (by simpa using idle) hS newer past newerJobs pastJobs
      (List.Perm.refl _), fun _ a ha => ?_⟩
    cases ha
    exact hcheck _ _ hallowed
  | answer clock => exact steps_answered h
  | refuse clock => exact steps_refused h
  | stop =>
    cases h
    exact .single ⟨.stop, fun _ a ha => by cases ha⟩

theorem steps_run (hS : S.allowed env) (hcheck : ∀ w a, check w a = true → guard w a)
    {w w' : World} {events : List Event} (permitted : ∀ event ∈ events, event.Permitted S)
    (h : run env check w events = some w') :
    Relation.ReflTransGen (GuardedStep S guard) w w' := by
  induction events generalizing w with
  | nil =>
    cases h
    exact .refl
  | cons event rest ih =>
    obtain ⟨w₁, hfirst, hrest⟩ := Option.bind_eq_some_iff.mp h
    have hstep := steps_event hS hcheck (permitted event List.mem_cons_self) hfirst
    exact hstep.trans (ih (fun e he => permitted e (List.mem_cons_of_mem _ he)) hrest)

/-- What holds at the end of an executed run holds at the end of a guarded run. -/
theorem run_guarded (hS : S.allowed env) (hcheck : ∀ w a, check w a = true → guard w a)
    (js : JobSet) (events : List Event) (permitted : ∀ event ∈ events, event.Permitted S)
    {p : World → Bool} (h : (run env check (World.initial js) events).any p = true) :
    ∃ w, GuardedRun S guard js w ∧ p w = true := by
  obtain ⟨w, hw, hp⟩ := (Option.any_eq_true _ _).mp h
  exact ⟨w, steps_run hS hcheck permitted hw, hp⟩

/-- What holds at the end of an executed run holds of a reachable world. -/
theorem run_reachable (hS : S.allowed env) (js : JobSet) (events : List Event)
    (permitted : ∀ event ∈ events, event.Permitted S) {p : World → Bool}
    (h : (run env (fun _ _ => true) (World.initial js) events).any p = true) :
    ∃ w, Reachable S js w ∧ p w = true := by
  have hcheck : ∀ w a, (fun _ _ => true : World → Attempt → Bool) w a = true →
      (fun _ _ => True : World → Attempt → Prop) w a := fun _ _ _ => trivial
  obtain ⟨w, hw, hp⟩ := run_guarded hS hcheck js events permitted h
  exact ⟨w, hw.reachable, hp⟩

end Run

/-! ## A small JobSet -/

/-- One configuration of the controller; the spec is fixed, and Jobs are created
and marked for deletion by the controller only. -/
def plainSetting (env : Env) : Setting where
  allowed e := e = env
  admits a b := b.spec = a.spec
  foreign _ := False
  removable job := job.deletionTimestamp.isSome = true

/-- The status of a failed Job. -/
def failedStatus : JobStatus :=
  ⟨[⟨.jobFailed, .conditionTrue, "BackoffLimitExceeded", "", 0⟩], 0, none, 0, none⟩

/-- The only Job is created and fails, and the failure policy acts on it. -/
def failOnce : List Event :=
  [.begin 0 0, .answer 0, .answer 0, .stop, .progress "js-w-0" failedStatus, .begin 1 2, .answer 0]

end JobSetOperator.Cluster
