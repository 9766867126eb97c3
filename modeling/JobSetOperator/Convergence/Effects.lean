import JobSetOperator.Convergence.Site

/-!
# What each part of a reconcile leaves

The parts of a reconcile that call the server, one by one: the Jobs they delete,
create, suspend and resume, the service and the claims, and the status. Every part
returns, and a part that has nothing to do leaves the session as it is.
-/
namespace JobSetOperator.Convergence

open Library Library.Program

/-! ## Calls -/

section Calls

variable {α β : Type} {Q : Session → Except String β → Prop} {s : Session}

theorem ensures_send_bind {r : Request} {f : r.Response → Prog β}
    (h : ∀ x s', serves s r x s' → Ensures serves (fun _ => True) Q s' (f x)) :
    Ensures serves (fun _ => True) Q s (send r >>= f) :=
  ensures_ask_bind h

theorem ensures_readClock_bind {f : Time → Prog β}
    (h : ∀ now, Ensures serves (fun _ => True) Q s (f now)) :
    Ensures serves (fun _ => True) Q s (readClock >>= f) := by
  apply ensures_send_bind
  rintro now s' rfl
  exact h now

theorem ensures_recordEvent_bind {event : EventParams} {f : Unit → Prog β}
    (h : Ensures serves (fun _ => True) Q s (f ())) :
    Ensures serves (fun _ => True) Q s (recordEvent event >>= f) := by
  apply ensures_send_bind
  rintro ⟨⟩ s' rfl
  exact h

theorem ensures_deleteJob_bind {name : String} {f : Outcome → Prog β}
    (h : Ensures serves (fun _ => True) Q
      { s with jobs := s.jobs.filter (fun job => job.name ≠ name), wrote := true } (f (.ok ()))) :
    Ensures serves (fun _ => True) Q s (send (.deleteJob name) >>= f) := by
  apply ensures_send_bind
  rintro (err | ⟨⟩) s' hs
  · exact hs.elim
  · cases hs
    exact h

theorem ensures_createJob_bind {job : Job} {f : Outcome → Prog β}
    (h : ∀ stored, Stores job stored → Ensures serves (fun _ => True) Q
      { s with jobs := s.jobs ++ [stored], wrote := true } (f (.ok ()))) :
    Ensures serves (fun _ => True) Q s (send (.createJob job) >>= f) := by
  apply ensures_send_bind
  rintro (err | ⟨⟩) s' hs
  · exact hs.elim
  · obtain ⟨stored, hstored, rfl⟩ := hs
    exact h stored hstored

theorem ensures_updateJob_bind {job : Job} {f : Outcome → Prog β}
    (h : Ensures serves (fun _ => True) Q
      { s with
        jobs := modifyNamed job.name (fun old => { old with
          labels := job.labels, annotations := job.annotations, spec := job.spec }) s.jobs
        wrote := true } (f (.ok ()))) :
    Ensures serves (fun _ => True) Q s (send (.updateJob job) >>= f) := by
  apply ensures_send_bind
  rintro (err | ⟨⟩) s' hs
  · exact hs.elim
  · cases hs
    exact h

theorem ensures_updateJobStatus_bind {job : Job} {f : Except String ℕ → Prog β}
    (h : ∀ version, Ensures serves (fun _ => True) Q
      { s with
        jobs := modifyNamed job.name (fun old => { old with status := job.status }) s.jobs
        wrote := true } (f (.ok version))) :
    Ensures serves (fun _ => True) Q s (send (.updateJobStatus job) >>= f) := by
  apply ensures_send_bind
  rintro (err | version) s' hs
  · exact hs.elim
  · cases hs
    exact h version

end Calls

/-! ## Deleting and creating Jobs -/

/-- The Jobs of the names are removed. -/
def Session.delete (s : Session) (names : List String) : Session :=
  { s with
    jobs := s.jobs.filter fun job => job.name ∉ names
    wrote := s.wrote || !names.isEmpty }

@[simp] theorem Session.delete_nil (s : Session) : s.delete [] = s := by
  simp [Session.delete]

theorem Session.delete_cons (s : Session) (name : String) (names : List String) :
    s.delete (name :: names) =
      Session.delete { s with
        jobs := s.jobs.filter (fun job => job.name ≠ name), wrote := true } names := by
  simp only [Session.delete, List.filter_filter, List.mem_cons, not_or, Bool.decide_and]
  simp [Bool.and_comm]

theorem yields_deleteJobsLoop (jobs : List Job) (s : Session) :
    Yields serves (fun s' errs => errs = [] ∧ s' = s.delete ((liveJobs jobs).map (·.name))) s
      (deleteJobsLoop jobs) := by
  induction jobs generalizing s with
  | nil => exact yields_done ⟨rfl, (s.delete_nil).symm⟩
  | cons job rest ih =>
    unfold deleteJobsLoop
    split_ifs with hdeleted
    · have hlive : liveJobs (job :: rest) = liveJobs rest := by
        simp [liveJobs, Option.isSome_iff_ne_none.mp hdeleted]
      rw [hlive]
      exact ih s
    · have hlive : liveJobs (job :: rest) = job :: liveJobs rest := by
        simp [liveJobs, Option.not_isSome_iff_eq_none.mp hdeleted]
      apply ensures_deleteJob_bind
      apply (ih _).bind
      rintro s' errs ⟨rfl, rfl⟩
      refine ⟨[], rfl, rfl, ?_⟩
      rw [hlive, List.map_cons, Session.delete_cons]

theorem yields_deleteJobs (jobs : List Job) (s : Session) :
    Yields serves (fun s' _ => s' = s.delete ((liveJobs jobs).map (·.name))) s
      (deleteJobs jobs) := by
  apply (yields_deleteJobsLoop jobs s).bind
  rintro s' errs ⟨rfl, rfl⟩
  exact ⟨(), rfl, rfl⟩

/-- The Jobs are stored. -/
def Session.create (s : Session) (stored : List Job) : Session :=
  { s with jobs := s.jobs ++ stored, wrote := s.wrote || !stored.isEmpty }

@[simp] theorem Session.create_nil (s : Session) : s.create [] = s := by
  simp [Session.create]

theorem Session.create_append (s : Session) (stored stored' : List Job) :
    s.create (stored ++ stored') = (s.create stored).create stored' := by
  cases stored <;> simp [Session.create]

theorem yields_createJobsLoop (jobs : List Job) (s : Session) :
    Yields serves (fun s' errs => errs = [] ∧ ∃ stored, List.Forall₂ Stores jobs stored ∧
      s' = s.create stored) s (createJobsLoop jobs) := by
  induction jobs generalizing s with
  | nil => exact yields_done ⟨rfl, [], List.Forall₂.nil, (s.create_nil).symm⟩
  | cons job rest ih =>
    unfold createJobsLoop
    apply ensures_createJob_bind
    intro first hfirst
    apply (ih _).bind
    rintro s' errs ⟨rfl, stored, hstored, rfl⟩
    refine ⟨[], rfl, rfl, first :: stored, List.Forall₂.cons hfirst hstored, ?_⟩
    simp [Session.create]

theorem yields_createJobs (jobs : List Job) (s : Session) :
    Yields serves (fun s' _ => ∃ stored, List.Forall₂ Stores jobs stored ∧ s' = s.create stored) s
      (createJobs jobs) := by
  apply (yields_createJobsLoop jobs s).bind
  rintro s' errs ⟨rfl, stored, hstored, rfl⟩
  exact ⟨(), rfl, stored, hstored, rfl⟩

/-! ## Services and claims -/

/-- The headless service is missing, or the JobSet controls it and its ports differ. -/
def serviceNeeded (js : JobSet) (service : Option (Bool × List ServicePort)) : Bool :=
  dnsHostnamesEnabled js &&
    match service with
    | none => true
    | some (controlled, ports) => controlled && decide (ports ≠ headlessSvcPorts js)

/-- The service as the JobSet wants it. -/
def Session.serve (s : Session) (js : JobSet) : Session :=
  if serviceNeeded js s.service then
    { s with service := some (true, headlessSvcPorts js), wrote := true }
  else s

theorem not_serviceNeeded_created (js : JobSet) :
    serviceNeeded js (some (true, headlessSvcPorts js)) = false := by
  simp [serviceNeeded]

theorem Session.serve_of_needed {s : Session} {js : JobSet}
    (h : serviceNeeded js s.service = true) :
    s.serve js = { s with service := some (true, headlessSvcPorts js), wrote := true } :=
  if_pos h

theorem Session.serve_of_not_needed {s : Session} {js : JobSet}
    (h : serviceNeeded js s.service = false) : s.serve js = s :=
  if_neg (by simp [h])

theorem yields_createHeadlessSvcIfNecessary (js : JobSet) (s : Session) :
    Yields serves (fun s' _ => s' = s.serve js) s (createHeadlessSvcIfNecessary js) := by
  unfold createHeadlessSvcIfNecessary
  cases hdns : dnsHostnamesEnabled js with
  | false =>
    rw [Session.serve_of_not_needed (by simp [serviceNeeded, hdns])]
    exact yields_done rfl
  | true =>
    rw [if_neg (by simp)]
    apply ensures_send_bind
    rintro (⟨controlled, ports⟩ | _ | err) s' hs
    · obtain ⟨hservice, rfl⟩ := hs
      dsimp only
      split_ifs with hports
      · rw [Session.serve_of_needed (by simp [serviceNeeded, hdns, hservice, hports])]
        apply ensures_send_bind
        rintro (err | ⟨⟩) s'' hs
        · exact hs.elim
        · exact ⟨(), rfl, hs⟩
      · have hdone : controlled = true → ports = headlessSvcPorts js := by simpa using hports
        rw [Session.serve_of_not_needed (by simpa [serviceNeeded, hdns, hservice] using hdone)]
        exact yields_done rfl
    · obtain ⟨hservice, rfl⟩ := hs
      rw [Session.serve_of_needed (by simp [serviceNeeded, hdns, hservice])]
      apply ensures_send_bind
      rintro (err | ⟨⟩) s'' hs
      · exact hs.elim
      · exact ⟨(), rfl, hs⟩
    · exact hs.elim

/-- The names of the claims of a JobSet. -/
def claimNames (js : JobSet) : List String :=
  js.spec.volumeClaimPolicies.flatMap fun policy =>
    policy.templates.map fun template => generatePVCName js.name template.name

/-- The claims with the missing ones added. -/
def addClaims (claims names : List String) : List String :=
  names.foldl (fun claims name => claims.insert name) claims

/-- The claims of the names exist. -/
def Session.claim (s : Session) (names : List String) : Session :=
  { s with
    claims := addClaims s.claims names
    wrote := s.wrote || !names.all fun name => decide (name ∈ s.claims) }

@[simp] theorem Session.claim_nil (s : Session) : s.claim [] = s := by
  simp [Session.claim, addClaims]

theorem mem_addClaims {claims names : List String} {name : String} :
    name ∈ addClaims claims names ↔ name ∈ claims ∨ name ∈ names := by
  induction names generalizing claims with
  | nil => simp [addClaims]
  | cons first rest ih =>
    have hstep : addClaims claims (first :: rest) = addClaims (claims.insert first) rest := rfl
    rw [hstep, ih, List.mem_insert_iff, List.mem_cons]
    tauto

theorem addClaims_of_mem {claims names : List String} (h : ∀ name ∈ names, name ∈ claims) :
    addClaims claims names = claims := by
  induction names with
  | nil => rfl
  | cons first rest ih =>
    obtain ⟨hfirst, hrest⟩ := List.forall_mem_cons.mp h
    have hstep : addClaims claims (first :: rest) = addClaims (claims.insert first) rest := rfl
    rw [hstep, List.insert_of_mem hfirst, ih hrest]

theorem Session.claim_cons (s : Session) (name : String) (names : List String) :
    s.claim (name :: names) = (s.claim [name]).claim names := by
  by_cases h : name ∈ s.claims
  · simp [Session.claim, addClaims, h]
  · simp [Session.claim, addClaims, h]

theorem Session.claim_append (s : Session) (names names' : List String) :
    s.claim (names ++ names') = (s.claim names).claim names' := by
  induction names generalizing s with
  | nil => simp
  | cons name rest ih => rw [List.cons_append, claim_cons, ih, ← claim_cons]

theorem yields_createPVCsIfNecessary (js : JobSet) (policy : VolumeClaimPolicy)
    (templates : List PersistentVolumeClaim) (s : Session) :
    Yields serves (fun s' outcome => outcome = .ok () ∧
      s' = s.claim (templates.map fun template => generatePVCName js.name template.name)) s
      (createPVCsIfNecessary js policy templates) := by
  induction templates generalizing s with
  | nil => exact yields_done ⟨rfl, (s.claim_nil).symm⟩
  | cons template rest ih =>
    unfold createPVCsIfNecessary
    rw [List.map_cons, Session.claim_cons]
    apply ensures_send_bind
    rintro (_ | _ | err) s' hs
    · obtain ⟨hnew, rfl⟩ := hs
      have hnew' : generatePVCName js.name template.name ∉ s.claims := hnew
      have hclaim : s.claim [generatePVCName js.name template.name] =
          { s with
            claims := generatePVCName js.name template.name :: s.claims, wrote := true } := by
        simp [Session.claim, addClaims, hnew']
      rw [hclaim]
      exact ih _
    · obtain ⟨hold, rfl⟩ := hs
      have hold' : generatePVCName js.name template.name ∈ s'.claims := hold
      have hclaim : s'.claim [generatePVCName js.name template.name] = s' := by
        simp [Session.claim, addClaims, hold']
      rw [hclaim]
      exact ih _
    · exact hs.elim

theorem yields_reconcileClaimsLoop (js : JobSet) (policies : List VolumeClaimPolicy)
    (s : Session) :
    Yields serves (fun s' errs => errs = [] ∧
      s' = s.claim (policies.flatMap fun policy =>
        policy.templates.map fun template => generatePVCName js.name template.name)) s
      (reconcileClaimsLoop js policies) := by
  induction policies generalizing s with
  | nil => exact yields_done ⟨rfl, (s.claim_nil).symm⟩
  | cons policy rest ih =>
    unfold reconcileClaimsLoop
    apply (yields_createPVCsIfNecessary js policy policy.templates s).bind
    rintro s' outcome ⟨rfl, rfl⟩
    apply (ih _).bind
    rintro s'' errs ⟨rfl, rfl⟩
    refine ⟨[], rfl, rfl, ?_⟩
    rw [List.flatMap_cons, Session.claim_append]

/-- The service and the claims as the JobSet wants them. -/
def Session.provide (s : Session) (js : JobSet) : Session := (s.serve js).claim (claimNames js)

theorem yields_reconcileResources {env : Env} {js : JobSet}
    (hscheduling : schedulingConfigured env js = false) (s : Session) :
    Yields serves (fun s' goOn => goOn = true ∧ s' = s.provide js) s
      (reconcileResources env js) := by
  have hgoOn : reconcileScheduling env js = .done true := by
    unfold reconcileScheduling
    simp [hscheduling]
  unfold reconcileResources
  apply (yields_createHeadlessSvcIfNecessary js s).bind
  rintro s' ⟨⟩ rfl
  rw [hgoOn]
  split_ifs with hpolicies
  · unfold reconcileVolumeClaimPolicies
    rw [Program.assoc]
    apply (yields_reconcileClaimsLoop js js.spec.volumeClaimPolicies _).bind
    rintro s'' errs ⟨rfl, rfl⟩
    exact yields_done ⟨rfl, rfl⟩
  · have hnone : claimNames js = [] := by
      simp [claimNames, not_not.mp hpolicies]
    apply yields_done
    simp [Session.provide, hnone]

end JobSetOperator.Convergence
