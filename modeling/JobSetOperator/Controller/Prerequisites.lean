import JobSetOperator.Controller.Traversal
import JobSetOperator.Library.Journals

/-!
# What exists before a Job is touched

The headless service, the claims and the scheduling objects are taken care of before
the Jobs. On every path, whatever the API answers, a Job is created, scaled, suspended
or resumed only after the answers of the same reconcile have shown that they are there,
so no pod template names a claim that was not confirmed.
-/
namespace JobSetOperator

open Library Library.Program

/-- The answers of a reconcile so far. -/
abbrev Answers := Journal Request Request.Response

/-- The call creates or changes a Job. -/
def Request.touchesJob : Request → Prop
  | .createJob _ => True
  | .patchScaling _ => True
  | .updateJobStatus _ => True
  | .updateJob _ => True
  | _ => False

/-- The headless service was created, or found. Its ports are up to date when the JobSet owns it. -/
def ServiceReady (js : JobSet) (s : Answers) : Prop :=
  (∃ service : Service, service.name = getSubdomain js ∧ service.selector = js.name ∧
    service.ports = headlessSvcPorts js ∧ ⟨.createService service, .ok ()⟩ ∈ s) ∨
  ∃ controlled ports, ⟨.getService (getSubdomain js), .found controlled ports⟩ ∈ s ∧
    (controlled = true → ports ≠ headlessSvcPorts js →
      ⟨.updateServicePorts (headlessSvcPorts js), .ok ()⟩ ∈ s)

/-- The claim of the template was created, or exists. -/
def ClaimReady (js : JobSet) (policy : VolumeClaimPolicy) (template : PersistentVolumeClaim)
    (s : Answers) : Prop :=
  ⟨.createClaim (claimRequest js policy template), .created⟩ ∈ s ∨
    ⟨.createClaim (claimRequest js policy template), .alreadyExists⟩ ∈ s

/-- The scheduling objects were deleted, or reconciled and then found ready. -/
def SchedulingReady (js : JobSet) (s : Answers) : Prop :=
  if jobSetSuspended js then ⟨.deleteSchedulingObjects, .ok ()⟩ ∈ s
  else List.Sublist [⟨.reconcileSchedulingObjects, .ok ()⟩, ⟨.schedulingObjectsReady, .ok true⟩] s

/-- Everything that Jobs need is there. -/
structure Provided (env : Env) (js : JobSet) (s : Answers) : Prop where
  service : dnsHostnamesEnabled js = true → ServiceReady js s
  claims : ∀ policy ∈ js.spec.volumeClaimPolicies, ∀ template ∈ policy.templates,
    ClaimReady js policy template s
  scheduling : schedulingConfigured env js = true → SchedulingReady js s

section Prefixes

variable {env : Env} {js : JobSet} {s s' : Answers}

theorem ServiceReady.mono (h : ServiceReady js s) (hs : s <+: s') : ServiceReady js s' := by
  rcases h with ⟨service, hname, hselector, hports, hmem⟩ | ⟨controlled, ports, hmem, hupdated⟩
  · exact Or.inl ⟨service, hname, hselector, hports, hs.subset hmem⟩
  · refine Or.inr ⟨controlled, ports, hs.subset hmem, fun hc hne => ?_⟩
    exact hs.subset (hupdated hc hne)

theorem ClaimReady.mono {policy : VolumeClaimPolicy} {template : PersistentVolumeClaim}
    (h : ClaimReady js policy template s) (hs : s <+: s') : ClaimReady js policy template s' :=
  h.imp (fun hmem => hs.subset hmem) fun hmem => hs.subset hmem

theorem SchedulingReady.mono (h : SchedulingReady js s) (hs : s <+: s') : SchedulingReady js s' := by
  unfold SchedulingReady at h ⊢
  split_ifs at h ⊢
  · exact hs.subset h
  · exact h.trans hs.sublist

theorem Provided.mono (h : Provided env js s) (hs : s <+: s') : Provided env js s' :=
  ⟨fun hdns => (h.service hdns).mono hs, fun policy hp t ht => (h.claims policy hp t ht).mono hs,
    fun hc => (h.scheduling hc).mono hs⟩

/-- The status does not matter. -/
theorem Provided.of_status {status : JobSetStatus} (h : Provided env { js with status := status } s) :
    Provided env js s :=
  ⟨h.service, h.claims, h.scheduling⟩

end Prefixes

/-! ## Parts that touch no Job -/

section Untouching

variable {α β : Type} {P : Answers → Prop} {s : Answers}

/-- The program neither creates nor changes a Job. -/
def Untouching (p : Prog α) : Prop :=
  Follows (fun (_ : Unit) r => ¬ Request.touchesJob r) (fun _ _ _ => ()) (fun _ _ => True) () p

theorem Untouching.bind {p : Prog α} {f : α → Prog β} (hp : Untouching p)
    (hf : ∀ a, Untouching (f a)) : Untouching (p >>= f) :=
  Follows.bind hp fun _ a _ => hf a

theorem Quiet.untouching {p : Prog α} (h : Quiet p) : Untouching p := by
  apply Follows.mono h
  · intro _ r hr
    cases r with
    | createJob job => exact hr.elim
    | patchScaling job => exact hr.elim
    | updateJobStatus job => exact hr.elim
    | updateJob job => exact hr.elim
    | _ => exact not_false
  · exact fun _ _ h => h

theorem untouching_deleteJobs (jobs : List Job) : Untouching (deleteJobs jobs) := by
  have hloop : Untouching (deleteJobsLoop jobs) := by
    induction jobs with
    | nil => exact trivial
    | cons job rest ih =>
      unfold deleteJobsLoop
      split_ifs
      · exact ih
      · exact ⟨not_false, fun outcome => ih.bind fun _ => trivial⟩
  exact hloop.bind fun errs => (quiet_joinErrors errs).untouching

theorem untouching_executeSuccessPolicy (successful : List Job) (p : Pass) :
    Untouching (executeSuccessPolicy successful p) := by
  unfold executeSuccessPolicy
  split_ifs
  · exact trivial
  · apply Untouching.bind (quiet_liftExcept _).untouching
    intro completed
    split_ifs
    · exact ⟨not_false, fun _ => trivial⟩
    · exact trivial

theorem untouching_reconcileExpired (owned : ChildJobs) (p : Pass) :
    Untouching (reconcileExpired owned p) := by
  unfold reconcileExpired
  apply (untouching_executeSuccessPolicy _ _).bind
  intro completed
  cases completed with
  | some p' => exact trivial
  | none =>
    apply (untouching_deleteJobs owned.active).bind
    exact fun _ => ⟨not_false, fun _ => trivial⟩

theorem untouching_reconcileFailed (env : Env) (failed : List Job) (p : Pass) :
    Untouching (reconcileFailed env failed p) := by
  unfold reconcileFailed
  refine ⟨not_false, fun now => ?_⟩
  apply Untouching.bind (quiet_liftExcept _).untouching
  exact fun _ => ⟨not_false, fun _ => trivial⟩

theorem untouching_reconcileFinished (env : Env) (owned : ChildJobs) (p : Pass) :
    Untouching (reconcileFinished env owned p) := by
  unfold reconcileFinished
  apply (untouching_deleteJobs owned.active).bind
  intro _
  split_ifs
  · refine ⟨not_false, fun outcome => ?_⟩
    apply Untouching.bind (quiet_liftExcept _).untouching
    intro _
    exact (quiet_requeueFinished p.js).untouching.bind fun _ => trivial
  · exact (quiet_requeueFinished p.js).untouching.bind fun _ => trivial

theorem untouching_updateJobSetStatus (p : Pass) : Untouching (updateJobSetStatus p) := by
  unfold updateJobSetStatus
  apply (quiet_countMetrics p.metrics).untouching.bind
  intro _
  split_ifs
  · refine ⟨not_false, fun outcome => ?_⟩
    apply Untouching.bind (quiet_liftExcept _).untouching
    exact fun _ => (quiet_emitEvents p.opts.events).untouching
  · exact trivial

/-- Jobs are touched with everything in place; what is returned meets `Q`. -/
abbrev Prepared (P : Answers → Prop) (Q : Answers → α → Prop) (s : Answers) (p : Prog α) : Prop :=
  After Request.touchesJob P Q s p

theorem Untouching.prepared {p : Prog α} (h : Untouching p) (s : Answers) :
    Prepared P (fun s' _ => s <+: s') s p :=
  (after_of_unwatched (Q := fun _ => True) h).mono fun _ _ hs => hs.1

/-- One call that touches no Job. -/
theorem prepared_send {r : Request} {f : r.Response → Prog α} {Q : Answers → α → Prop}
    (hr : ¬ r.touchesJob) (hf : ∀ x, Prepared P Q (record s r x) (f x)) :
    Prepared P Q s (send r >>= f) :=
  ⟨fun h => absurd h hr, hf⟩

theorem prepared_readClock {f : Time → Prog α} {Q : Answers → α → Prop}
    (hf : ∀ now, Prepared P Q (record s .now now) (f now)) : Prepared P Q s (readClock >>= f) :=
  prepared_send not_false hf

end Untouching

/-! ## Services, claims and scheduling objects -/

section Resources

variable {P : Answers → Prop} {s : Answers}

theorem prefix_record (s : Answers) (r : Request) (x : r.Response) : s <+: record s r x :=
  List.prefix_append _ _

theorem mem_record (s : Answers) (r : Request) (x : r.Response) : ⟨r, x⟩ ∈ record s r x :=
  List.mem_append_right _ List.mem_cons_self

theorem prepared_createHeadlessSvcIfNecessary (js : JobSet) :
    Prepared P (fun s' _ => s <+: s' ∧ (dnsHostnamesEnabled js = true → ServiceReady js s')) s
      (createHeadlessSvcIfNecessary js) := by
  unfold createHeadlessSvcIfNecessary
  split_ifs with hdns
  · refine ⟨List.prefix_refl s, fun h => ?_⟩
    rw [h] at hdns
    cases hdns
  · apply prepared_send
    · exact not_false
    intro lookup
    have hs := prefix_record s (.getService (getSubdomain js)) lookup
    have hfound := mem_record s (.getService (getSubdomain js)) lookup
    cases lookup with
    | failed err => exact trivial
    | notFound =>
      apply prepared_send
      · exact not_false
      intro outcome
      cases outcome with
      | error err => exact ⟨fun h => h.elim, fun _ => trivial⟩
      | ok _ =>
        refine ⟨hs.trans (prefix_record _ _ _), fun _ => Or.inl ⟨⟨getSubdomain js, js.name,
          (js.spec.network.bind (·.publishNotReadyAddresses)).getD true, headlessSvcPorts js⟩,
          rfl, rfl, rfl, ?_⟩⟩
        exact mem_record _ _ _
    | found controlled ports =>
      dsimp only
      split_ifs with hneed
      · apply prepared_send
        · exact not_false
        intro outcome
        cases outcome with
        | error err => exact trivial
        | ok _ =>
          refine ⟨hs.trans (prefix_record _ _ _), fun _ => Or.inr ⟨controlled, ports, ?_, ?_⟩⟩
          · exact (prefix_record _ _ _).subset hfound
          · exact fun _ _ => mem_record _ _ _
      · refine ⟨hs, fun _ => Or.inr ⟨controlled, ports, hfound, fun hc hne => ?_⟩⟩
        exact absurd ⟨hc, hne⟩ hneed

/-- All claims of a policy are there unless there was an error. -/
theorem prepared_createPVCsIfNecessary (js : JobSet) (policy : VolumeClaimPolicy)
    (templates : List PersistentVolumeClaim) :
    Prepared P (fun s' outcome => s <+: s' ∧
      (outcome = .ok () → ∀ template ∈ templates, ClaimReady js policy template s')) s
      (createPVCsIfNecessary js policy templates) := by
  induction templates generalizing s with
  | nil => exact ⟨List.prefix_refl s, fun _ t ht => by cases ht⟩
  | cons template rest ih =>
    unfold createPVCsIfNecessary
    apply prepared_send
    · exact not_false
    intro result
    have hs := prefix_record s (.createClaim (claimRequest js policy template)) result
    have hmem := mem_record s (.createClaim (claimRequest js policy template)) result
    have hrest : ClaimReady js policy template
        (record s (.createClaim (claimRequest js policy template)) result) →
        Prepared P (fun s' outcome => s <+: s' ∧
          (outcome = .ok () → ∀ t ∈ template :: rest, ClaimReady js policy t s'))
          (record s (.createClaim (claimRequest js policy template)) result)
          (createPVCsIfNecessary js policy rest) := by
      intro hready
      apply ih.mono
      rintro s' outcome ⟨hs', hclaims⟩
      refine ⟨hs.trans hs', fun hok t ht => ?_⟩
      rcases List.mem_cons.mp ht with rfl | htail
      · exact hready.mono hs'
      · exact hclaims hok t htail
    cases result with
    | failed err =>
      refine ⟨fun h => h.elim, fun _ => ⟨hs.trans (prefix_record _ _ _), fun hok => ?_⟩⟩
      cases hok
    | created => exact hrest (Or.inl hmem)
    | alreadyExists => exact hrest (Or.inr hmem)

theorem prepared_reconcileVolumeClaimPolicies (js : JobSet) :
    Prepared P (fun s' _ => s <+: s' ∧ ∀ policy ∈ js.spec.volumeClaimPolicies,
      ∀ template ∈ policy.templates, ClaimReady js policy template s') s
      (reconcileVolumeClaimPolicies js) := by
  have hloop : ∀ policies (s : Answers), Prepared P (fun s' errs => s <+: s' ∧ (errs = [] →
      ∀ policy ∈ policies, ∀ template ∈ policy.templates, ClaimReady js policy template s')) s
      (reconcileClaimsLoop js policies) := by
    intro policies
    induction policies with
    | nil => exact fun s => ⟨List.prefix_refl s, fun _ policy hp => by cases hp⟩
    | cons policy rest ih =>
      intro s
      unfold reconcileClaimsLoop
      apply After.bind (prepared_createPVCsIfNecessary js policy policy.templates)
      rintro s₁ outcome ⟨hs₁, hpolicy⟩
      apply After.bind (ih s₁)
      rintro s₂ errs ⟨hs₂, hrest⟩
      refine ⟨hs₁.trans hs₂, fun hnone policy' hp t ht => ?_⟩
      cases outcome with
      | error err => cases hnone
      | ok _ =>
        rcases List.mem_cons.mp hp with rfl | htail
        · exact (hpolicy rfl t ht).mono hs₂
        · exact hrest hnone policy' htail t ht
  unfold reconcileVolumeClaimPolicies
  apply After.bind (hloop _ s)
  rintro s₁ errs ⟨hs₁, hclaims⟩
  unfold joinErrors
  split_ifs with hnone
  · exact ⟨hs₁, hclaims hnone⟩
  · exact trivial

/-- A failure is reported and ends the reconcile. -/
theorem prepared_schedulingOutcome {α : Type} (outcome : Except String α) :
    Prepared P (fun s' a => s' = s ∧ outcome = .ok a) s (schedulingOutcome outcome) := by
  cases outcome with
  | ok a => exact ⟨rfl, rfl⟩
  | error err => exact ⟨fun h => h.elim, fun _ => trivial⟩

theorem prepared_reconcileScheduling (env : Env) (js : JobSet) :
    Prepared P (fun s' goOn => s <+: s' ∧
      (goOn = true → schedulingConfigured env js = true → SchedulingReady js s')) s
      (reconcileScheduling env js) := by
  unfold reconcileScheduling
  split_ifs with hnot hsuspended
  · refine ⟨List.prefix_refl s, fun _ hc => ?_⟩
    rw [hc] at hnot
    cases hnot
  · apply prepared_send
    · exact not_false
    intro outcome
    apply After.bind (prepared_schedulingOutcome outcome)
    rintro s₁ _ ⟨rfl, rfl⟩
    refine ⟨prefix_record _ _ _, fun _ _ => ?_⟩
    unfold SchedulingReady
    rw [if_pos hsuspended]
    exact mem_record _ _ _
  · apply prepared_send
    · exact not_false
    intro outcome
    apply After.bind (prepared_schedulingOutcome outcome)
    rintro s₁ _ ⟨rfl, rfl⟩
    apply prepared_send
    · exact not_false
    intro ready
    apply (prepared_schedulingOutcome ready).mono
    rintro s₂ goOn ⟨rfl, rfl⟩
    refine ⟨(prefix_record _ _ _).trans (prefix_record _ _ _), fun hgo _ => ?_⟩
    subst hgo
    unfold SchedulingReady record
    rw [if_neg hsuspended, List.append_assoc]
    exact List.sublist_append_right s _

theorem prepared_reconcileResources (env : Env) (js : JobSet) :
    Prepared P (fun s' goOn => goOn = true → Provided env js s') s (reconcileResources env js) := by
  unfold reconcileResources
  apply After.bind (prepared_createHeadlessSvcIfNecessary js)
  rintro s₁ _ ⟨-, hservice⟩
  split_ifs with hclaims
  · apply After.bind (prepared_reconcileVolumeClaimPolicies js)
    rintro s₂ _ ⟨hs₂, hready⟩
    apply (prepared_reconcileScheduling env js).mono
    rintro s₃ goOn ⟨hs₃, hscheduling⟩ hgo
    refine ⟨fun hdns => ((hservice hdns).mono hs₂).mono hs₃, fun policy hp t ht => ?_,
      hscheduling hgo⟩
    exact (hready policy hp t ht).mono hs₃
  · apply (prepared_reconcileScheduling env js).mono
    rintro s₃ goOn ⟨hs₃, hscheduling⟩ hgo
    refine ⟨fun hdns => (hservice hdns).mono hs₃, fun policy hp => ?_, hscheduling hgo⟩
    rw [not_not.mp hclaims] at hp
    cases hp

end Resources

/-! ## The reconcile -/

section Stages

variable {env : Env} {js : JobSet} {jobs : List Job} {owned : ChildJobs} {p : Pass} {s : Answers}

theorem prepared_reconcileRunning (hu : Undecided env js jobs owned p)
    (statuses : List ReplicatedJobStatus) (requeueAfter : ℤ) :
    Prepared (Provided env js) (fun _ _ => True) s
      (reconcileRunning env owned statuses requeueAfter p) := by
  unfold reconcileRunning
  apply After.bind (prepared_reconcileResources env p.js)
  intro s₁ goOn hready
  cases goOn with
  | false => exact trivial
  | true =>
    have hprovided : Provided env js s₁ := by
      obtain ⟨conditions, startTime, hjs⟩ := hu.passed.js
      have h := hready rfl
      rw [hjs] at h
      exact h.of_status
    apply (after_of_shown (fun _ _ hs h => h.mono hs) hprovided _).mono
    exact fun _ _ _ => trivial

theorem prepared_reconcilePolicies (hu : Undecided env js jobs owned p)
    (statuses : List ReplicatedJobStatus) (requeueAfter : ℤ) :
    Prepared (Provided env js) (fun _ _ => True) s
      (reconcilePolicies env owned statuses requeueAfter p) := by
  unfold reconcilePolicies
  split_ifs
  · apply ((untouching_reconcileFailed env owned.failed p).prepared s).mono
    exact fun _ _ _ => trivial
  · apply After.bind ((untouching_executeSuccessPolicy owned.successful p).prepared s)
    intro s₁ completed _
    cases completed with
    | some p' => exact trivial
    | none => exact prepared_reconcileRunning hu statuses requeueAfter

theorem prepared_reconcileUnfinished (hlive : Live env js jobs owned)
    (hun : jobSetFinished js = false) :
    Prepared (Provided env js) (fun _ _ => True) s
      (reconcileUnfinished env owned (calculateReplicatedJobStatuses env.gates js owned)
        (entryPass env js owned)) := by
  unfold reconcileUnfinished
  apply After.bind ((untouching_deleteJobs owned.previous).prepared s)
  intro s₁ _ _
  apply prepared_readClock
  intro now
  apply prepared_readClock
  intro now'
  apply prepared_readClock
  intro now''
  have hu : Undecided env js jobs owned (syncActiveDeadlineStartTime env.gates now'
      (clearRestarting (calculateReplicatedJobStatuses env.gates js owned) now
        (entryPass env js owned))) := ⟨hlive, hun, now, now', rfl⟩
  split
  · split_ifs
    · apply ((untouching_reconcileExpired owned _).prepared _).mono
      exact fun _ _ _ => trivial
    · exact prepared_reconcilePolicies hu _ _
  · exact prepared_reconcilePolicies hu _ _

theorem prepared_reconcile (hdel : jobSetMarkedForDeletion js = false) :
    Prepared (Provided env js) (fun _ _ => True) s (reconcile env js jobs) := by
  unfold reconcile
  by_cases hm : (managedByExternalController js).isSome = true
  · rw [if_pos hm]
    split_ifs
    · apply After.bind ((quiet_requeueFinished js).untouching.prepared s)
      exact fun _ _ _ => trivial
    · exact trivial
  · rw [if_neg hm]
    cases hsorted : getChildJobs env.gates js jobs with
    | error err => exact trivial
    | ok owned =>
      have hlive : Live env js jobs owned := ⟨hdel, by simpa using hm, hsorted⟩
      have hfinished : jobSetFinished (entryPass env js owned).js = jobSetFinished js := by
        rw [entryPass_js]
        rfl
      change Prepared _ _ _ (if jobSetFinished (entryPass env js owned).js then _ else _)
      rw [hfinished]
      split_ifs with hfin
      · apply ((untouching_reconcileFinished env owned _).prepared s).mono
        exact fun _ _ _ => trivial
      · exact prepared_reconcileUnfinished hlive (by simpa using hfin)

theorem prepared_reconcileRequest (env : Env) (js : JobSet) (jobs : List Job) :
    Prepared (Provided env js) (fun _ _ => True) [] (reconcileRequest env js jobs) := by
  unfold reconcileRequest
  split_ifs with hdel
  · exact trivial
  · apply After.bind (prepared_reconcile (by simpa using hdel))
    rintro s₁ ⟨p, requeueAfter⟩ -
    apply After.bind ((untouching_updateJobSetStatus p).prepared s₁)
    exact fun _ _ _ => trivial

end Stages

/-! ## Volumes of new Jobs -/

theorem addVolumes_mem {js : JobSet} {template : PodTemplateSpec} {v : Volume}
    (hv : v ∈ (addVolumes js template).volumes) : v ∈ template.volumes ∨
      ∃ policy ∈ js.spec.volumeClaimPolicies, ∃ t ∈ policy.templates,
        v = ⟨t.name, some (generatePVCName js.name t.name), ""⟩ := by
  unfold addVolumes at hv
  rcases List.mem_append.mp hv with hold | hnew
  · exact Or.inl hold
  · obtain ⟨t, ht, rfl⟩ := List.mem_map.mp hnew
    obtain ⟨policy, hpolicy, hmem⟩ := List.mem_flatMap.mp (List.mem_filter.mp ht).1
    exact Or.inr ⟨policy, hpolicy, t, hmem, rfl⟩

/-- The volumes of a new Job are those of its template, and claims of the JobSet. -/
theorem constructJob_volumes {platform : Platform} {gates : FeatureGates} {js : JobSet}
    {rjob : ReplicatedJob} {jobIdx : ℕ} {job : Job}
    (h : constructJob platform gates js rjob jobIdx = .ok job) {v : Volume}
    (hv : v ∈ job.spec.template.volumes) : v ∈ rjob.template.spec.template.volumes ∨
      ∃ policy ∈ js.spec.volumeClaimPolicies, ∃ t ∈ policy.templates,
        v = ⟨t.name, some (generatePVCName js.name t.name), ""⟩ := by
  unfold constructJob at h
  cases hi : individualRestarts gates js rjob jobIdx with
  | error e => simp [hi, Bind.bind, Except.bind] at h
  | ok individual =>
    simp only [hi, Bind.bind, Except.bind, pure, Except.pure, Except.ok.injEq] at h
    subst h
    dsimp only at hv
    unfold constructPodTemplate at hv
    dsimp only at hv
    generalize schedulingGroup platform gates js rjob jobIdx = group at hv
    have hplain : ∀ template : PodTemplateSpec,
        template.volumes = rjob.template.spec.template.volumes →
        v ∈ (if js.spec.volumeClaimPolicies ≠ [] then addVolumes js template
          else template).volumes → v ∈ rjob.template.spec.template.volumes ∨
            ∃ policy ∈ js.spec.volumeClaimPolicies, ∃ t ∈ policy.templates,
              v = ⟨t.name, some (generatePVCName js.name t.name), ""⟩ := by
      intro template hsame hmem
      split_ifs at hmem
      · exact (addVolumes_mem hmem).imp (fun hold => hsame ▸ hold) id
      · exact Or.inl (hsame ▸ hmem)
    cases group with
    | none =>
      apply hplain _ _ hv
      split_ifs <;> rfl
    | some group =>
      apply hplain _ _ hv
      split_ifs <;> rfl

theorem activePass_name {env : Env} {js : JobSet} {owned : ChildJobs} {p : Pass}
    (h : ActivePass env js owned p) : p.js.name = js.name := by
  obtain ⟨_, _, hjs⟩ := h.js
  rw [hjs]

theorem attemptsStep_name {env : Env} {owned : ChildJobs} {active : List Job} {p q : Pass}
    {acked : Option JobSet} (h : AttemptsStep env owned active p acked q) :
    q.js.name = p.js.name := by
  cases h <;> rfl

/-- The claims a new Job mounts were confirmed. -/
def Mounted (js : JobSet) (s : Answers) (job : Job) : Prop :=
  ∃ rjob ∈ js.spec.replicatedJobs, ∀ v ∈ job.spec.template.volumes,
    v ∈ rjob.template.spec.template.volumes ∨
    ∃ policy ∈ js.spec.volumeClaimPolicies, ∃ template ∈ policy.templates,
      v.claimName = some (claimRequest js policy template).name ∧ ClaimReady js policy template s

theorem Creates.mounted {env : Env} {js : JobSet} {jobs : List Job} {seen : Seen} {job : Job}
    (h : Creates env js jobs seen job) {s : Answers} (hs : Provided env js s) :
    Mounted js s job := by
  obtain ⟨owned, active, p, q, rjob, created, hr, hturn, hcreated, hjob⟩ := h
  obtain ⟨jobIdx, -, hconstructed, -⟩ := constructJobsFromTemplate_mem hcreated hjob
  have hrjob : rjob ∈ js.spec.replicatedJobs := by
    obtain ⟨before, after, hsplit, -⟩ := hturn
    rw [hsplit]
    exact List.mem_append_right _ List.mem_cons_self
  have hname : q.js.name = js.name :=
    (attemptsStep_name hr.attempts).trans (activePass_name hr.passed)
  refine ⟨rjob, hrjob, fun v hv => ?_⟩
  rcases constructJob_volumes hconstructed hv with hold | ⟨policy, hpolicy, t, ht, rfl⟩
  · exact Or.inl hold
  · rw [hr.spec] at hpolicy
    refine Or.inr ⟨policy, hpolicy, t, ht, ?_, hs.claims policy hpolicy t ht⟩
    rw [hname]
    rfl

/-- **Prerequisites first.** On every path of a reconcile, a call that creates or changes a Job
comes after answers that have shown the headless service, every claim and the scheduling objects
to be there, and a new Job mounts no claim of the JobSet but those. -/
theorem jobs_after_prerequisites (env : Env) (js : JobSet) (jobs : List Job)
    {A : (r : Request) → r.Response → Prop} {t : Answers} {res : Except String ℤ}
    (hpath : Path A (reconcileRequest env js jobs) t res) {t₁ t₂ : Answers} {r : Request}
    {x : r.Response} (ht : t = t₁ ++ ⟨r, x⟩ :: t₂) (hr : r.touchesJob) :
    Provided env js t₁ ∧ ∀ job, r = .createJob job → Mounted js t₁ job := by
  have hprovided : Provided env js t₁ := (prepared_reconcileRequest env js jobs).of_path hpath ht hr
  refine ⟨hprovided, ?_⟩
  rintro job rfl
  have hcalls := (reconcileRequest_follows env js jobs).of_path hpath ht
  exact Creates.mounted hcalls hprovided

/-! ## A JobSet with a claim -/

/-- Every call succeeds. -/
def usualAnswer : (r : Request) → r.Response
  | .now => (0 : ℤ)
  | .listPods => Except.ok []
  | .getService _ => ServiceLookup.notFound
  | .createService _ => Except.ok ()
  | .updateServicePorts _ => Except.ok ()
  | .createClaim _ => ClaimCreation.created
  | .deleteSchedulingObjects => Except.ok ()
  | .reconcileSchedulingObjects => Except.ok ()
  | .schedulingObjectsReady => Except.ok true
  | .createJob _ => Except.ok ()
  | .deleteJob _ => Except.ok ()
  | .patchScaling job => Except.ok job
  | .updateJobStatus job => Except.ok (job.resourceVersion + 1)
  | .updateJob _ => Except.ok ()
  | .updateStatus _ => Except.ok ()
  | .deleteJobSet _ => Except.ok ()
  | .emitEvent _ => ()
  | .countMetric _ => ()

/-- One Job with DNS hostnames, whose container mounts a claim of the JobSet. -/
def claimSet : JobSet :=
  let rjob := ReplicatedJob.single "w" 1
  let template := { rjob.template.spec.template with containers := [⟨"c", [], ["data"], ""⟩] }
  let js := plainSet [{ rjob with
    template := { rjob.template with spec := { rjob.template.spec with template := template } } }]
    0 .recreate
  { js with spec := { js.spec with
    network := some ⟨some true, "", none⟩
    volumeClaimPolicies := [⟨[⟨"data", ∅, ∅, ""⟩], none⟩] } }

/-- The call creates a Job that mounts the claim. -/
def createsWithClaim : Request → Bool
  | .createJob job => job.spec.template.volumes = [⟨"data", some "data-js", ""⟩]
  | _ => false

/-- The Job is created with its claim, after service and claim. -/
theorem jobs_after_prerequisites_claim :
    ∃ t₁ t₂ job x res,
      Path (fun _ _ => True) (reconcileRequest (plainEnv restartJobGates) claimSet [])
        (t₁ ++ ⟨.createJob job, x⟩ :: t₂) res ∧
      job.spec.template.volumes = [⟨"data", some "data-js", ""⟩] ∧
      Provided (plainEnv restartJobGates) claimSet t₁ ∧ Mounted claimSet t₁ job := by
  have hpath : Path (fun _ _ => True) (reconcileRequest (plainEnv restartJobGates) claimSet [])
      (run usualAnswer (reconcileRequest (plainEnv restartJobGates) claimSet [])).1
      (run usualAnswer (reconcileRequest (plainEnv restartJobGates) claimSet [])).2 :=
    path_run (fun _ => trivial) _
  have hcreated : (run usualAnswer (reconcileRequest (plainEnv restartJobGates) claimSet [])).1.any
      (fun e => createsWithClaim e.1) = true := by decide +kernel
  obtain ⟨⟨r, x⟩, hmem, hcreates⟩ := List.any_eq_true.mp hcreated
  cases r with
  | createJob job =>
    obtain ⟨t₁, t₂, ht⟩ := List.append_of_mem hmem
    have hvolumes : job.spec.template.volumes = [⟨"data", some "data-js", ""⟩] :=
      of_decide_eq_true hcreates
    obtain ⟨hprovided, hmounted⟩ := jobs_after_prerequisites _ _ _ hpath ht trivial
    exact ⟨t₁, t₂, job, x, _, ht ▸ hpath, hvolumes, hprovided, hmounted job rfl⟩
  | _ => cases hcreates

end JobSetOperator
