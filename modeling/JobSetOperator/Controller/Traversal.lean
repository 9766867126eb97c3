import JobSetOperator.Controller.Discipline

/-!
# Every path through `Reconcile`

Each function of a reconcile is traversed once, in the order of the source. The
result, `reconcileRequest_follows`, holds whatever the API answers; everything
proved about whole runs starts from it.
-/
namespace JobSetOperator

open Library Library.Program

section Traversal

variable {env : Env} {js : JobSet} {jobs : List Job} {s : Seen} {α : Type}

theorem Quiet.follows {prog : Prog α} {Q : Seen → α → Prop} (h : Quiet prog) (hQ : ∀ a, Q s a) :
    Follows (Calls env js jobs) Seen.next Q s prog := by
  induction prog with
  | done a => exact hQ a
  | fail e => exact trivial
  | call r k ih =>
    obtain ⟨hr, hk⟩ := h
    have hcall : Calls env js jobs s r := by cases r <;> first | exact trivial | exact hr.elim
    have hnext : ∀ x, s.next r x = s := by cases r <;> first | exact hr.elim | exact fun _ => rfl
    refine ⟨hcall, fun x => ?_⟩
    rw [hnext x]
    exact ih x (hk x)

/-- A value that is computed and then used. -/
theorem follows_liftExcept {e : Except String α} {Q : Seen → α → Prop}
    (hQ : ∀ a, e = .ok a → Q s a) : Follows (Calls env js jobs) Seen.next Q s (liftExcept e) := by
  cases e with
  | ok a => exact hQ a rfl
  | error err => exact trivial

/-- One call and what follows its answer. -/
theorem follows_send {r : Request} {f : r.Response → Prog α} {Q : Seen → α → Prop}
    (hr : Calls env js jobs s r)
    (hf : ∀ x, Follows (Calls env js jobs) Seen.next Q (s.next r x) (f x)) :
    Follows (Calls env js jobs) Seen.next Q s (send r >>= f) := ⟨hr, hf⟩

theorem follows_readClock {Q : Seen → Time → Prop} (hQ : ∀ now, Q s now) :
    Follows (Calls env js jobs) Seen.next Q s readClock :=
  Quiet.follows (quiet_send trivial) hQ

theorem follows_deleteJobs {l : List Job} {Q : Seen → Unit → Prop}
    (hl : ∀ job ∈ l, job.deletionTimestamp = none → Deletes env js jobs job.name) (hQ : Q s ()) :
    Follows (Calls env js jobs) Seen.next Q s (deleteJobs l) := by
  have hloop : Follows (Calls env js jobs) Seen.next (fun s' _ => s' = s) s (deleteJobsLoop l) := by
    induction l with
    | nil => exact rfl
    | cons job rest ih =>
      have ih := ih fun j hj => hl j (List.mem_cons_of_mem job hj)
      unfold deleteJobsLoop
      split_ifs with h
      · exact ih
      · have hcall : Calls env js jobs s (.deleteJob job.name) :=
          hl job List.mem_cons_self (by simpa using h)
        refine follows_send hcall fun x => ?_
        exact Follows.bind ih fun s' _ hs => hs
  refine Follows.bind hloop fun s' errs hs => ?_
  subst hs
  exact Quiet.follows (quiet_joinErrors errs) fun _ => hQ

theorem follows_createJobs {l : List Job} {Q : Seen → Unit → Prop}
    (hl : ∀ job ∈ l, Creates env js jobs s job) (hQ : Q s ()) :
    Follows (Calls env js jobs) Seen.next Q s (createJobs l) := by
  have hloop : Follows (Calls env js jobs) Seen.next (fun s' _ => s' = s) s (createJobsLoop l) := by
    induction l with
    | nil => exact rfl
    | cons job rest ih =>
      have ih := ih fun j hj => hl j (List.mem_cons_of_mem job hj)
      have hcall : Calls env js jobs s (.createJob job) := hl job List.mem_cons_self
      refine follows_send hcall fun x => ?_
      exact Follows.bind ih fun s' _ hs => hs
  refine Follows.bind hloop fun s' errs hs => ?_
  subst hs
  by_cases he : errs = []
  · rw [if_pos he]
    exact hQ
  · rw [if_neg he]
    have hq := Quiet.bind (quiet_recordEvent ⟨eventTypeWarning, "JobCreationFailed",
      "\n".intercalate errs⟩) fun _ => quiet_joinErrors errs
    exact Quiet.follows hq fun _ => hQ

/-! ## Scaling and attempts -/

theorem follows_syncJobScalingLoop {owned : ChildJobs} {p : Pass}
    (hu : Undecided env js jobs owned p) (hf : owned.failed = []) (js' : JobSet) {l : List Job}
    (hl : l ⊆ owned.active) :
    Follows (Calls env js jobs) Seen.next (fun s' r => s.Extends s' ∧
      (r.2 = [] → Scaled s' l r.1)) s (syncJobScalingLoop js' l) := by
  induction l generalizing s with
  | nil => exact ⟨Seen.Extends.refl s, fun _ => List.Forall₂.nil⟩
  | cons job rest ih =>
    have hrest : rest ⊆ owned.active := fun j hj => hl (List.mem_cons_of_mem job hj)
    -- a Job that is left alone keeps the copy of the snapshot
    have hkeep : Follows (Calls env js jobs) Seen.next (fun s' r => s.Extends s' ∧
        (r.2 = [] → Scaled s' (job :: rest) r.1)) s
        (syncJobScalingLoop js' rest >>= fun r => pure (job :: r.1, r.2)) := by
      refine Follows.bind (ih hrest) fun s' r hr => ?_
      obtain ⟨hext, hscaled⟩ := hr
      exact ⟨hext, fun he => List.Forall₂.cons (Or.inl rfl) (hscaled he)⟩
    unfold syncJobScalingLoop
    cases desiredScaling js' job with
    | none => exact hkeep
    | some desired =>
      obtain ⟨parallelism, completions⟩ := desired
      dsimp only
      by_cases hneed : jobScalingNeedsPatch job parallelism completions = true
      · rw [if_pos hneed]
        have hcall : Calls env js jobs s (.patchScaling { job with spec := { job.spec with
            parallelism := parallelism, completions := completions } }) :=
          ⟨owned, p, hu, hf, job, hl List.mem_cons_self, parallelism, completions, rfl⟩
        refine follows_send hcall fun answer => ?_
        cases answer with
        | ok stored =>
          refine Follows.bind (ih hrest) fun s' r hr => ?_
          obtain ⟨hext, hscaled⟩ := hr
          have hin : stored ∈ s'.answers := hext.answers List.mem_cons_self
          have hext' : s.Extends s' :=
            ⟨hext.acked, fun j hj => hext.answers (List.mem_cons_of_mem stored hj)⟩
          exact ⟨hext', fun he => List.Forall₂.cons (Or.inr hin) (hscaled he)⟩
        | error e =>
          refine Follows.bind (ih hrest) fun s' r hr => ?_
          exact ⟨hr.1, fun he => by simp at he⟩
      · rw [if_neg hneed]
        exact hkeep

theorem follows_syncJobScaling {owned : ChildJobs} {p : Pass} (js' : JobSet)
    (hu : Undecided env js jobs owned p) (hf : owned.failed = []) :
    Follows (Calls env js jobs) Seen.next
      (fun s' active => s.Extends s' ∧ Scaled s' owned.active active) s
      (syncJobScaling env js' owned.active) := by
  unfold syncJobScaling
  split_ifs
  · exact ⟨Seen.Extends.refl s, List.forall₂_same.mpr fun _ _ => Or.inl rfl⟩
  · refine Follows.bind (follows_syncJobScalingLoop hu hf js' (List.Subset.refl _))
      fun s' r hr => ?_
    obtain ⟨scaled, errs⟩ := r
    obtain ⟨hext, hscaled⟩ := hr
    unfold joinErrors
    by_cases he : errs = []
    · simp only [if_pos he]
      exact ⟨hext, hscaled he⟩
    · simp only [if_neg he]
      exact trivial

theorem follows_syncExecutionAttempts {owned : ChildJobs} {active : List Job} {p : Pass}
    (hu : Undecided env js jobs owned p) (hf : owned.failed = []) (hfirst : s.acked = none)
    (hscaled : Scaled s owned.active active) :
    Follows (Calls env js jobs) Seen.next (fun s' q => Running env js jobs s' owned active p q) s
      (syncExecutionAttempts env active owned.successful owned.failed p) := by
  unfold syncExecutionAttempts
  cases hn : nextExecutionAttempts env p.js active owned.successful owned.failed with
  | none => exact ⟨hu, hf, hscaled, hfirst ▸ AttemptsStep.keep hn⟩
  | some next =>
    obtain ⟨attempts, written⟩ := next
    cases written with
    | false => exact ⟨hu, hf, hscaled, hfirst ▸ AttemptsStep.start hn⟩
    | true =>
      have hcall : Calls env js jobs s (.updateStatus (setExecutionAttempts attempts p).js) :=
        Writes.attempts hu hfirst hf hscaled hn
      refine follows_send hcall fun outcome => ?_
      cases outcome with
      | ok _ => exact ⟨hu, hf, hscaled.mono (List.Subset.refl _), AttemptsStep.resume hn⟩
      | error e => exact trivial

/-! ## The loops over the ReplicatedJobs -/

theorem addReplicas_replicaMap (front : List ReplicatedJob) (rjob : ReplicatedJob) :
    addReplicas (replicaMap front) rjob = replicaMap (front ++ [rjob]) := by
  simp [replicaMap]

theorem waited_nil (statuses : List ReplicatedJobStatus) (inOrder : Bool) :
    Waited statuses inOrder [] := by
  intro _ front r back h
  simp at h

/-- The loop goes on behind a ReplicatedJob it has passed. -/
theorem Waited.append {statuses : List ReplicatedJobStatus} {inOrder : Bool}
    {front : List ReplicatedJob} {rjob : ReplicatedJob} (h : Waited statuses inOrder front)
    (hr : inOrder = true → dependencyReachedStatus rjob (replicaMap (front ++ [rjob])) statuses =
      false ∨ replicasStarted statuses rjob = .ok true) :
    Waited statuses inOrder (front ++ [rjob]) := by
  intro hin front' r back he
  rcases List.eq_nil_or_concat back with rfl | ⟨back', last, rfl⟩
  · obtain ⟨rfl, hlast⟩ := List.append_inj' he rfl
    cases hlast
    exact hr hin
  · have he' : front ++ [rjob] = (front' ++ r :: back') ++ [last] := by simpa using he
    exact h hin front' r back' (List.append_inj' he' rfl).1

section Loops

variable {owned : ChildJobs} {active : List Job} {p q : Pass}

theorem follows_reconcileReplicatedJobsLoop (hr : Running env js jobs s owned active p q)
    (front rest : List ReplicatedJob) (hsplit : js.spec.replicatedJobs = front ++ rest)
    (hw : Waited (calculateReplicatedJobStatuses env.gates js owned) (waitsInOrder js) front) :
    Follows (Calls env js jobs) Seen.next (fun s' q₁ => s' = s ∧ StartupStep q q₁) s
      (reconcileReplicatedJobsLoop env owned (calculateReplicatedJobStatuses env.gates js owned) q
        rest (replicaMap front)) := by
  have hwait : waitsInOrder q.js = waitsInOrder js := by
    simp only [waitsInOrder, jobSetSuspended, hr.spec]
  induction rest generalizing front with
  | nil =>
    unfold reconcileReplicatedJobsLoop
    split_ifs
    · rw [follows_bind]
      exact follows_readClock fun now => ⟨rfl, Or.inr ⟨now, Or.inl rfl⟩⟩
    · exact ⟨rfl, Or.inl rfl⟩
  | cons rjob rest ih =>
    have hsplit' : js.spec.replicatedJobs = (front ++ [rjob]) ++ rest := by simpa using hsplit
    have hon := ih (front ++ [rjob]) hsplit'
    unfold reconcileReplicatedJobsLoop
    rw [follows_bind]
    refine follows_liftExcept fun created hc => ?_
    dsimp only
    rw [addReplicas_replicaMap, hwait]
    by_cases hdep : dependencyReachedStatus rjob (replicaMap (front ++ [rjob]))
        (calculateReplicatedJobStatuses env.gates js owned) = true
    · -- what is created when it is the ReplicatedJob's turn
      have hcreates (hpending : waitsInOrder js = true → replicasStarted
          (calculateReplicatedJobStatuses env.gates js owned) rjob = .ok false) :
          ∀ job ∈ created, Creates env js jobs s job := fun job hjob =>
        ⟨owned, active, p, q, rjob, created, hr,
          ⟨front, rest, hsplit, hdep, hw, hpending⟩, hc, hjob⟩
      rw [if_neg (by simp [hdep])]
      by_cases hin : waitsInOrder js = true
      · rw [if_pos hin]
        rw [follows_bind]
        refine follows_liftExcept fun started hst => ?_
        cases started with
        | true => exact hon (hw.append fun _ => Or.inr hst)
        | false =>
          rw [if_neg (by simp), follows_bind]
          refine follows_createJobs (hcreates fun _ => hst) ?_
          rw [follows_bind]
          exact follows_readClock fun now => ⟨rfl, Or.inr ⟨now, Or.inr rfl⟩⟩
      · rw [if_neg hin]
        rw [follows_bind]
        refine follows_createJobs (hcreates fun h => absurd h hin) ?_
        exact hon (hw.append fun h => absurd h hin)
    · rw [if_pos (by simpa using hdep)]
      exact hon (hw.append fun _ => Or.inl (by simpa using hdep))

theorem follows_suspendJobs (hr : Running env js jobs s owned active p q) {q₁ : Pass}
    (hsusp : jobSetSuspended js = true) :
    Follows (Calls env js jobs) Seen.next (fun s' q₂ => s.Extends s' ∧ SuspendStep js q₁ q₂) s
      (suspendJobs active q₁) := by
  have hloop : ∀ l ⊆ active, Follows (Calls env js jobs) Seen.next (fun s' _ => s' = s) s
      (suspendJobsLoop l) := by
    intro l hl
    induction l with
    | nil => exact rfl
    | cons job rest ih =>
      have ih := ih fun j hj => hl (List.mem_cons_of_mem job hj)
      unfold suspendJobsLoop
      split_ifs with hjob
      · exact ih
      · have hcall : Calls env js jobs s
            (.updateJob { job with spec := { job.spec with suspend := some true } }) :=
          Or.inl ⟨owned, active, p, q, hr, hsusp, job, hl List.mem_cons_self,
            by simpa using hjob, rfl⟩
        refine follows_send hcall fun outcome => ?_
        rw [follows_bind]
        exact follows_liftExcept fun _ _ => ih
  refine Follows.bind (hloop active (List.Subset.refl _)) fun s' _ hs => ?_
  subst hs
  rw [follows_bind]
  exact follows_readClock fun now => ⟨Seen.Extends.refl _, now, Or.inl ⟨hsusp, rfl⟩⟩

/-- A resumed Job depends on the spec and the execution attempts only. -/
theorem resumedJob_congr {gates : FeatureGates} {js₁ js₂ : JobSet} (job : Job)
    (hspec : js₁.spec = js₂.spec)
    (hattempts : js₁.status.executionAttempts = js₂.status.executionAttempts) :
    resumedJob gates js₁ job = resumedJob gates js₂ job := by
  unfold resumedJob stampAttempt replicatedJobTemplate
  rw [hspec, hattempts]

/-- The startup order only writes conditions. -/
theorem StartupStep.conditions {q₁ : Pass} (h : StartupStep q q₁) :
    ∃ conditions, q₁.js = { q.js with status := { q.js.status with conditions := conditions } } := by
  rcases h with rfl | ⟨now, rfl | rfl⟩
  · exact ⟨_, rfl⟩
  · exact ⟨_, setCondition_js _ _ _⟩
  · exact ⟨_, setCondition_js _ _ _⟩

theorem follows_resumeJob {q₁ : Pass} {job : Job} (hres : Resumable env js jobs s q job)
    (hq : StartupStep q q₁) :
    Follows (Calls env js jobs) Seen.next (fun s' _ => s.Extends s') s
      (resumeJob env q₁.js job) := by
  have hsame : ∀ j, resumedJob env.gates q₁.js j = resumedJob env.gates q.js j := by
    intro j
    obtain ⟨conditions, hjs⟩ := hq.conditions
    rw [hjs]
    exact resumedJob_congr j rfl rfl
  unfold resumeJob
  split_ifs with hstart
  · have hcall : Calls env js jobs s (.updateJobStatus job.cleared) := ⟨q, job, hres, rfl⟩
    refine follows_send hcall fun answer => ?_
    rw [follows_bind]
    refine follows_liftExcept fun version hanswer => ?_
    subst hanswer
    have hext : s.Extends (s.next (.updateJobStatus job.cleared) (.ok version)) :=
      ⟨rfl, fun j hj => List.mem_cons_of_mem _ hj⟩
    rw [hsame]
    have hcall : Calls env js jobs (s.next (.updateJobStatus job.cleared) (.ok version))
        (.updateJob (resumedJob env.gates q.js { job.cleared with resourceVersion := version })) :=
      Or.inr ⟨q, job, hres.extends hext, Or.inr ⟨version, List.mem_cons_self, rfl⟩⟩
    refine follows_send hcall fun outcome => ?_
    exact follows_liftExcept fun _ _ => hext
  · rw [hsame]
    have hcall : Calls env js jobs s (.updateJob (resumedJob env.gates q.js job)) :=
      Or.inr ⟨q, job, hres, Or.inl ⟨by simpa using hstart, rfl⟩⟩
    refine follows_send hcall fun outcome => ?_
    exact follows_liftExcept fun _ _ => Seen.Extends.refl s

theorem follows_resumeJobsOf (hr : Running env js jobs s owned active p q) {q₁ : Pass}
    (hq : StartupStep q q₁) (hsusp : jobSetSuspended js = false) {rjob : ReplicatedJob}
    (hturn : HasTurn env js owned (inOrderStartupPolicy js.spec.startupPolicy) rjob)
    {l : List Job} (hl : l ⊆ activeJobsOf active rjob) :
    Follows (Calls env js jobs) Seen.next (fun s' _ => s.Extends s') s
      (resumeJobsOf env q₁.js l) := by
  induction l generalizing s with
  | nil => exact Seen.Extends.refl s
  | cons job rest ih =>
    have hl' : rest ⊆ activeJobsOf active rjob := fun j hj => hl (List.mem_cons_of_mem job hj)
    unfold resumeJobsOf
    by_cases hjob : jobSuspended job = true
    · rw [if_neg (by simp [hjob])]
      have hres : Resumable env js jobs s q job :=
        ⟨owned, active, p, rjob, hr, hsusp, hturn, hl List.mem_cons_self, hjob⟩
      refine Follows.bind (follows_resumeJob hres hq) fun s' _ hext => ?_
      exact (ih (hr.extends hext) hl').mono (fun _ _ h => h) fun _ _ h => hext.trans h
    · rw [if_pos (by simpa using hjob)]
      exact ih hr hl'

theorem follows_resumeJobsLoop (hr : Running env js jobs s owned active p q) {q₁ : Pass}
    (hq : StartupStep q q₁) (hsusp : jobSetSuspended js = false)
    (front rest : List ReplicatedJob) (hsplit : js.spec.replicatedJobs = front ++ rest)
    (hw : Waited (calculateReplicatedJobStatuses env.gates js owned)
      (inOrderStartupPolicy js.spec.startupPolicy) front) :
    Follows (Calls env js jobs) Seen.next (fun s' q₂ => s.Extends s' ∧ SuspendStep js q₁ q₂) s
      (resumeJobsLoop env active (calculateReplicatedJobStatuses env.gates js owned) q₁
        rest (replicaMap front)) := by
  have hspec : q₁.js.spec = js.spec := by
    obtain ⟨conditions, hjs⟩ := hq.conditions
    rw [hjs]
    exact hr.spec
  induction rest generalizing front s with
  | nil =>
    unfold resumeJobsLoop
    rw [follows_bind]
    exact follows_readClock fun now => ⟨Seen.Extends.refl s, now, Or.inr ⟨hsusp, Or.inl rfl⟩⟩
  | cons rjob rest ih =>
    have hsplit' : js.spec.replicatedJobs = (front ++ [rjob]) ++ rest := by simpa using hsplit
    have hon := fun {s' : Seen} (hr : Running env js jobs s' owned active p q) =>
      ih hr (front ++ [rjob]) hsplit'
    unfold resumeJobsLoop
    rw [addReplicas_replicaMap, hspec]
    by_cases hdep : dependencyReachedStatus rjob (replicaMap (front ++ [rjob]))
        (calculateReplicatedJobStatuses env.gates js owned) = true
    · rw [if_neg (by simp [hdep])]
      -- what is resumed when it is the ReplicatedJob's turn
      have hresume (hpending : inOrderStartupPolicy js.spec.startupPolicy = true →
          replicasStarted (calculateReplicatedJobStatuses env.gates js owned) rjob = .ok false) :=
        follows_resumeJobsOf hr hq hsusp ⟨front, rest, hsplit, hdep, hw, hpending⟩
          (List.Subset.refl (activeJobsOf active rjob))
      by_cases hin : inOrderStartupPolicy js.spec.startupPolicy = true
      · rw [if_pos hin, follows_bind]
        refine follows_liftExcept fun started hst => ?_
        cases started with
        | true => exact hon hr (hw.append fun _ => Or.inr hst)
        | false =>
          rw [if_neg (by simp)]
          refine Follows.bind (hresume fun _ => hst) fun s' _ hext => ?_
          rw [follows_bind]
          exact follows_readClock fun now => ⟨hext, now, Or.inr ⟨hsusp, Or.inr rfl⟩⟩
      · rw [if_neg hin]
        refine Follows.bind (hresume fun h => absurd h hin) fun s' _ hext => ?_
        have hrest := hon (hr.extends hext) (hw.append fun h => absurd h hin)
        exact hrest.mono (fun _ _ h => h) fun _ _ h => ⟨hext.trans h.1, h.2⟩
    · rw [if_pos (by simpa using hdep)]
      exact hon hr (hw.append fun _ => Or.inl (by simpa using hdep))

theorem follows_suspendOrResume (hr : Running env js jobs s owned active p q) {q₁ : Pass}
    (hq : StartupStep q q₁) :
    Follows (Calls env js jobs) Seen.next (fun s' q₂ => s.Extends s' ∧ SuspendStep js q₁ q₂) s
      (suspendOrResume env active (calculateReplicatedJobStatuses env.gates js owned) q₁) := by
  have hspec : q₁.js.spec = js.spec := by
    obtain ⟨conditions, hjs⟩ := hq.conditions
    rw [hjs]
    exact hr.spec
  have hsame : jobSetSuspended q₁.js = jobSetSuspended js := by
    simp only [jobSetSuspended, hspec]
  unfold suspendOrResume
  rw [hsame]
  by_cases hsusp : jobSetSuspended js = true
  · rw [if_pos hsusp]
    exact follows_suspendJobs hr hsusp
  · rw [if_neg hsusp]
    unfold resumeJobsIfNecessary
    rw [hspec]
    exact follows_resumeJobsLoop hr hq (by simpa using hsusp) [] _ rfl (waited_nil _ _)

theorem follows_reconcileInPlace {q₂ : Pass} :
    Follows (Calls env js jobs) Seen.next (fun s' q₃ => s' = s ∧ InPlaceStep q₂ q₃) s
      (reconcileInPlace env q₂) := by
  unfold reconcileInPlace
  split_ifs
  · refine follows_send trivial fun answer => ?_
    rw [follows_bind]
    refine follows_liftExcept fun pods _ => ?_
    rw [follows_bind]
    refine follows_readClock fun now => ?_
    exact follows_liftExcept fun q₃ h => ⟨rfl, Or.inr ⟨now, pods, h⟩⟩
  · exact ⟨rfl, Or.inl rfl⟩

end Loops

/-! ## The reconcile -/

section Assembly

variable {owned : ChildJobs} {p : Pass}

theorem follows_reconcileJobs (hu : Undecided env js jobs owned p) (hfirst : s.acked = none)
    (hf : owned.failed = []) (requeueAfter : ℤ) :
    Follows (Calls env js jobs) Seen.next (fun s' r => Writes env js jobs s' r.1.js) s
      (reconcileJobs env owned (calculateReplicatedJobStatuses env.gates js owned)
        requeueAfter p) := by
  unfold reconcileJobs
  refine Follows.bind (follows_syncJobScaling _ hu hf) fun s₁ active h₁ => ?_
  obtain ⟨hext, hscaled⟩ := h₁
  have hattempts := follows_syncExecutionAttempts hu hf (hext.acked.trans hfirst) hscaled
  refine Follows.bind hattempts fun s₂ q hr => ?_
  have hcreate : Follows (Calls env js jobs) Seen.next (fun s' q₁ => s' = s₂ ∧ StartupStep q q₁)
      s₂ (reconcileReplicatedJobs env owned
        (calculateReplicatedJobStatuses env.gates js owned) q) := by
    unfold reconcileReplicatedJobs
    rw [hr.spec]
    exact follows_reconcileReplicatedJobsLoop hr [] _ rfl (waited_nil _ _)
  refine Follows.bind hcreate fun s₃ q₁ h₃ => ?_
  obtain ⟨rfl, hstartup⟩ := h₃
  refine Follows.bind (follows_suspendOrResume hr hstartup) fun s₄ q₂ h₄ => ?_
  obtain ⟨hext, hsuspend⟩ := h₄
  refine Follows.bind follows_reconcileInPlace fun s₅ q₃ h₅ => ?_
  obtain ⟨rfl, hinPlace⟩ := h₅
  exact Writes.running (hr.extends hext) hstartup hsuspend hinPlace

theorem follows_reconcileRunning (hu : Undecided env js jobs owned p) (hfirst : s.acked = none)
    (hf : owned.failed = []) (requeueAfter : ℤ) :
    Follows (Calls env js jobs) Seen.next (fun s' r => Writes env js jobs s' r.1.js) s
      (reconcileRunning env owned (calculateReplicatedJobStatuses env.gates js owned)
        requeueAfter p) := by
  unfold reconcileRunning
  rw [follows_bind]
  refine Quiet.follows (quiet_reconcileResources env p.js) fun goOn => ?_
  split_ifs with hgo hstale
  · exact Writes.waiting hu hfirst
  · have hstale' : staleSchedulingJobs env js owned.active = true := by
      obtain ⟨_, _, hjs⟩ := hu.passed.js
      rw [hjs] at hstale
      exact hstale
    rw [follows_bind]
    refine follows_deleteJobs (fun job hjob hdel => ?_) (Writes.waiting hu hfirst)
    exact ⟨owned, hu.toLive, job, rfl, hdel,
      Or.inr (Or.inr ⟨p, hu, hjob, Or.inr ⟨hf, hstale'⟩⟩)⟩
  · exact follows_reconcileJobs hu hfirst hf requeueAfter

theorem follows_executeSuccessPolicy (hu : Undecided env js jobs owned p)
    (hfirst : s.acked = none) :
    Follows (Calls env js jobs) Seen.next
      (fun s' r => s' = s ∧ ∀ p', r = some p' → Writes env js jobs s p'.js) s
      (executeSuccessPolicy owned.successful p) := by
  unfold executeSuccessPolicy
  by_cases hs : owned.successful = []
  · rw [if_pos hs]
    exact ⟨rfl, by simp⟩
  · rw [if_neg hs, follows_bind]
    refine follows_liftExcept fun completed hmet => ?_
    cases completed with
    | true =>
      rw [if_pos rfl, follows_bind]
      refine follows_readClock fun now => ⟨rfl, fun p' hp' => ?_⟩
      cases hp'
      exact Writes.completed hu hfirst now hs hmet
    | false => exact ⟨rfl, by simp⟩

theorem follows_reconcileExpired (hu : Undecided env js jobs owned p) (hfirst : s.acked = none)
    {now : Time} {remaining : ℤ}
    (harmed : activeDeadlineRemaining env.gates now p.js = some remaining)
    (hpassed : remaining ≤ 0) :
    Follows (Calls env js jobs) Seen.next (fun s' r => Writes env js jobs s' r.1.js) s
      (reconcileExpired owned p) := by
  unfold reconcileExpired
  refine Follows.bind (follows_executeSuccessPolicy hu hfirst) fun s' completed h => ?_
  obtain ⟨rfl, hcompleted⟩ := h
  cases completed with
  | some p' => exact hcompleted p' rfl
  | none =>
    dsimp only
    rw [follows_bind]
    refine follows_deleteJobs (fun job hjob hdel => ?_) ?_
    · exact ⟨owned, hu.toLive, job, rfl, hdel,
        Or.inr (Or.inr ⟨p, hu, hjob, Or.inl ⟨now, remaining, harmed, hpassed⟩⟩)⟩
    · rw [follows_bind]
      exact follows_readClock fun now' => Writes.expired hu hfirst now now' harmed hpassed

theorem follows_reconcilePolicies (hu : Undecided env js jobs owned p) (hfirst : s.acked = none)
    (requeueAfter : ℤ) :
    Follows (Calls env js jobs) Seen.next (fun s' r => Writes env js jobs s' r.1.js) s
      (reconcilePolicies env owned (calculateReplicatedJobStatuses env.gates js owned)
        requeueAfter p) := by
  unfold reconcilePolicies
  by_cases hf : owned.failed = []
  · rw [if_neg (by simp [hf])]
    refine Follows.bind (follows_executeSuccessPolicy hu hfirst) fun s' completed h => ?_
    obtain ⟨rfl, hcompleted⟩ := h
    cases completed with
    | some p' => exact hcompleted p' rfl
    | none => exact follows_reconcileRunning hu hfirst hf requeueAfter
  · rw [if_pos hf]
    unfold reconcileFailed
    rw [follows_bind]
    refine follows_readClock fun now => ?_
    rw [follows_bind]
    refine follows_liftExcept fun p' hp' => ?_
    rw [follows_bind]
    exact follows_readClock fun now' => Writes.failed hu hfirst now now' hf hp'

theorem follows_reconcileUnfinished (hlive : Live env js jobs owned)
    (hun : jobSetFinished js = false) (hfirst : s.acked = none) :
    Follows (Calls env js jobs) Seen.next (fun s' r => Writes env js jobs s' r.1.js) s
      (reconcileUnfinished env owned (calculateReplicatedJobStatuses env.gates js owned)
        (entryPass env js owned)) := by
  unfold reconcileUnfinished
  rw [follows_bind]
  refine follows_deleteJobs (fun job hjob hdel => ?_) ?_
  · exact ⟨owned, hlive, job, rfl, hdel, Or.inr (Or.inl ⟨hun, hjob⟩)⟩
  rw [follows_bind]
  refine follows_readClock fun now => ?_
  rw [follows_bind]
  refine follows_readClock fun now' => ?_
  rw [follows_bind]
  refine follows_readClock fun now'' => ?_
  have hu : Undecided env js jobs owned (syncActiveDeadlineStartTime env.gates now'
      (clearRestarting (calculateReplicatedJobStatuses env.gates js owned) now
        (entryPass env js owned))) := ⟨hlive, hun, now, now', rfl⟩
  split
  · rename_i remaining harmed
    split_ifs with hpassed
    · exact follows_reconcileExpired hu hfirst harmed hpassed
    · exact follows_reconcilePolicies hu hfirst remaining
  · exact follows_reconcilePolicies hu hfirst 0

theorem follows_reconcileFinished (hlive : Live env js jobs owned)
    (hfin : jobSetFinished js = true) (hfirst : s.acked = none) :
    Follows (Calls env js jobs) Seen.next (fun s' r => Writes env js jobs s' r.1.js) s
      (reconcileFinished env owned (entryPass env js owned)) := by
  unfold reconcileFinished
  rw [follows_bind]
  refine follows_deleteJobs (fun job hjob hdel => ?_) ?_
  · exact ⟨owned, hlive, job, rfl, hdel, Or.inl ⟨hfin, hjob⟩⟩
  have hrequeue : Follows (Calls env js jobs) Seen.next (fun s' r => Writes env js jobs s' r.1.js) s
      (requeueFinished (entryPass env js owned).js >>= fun requeueAfter =>
        pure (entryPass env js owned, requeueAfter)) := by
    rw [follows_bind]
    exact Quiet.follows (quiet_requeueFinished _) fun _ => Writes.finished hlive hfirst hfin
  split_ifs
  · refine follows_send trivial fun outcome => ?_
    rw [follows_bind]
    exact follows_liftExcept fun _ _ => hrequeue
  · exact hrequeue

end Assembly

theorem follows_reconcile (hdel : jobSetMarkedForDeletion js = false) (hfirst : s.acked = none) :
    Follows (Calls env js jobs) Seen.next
      (fun s' r => r.1.opts.shouldUpdate = true → Writes env js jobs s' r.1.js) s
      (reconcile env js jobs) := by
  unfold reconcile
  by_cases hm : (managedByExternalController js).isSome = true
  · rw [if_pos hm]
    split_ifs
    · rw [follows_bind]
      exact Quiet.follows (quiet_requeueFinished js) fun _ h => by simp [Pass.start] at h
    · exact fun h => by simp [Pass.start] at h
  · rw [if_neg hm, follows_bind]
    refine follows_liftExcept fun owned howned => ?_
    have hlive : Live env js jobs owned := ⟨hdel, by simpa using hm, howned⟩
    have hfinished : jobSetFinished (entryPass env js owned).js = jobSetFinished js := by
      rw [entryPass_js]
      rfl
    change Follows _ _ _ _ (if jobSetFinished (entryPass env js owned).js then _ else _)
    rw [hfinished]
    by_cases hfin : jobSetFinished js = true
    · rw [if_pos hfin]
      exact (follows_reconcileFinished hlive hfin hfirst).mono (fun _ _ h => h) fun _ _ h _ => h
    · rw [if_neg hfin]
      have hun := follows_reconcileUnfinished hlive (by simpa using hfin) hfirst
      exact hun.mono (fun _ _ h => h) fun _ _ h _ => h

/-- Every call of a reconcile, on every path and whatever the API answers, is one
of those `Calls` describes. -/
theorem reconcileRequest_follows (env : Env) (js : JobSet) (jobs : List Job) :
    Follows (Calls env js jobs) Seen.next (fun _ _ => True) Seen.none
      (reconcileRequest env js jobs) := by
  unfold reconcileRequest
  by_cases hdel : jobSetMarkedForDeletion js = true
  · rw [if_pos hdel]
    exact trivial
  · rw [if_neg hdel]
    refine Follows.bind (follows_reconcile (by simpa using hdel) rfl) fun s' r hr => ?_
    obtain ⟨p, requeueAfter⟩ := r
    dsimp only
    unfold updateJobSetStatus
    rw [follows_bind, follows_bind]
    refine Quiet.follows (quiet_countMetrics p.metrics) fun _ => ?_
    by_cases hupdate : p.opts.shouldUpdate = true
    · rw [if_pos hupdate]
      have hcall : Calls env js jobs s' (.updateStatus p.js) := hr hupdate
      refine follows_send hcall fun outcome => ?_
      rw [follows_bind]
      refine follows_liftExcept fun _ _ => ?_
      exact Quiet.follows (quiet_emitEvents _) fun _ => trivial
    · rw [if_neg hupdate]
      exact trivial

end Traversal

end JobSetOperator
