import JobSetOperator.Controller.ChildJobs

/-!
# Construction of child Jobs

`constructJob` with its labels, annotations, volumes and scheduling group, and
`constructJobsFromTemplate`, which decides which Jobs are missing. The restart
labels written here are the ones `getChildJobs` compares later. As in
`getChildJobs`, an index lookup that panics in Go is an error.
-/
namespace JobSetOperator

/-! ## Names of scheduling groups -/

def maxPodGroupNameLength := 63
def podGroupNameHashLength := 10

/-- The first bytes of a name; names are ASCII. -/
def truncateTo (n : ℕ) (s : String) : String := String.ofList (s.toList.take n)

/-- `UseTopLevelGang`. -/
def useTopLevelGang (scheduling : Option JobSetScheduling) : Bool :=
  match scheduling with
  | none => false
  | some s =>
    s.replicatedJobs.isEmpty &&
    match s.schedulingPolicy with
    | none => true
    | some policy => policy.basic.isSome || policy.gang.isSome

/-- `schedulingIdentityHash`. -/
def schedulingIdentityHash (platform : Platform) (kind inNamespace name : String) : String :=
  truncateTo podGroupNameHashLength
    (platform.sha1Hash (kind ++ "/" ++ inNamespace ++ "/" ++ name))

/-- `hashedName`. -/
def hashedName (base hash : String) : String :=
  let name := base ++ "-" ++ hash
  if name.length ≤ maxPodGroupNameLength then name
  else truncateTo (maxPodGroupNameLength - 1 - hash.length) base ++ "-" ++ hash

/-- `topLevelTemplateName`. -/
def topLevelTemplateName (platform : Platform) (js : JobSet) : String :=
  hashedName js.name (schedulingIdentityHash platform "JobSet" js.inNamespace js.name)

/-- `perRJTemplateName`. -/
def perRJTemplateName (platform : Platform) (js : JobSet) (rjobName : String) : String :=
  hashedName rjobName
    (schedulingIdentityHash platform "ReplicatedJob" js.inNamespace (js.name ++ "/" ++ rjobName))

/-- `groupTemplateName`. -/
def groupTemplateName (platform : Platform) (js : JobSet) (targets : List String) : String :=
  let group := "-".intercalate targets
  hashedName group
    (schedulingIdentityHash platform "ReplicatedJobGroup" js.inNamespace (js.name ++ "/" ++ group))

/-- `perJobTemplateName`. -/
def perJobTemplateName (platform : Platform) (js : JobSet) (rjobName : String) (jobIdx : ℤ) :
    String :=
  hashedName (rjobName ++ "-" ++ itoa jobIdx)
    (schedulingIdentityHash platform "Job" js.inNamespace
      (js.name ++ "/" ++ rjobName ++ "/" ++ itoa jobIdx))

/-- `podGroupName`. -/
def podGroupName (platform : Platform) (jobSetName templateName : String) : String :=
  let name := jobSetName ++ "-" ++ templateName
  if name.length ≤ maxPodGroupNameLength then name
  else
    let hash := truncateTo podGroupNameHashLength
      (platform.sha1Hash (jobSetName ++ "/" ++ templateName))
    truncateTo (maxPodGroupNameLength - 1 - podGroupNameHashLength) jobSetName ++ "-" ++ hash

/-- `schedulingPodGroupName`. -/
def schedulingPodGroupName (platform : Platform) (js : JobSet) (templateName : String) : String :=
  if useTopLevelGang js.spec.scheduling then templateName
  else podGroupName platform js.name templateName

/-- `schedulingGroupTemplateName`. -/
def schedulingGroupTemplateName (platform : Platform) (js : JobSet) (rjobName : String)
    (jobIdx : ℤ) : String :=
  if useTopLevelGang js.spec.scheduling then topLevelTemplateName platform js
  else
    match js.spec.scheduling.bind fun s =>
        s.replicatedJobs.find? fun policy => rjobName ∈ policy.targetReplicatedJobs with
    | some policy =>
      if policy.job.isSome then perJobTemplateName platform js rjobName jobIdx
      else groupTemplateName platform js policy.targetReplicatedJobs
    | none => perRJTemplateName platform js rjobName

/-- The check `schedulingJobsNeedRecreation` makes for one Job. A pod template
without a scheduling group says nothing: the server may have stripped it. -/
def schedulingJobNeedsRecreation (platform : Platform) (js : JobSet) (job : Job) : Bool :=
  match job.labels.lookup replicatedJobNameKey, atoi (job.labels.get jobIndexKey) with
  | some rjobName, some jobIdx =>
    let templateName := schedulingGroupTemplateName platform js rjobName jobIdx
    decide (job.annotations.get schedulingGroupTemplateNameKey ≠ templateName) ||
    match job.spec.template.schedulingGroup with
    | none => false
    | some group => decide (group ≠ some (schedulingPodGroupName platform js templateName))
  | _, _ => true

/-- `schedulingJobsNeedRecreation`. -/
def schedulingJobsNeedRecreation (platform : Platform) (js : JobSet) (jobs : List Job) : Bool :=
  jobs.any (schedulingJobNeedsRecreation platform js)

/-! ## Indexes -/

/-- The loop of `globalJobIndex` and `groupJobIndex`. -/
def jobIndexFrom (currTotalJobs : ℕ) (replicatedJobName : String) (jobIdx : ℕ) :
    List ReplicatedJob → String
  | [] => ""
  | rjob :: rest =>
    if rjob.name = replicatedJobName then itoa (currTotalJobs + jobIdx)
    else jobIndexFrom (currTotalJobs + rjob.replicas) replicatedJobName jobIdx rest

/-- `globalJobIndex`. -/
def globalJobIndex (js : JobSet) (replicatedJobName : String) (jobIdx : ℕ) : String :=
  jobIndexFrom 0 replicatedJobName jobIdx js.spec.replicatedJobs

/-- `globalReplicas`. -/
def globalReplicas (js : JobSet) : String :=
  itoa ((js.spec.replicatedJobs.map (·.replicas)).sum : ℕ)

/-- `groupJobIndex`. -/
def groupJobIndex (js : JobSet) (groupName replicatedJobName : String) (jobIdx : ℕ) : String :=
  jobIndexFrom 0 replicatedJobName jobIdx
    (js.spec.replicatedJobs.filter fun rjob => rjob.groupName = groupName)

/-- `groupReplicas`. -/
def groupReplicas (js : JobSet) (groupName : String) : String :=
  itoa (((js.spec.replicatedJobs.filter fun rjob => rjob.groupName = groupName).map
    (·.replicas)).sum : ℕ)

/-! ## Labels and annotations -/

/-- `GetSubdomain`. -/
def getSubdomain (js : JobSet) : String :=
  match js.spec.network with
  | some network => if network.subdomain ≠ "" then network.subdomain else js.name
  | none => js.name

/-- `dnsHostnamesEnabled`. -/
def dnsHostnamesEnabled (js : JobSet) : Bool :=
  match js.spec.network with
  | some network => network.enableDNSHostnames.getD false
  | none => false

/-- `CoordinatorEndpoint`. -/
def coordinatorEndpoint (js : JobSet) (c : Coordinator) : String :=
  js.name ++ "-" ++ c.replicatedJob ++ "-" ++ itoa c.jobIndex ++ "-" ++ itoa c.podIndex ++ "." ++
    getSubdomain js

/-- `jobHashKey`. -/
def jobHashKey (platform : Platform) (ns jobName : String) : String :=
  platform.sha1Hash (ns ++ "/" ++ jobName)

/-- Assignments to a map, in order. -/
def assign (m : StrMap) (entries : List (String × String)) : StrMap :=
  entries.foldl (fun m e => m.insert e.1 e.2) m

/-- The exclusive placement annotations one object hands down. -/
def exclusivePlacement (source : StrMap) : List (String × String) :=
  match source.lookup exclusiveKey with
  | none => []
  | some topologyDomain =>
    (exclusiveKey, topologyDomain) ::
      match source.lookup nodeSelectorStrategyKey with
      | some value => [(nodeSelectorStrategyKey, value)]
      | none => []

/-- The entries `labelAndAnnotateObject` writes both as labels and as
annotations. `individual` is the restart counter of the Job's own index, which
is only read with the RestartJob gate. -/
def commonEntries (platform : Platform) (gates : FeatureGates) (js : JobSet) (rjob : ReplicatedJob)
    (jobIdx individual : ℕ) : List (String × String) :=
  [(jobSetNameKey, js.name), (jobSetUIDKey, js.uid), (replicatedJobNameKey, rjob.name),
    (restartsKey, itoa js.status.restarts)] ++
  (if gates.restartJob then [(jobRestartAttemptKey, itoa individual)] else []) ++
  [(replicatedJobReplicas, itoa rjob.replicas), (globalReplicasKey, globalReplicas js),
    (jobIndexKey, itoa jobIdx),
    (jobKey, jobHashKey platform js.inNamespace (genJobName js.name rjob.name jobIdx)),
    (jobGlobalIndexKey, globalJobIndex js rjob.name jobIdx), (groupNameKey, rjob.groupName),
    (groupReplicasKey, groupReplicas js rjob.groupName),
    (jobGroupIndexKey, groupJobIndex js rjob.groupName rjob.name jobIdx)] ++
  match js.spec.coordinator with
  | some c => [(coordinatorKey, coordinatorEndpoint js c)]
  | none => []

/-- The entries only written as annotations. -/
def annotationEntries (gates : FeatureGates) (js : JobSet) (rjob : ReplicatedJob) :
    List (String × String) :=
  (match gates.executionAttemptsTracking, js.status.executionAttempts with
    | true, some attempts => [(executionAttemptsKey, itoa attempts)]
    | _, _ => []) ++
  exclusivePlacement js.annotations ++ exclusivePlacement rjob.template.annotations

/-- The counter `labelAndAnnotateObject` looks up. -/
def individualRestarts (gates : FeatureGates) (js : JobSet) (rjob : ReplicatedJob) (jobIdx : ℕ) :
    Except String ℕ :=
  if gates.restartJob then indexGo (getJobRestarts js rjob.name) jobIdx else .ok 0

/-! ## The Job -/

/-- `GeneratePVCName`. -/
def generatePVCName (jobSetName pvcTemplateName : String) : String :=
  pvcTemplateName ++ "-" ++ jobSetName

/-- `hasVolumeMount`. -/
def hasVolumeMount (template : PodTemplateSpec) (volumeMountName : String) : Bool :=
  (template.containers ++ template.initContainers).any fun c => volumeMountName ∈ c.volumeMounts

/-- `addVolumes`. -/
def addVolumes (js : JobSet) (template : PodTemplateSpec) : PodTemplateSpec :=
  let claims := (js.spec.volumeClaimPolicies.flatMap (·.templates)).filter fun t =>
    hasVolumeMount template t.name
  { template with
    volumes := template.volumes ++ claims.map fun t =>
      ⟨t.name, some (generatePVCName js.name t.name), ""⟩ }

/-- The node selector and the toleration of the node selector placement strategy. -/
def addNodeSelectorStrategy (js : JobSet) (jobName : String) (template : PodTemplateSpec) :
    PodTemplateSpec :=
  { template with
    nodeSelector := template.nodeSelector.insert namespacedJobKey (js.inNamespace ++ "_" ++ jobName)
    tolerations := template.tolerations ++ [⟨noScheduleTaintKey, "Exists", "", "NoSchedule", none⟩] }

/-- The scheduling group of a Job, when scheduling is configured: the name of its
template and of its PodGroup. -/
def schedulingGroup (platform : Platform) (gates : FeatureGates) (js : JobSet)
    (rjob : ReplicatedJob) (jobIdx : ℕ) : Option (String × String) :=
  if gates.jobSetWorkloadAwareSchedulingAPI ∧ js.spec.scheduling.isSome then
    let templateName := schedulingGroupTemplateName platform js rjob.name jobIdx
    some (templateName, schedulingPodGroupName platform js templateName)
  else none

/-- The pod template of a new Job. -/
def constructPodTemplate (platform : Platform) (gates : FeatureGates) (js : JobSet)
    (rjob : ReplicatedJob) (jobIdx individual : ℕ) (jobAnnotations : StrMap) : PodTemplateSpec :=
  let template := rjob.template.spec.template
  let common := commonEntries platform gates js rjob jobIdx individual
  let template := { template with
    labels := assign template.labels common
    annotations := assign template.annotations (common ++ annotationEntries gates js rjob)
    subdomain := if dnsHostnamesEnabled js then getSubdomain js else template.subdomain }
  let template :=
    if (jobAnnotations.lookup exclusiveKey).isSome ∧
        (jobAnnotations.lookup nodeSelectorStrategyKey).isSome then
      addNodeSelectorStrategy js (genJobName js.name rjob.name jobIdx) template
    else template
  let template := if js.spec.volumeClaimPolicies ≠ [] then addVolumes js template else template
  match schedulingGroup platform gates js rjob jobIdx with
  | some (_, pgName) => { template with schedulingGroup := some (some pgName) }
  | none => template

/-- `constructJob`. The server fills in the uid, the version and the status. -/
def constructJob (platform : Platform) (gates : FeatureGates) (js : JobSet) (rjob : ReplicatedJob)
    (jobIdx : ℕ) : Except String Job := do
  let individual ← individualRestarts gates js rjob jobIdx
  let common := commonEntries platform gates js rjob jobIdx individual
  let annotations :=
    assign rjob.template.annotations (common ++ annotationEntries gates js rjob)
  pure
    { name := genJobName js.name rjob.name jobIdx
      uid := 0
      resourceVersion := 0
      labels := assign rjob.template.labels common
      annotations :=
        match schedulingGroup platform gates js rjob jobIdx with
        | some (templateName, _) => annotations.insert schedulingGroupTemplateNameKey templateName
        | none => annotations
      deletionTimestamp := none
      spec := { rjob.template.spec with
        suspend := some (jobSetSuspended js)
        template := constructPodTemplate platform gates js rjob jobIdx individual annotations }
      status := ⟨[], 0, none, 0, none⟩ }

/-- The value the last assignment to a key leaves. -/
theorem assign_lookup (entries : List (String × String)) (m : StrMap) (key : String) :
    (assign m entries).lookup key =
      ((entries.reverse.find? fun e => e.1 = key).map (·.2)).or (m.lookup key) := by
  induction entries using List.reverseRecOn with
  | nil => simp [assign]
  | append_singleton rest e ih =>
    have hstep : assign m (rest ++ [e]) = (assign m rest).insert e.1 e.2 := by
      simp [assign]
    rw [hstep, List.reverse_append]
    by_cases hkey : e.1 = key
    · subst hkey
      simp
    · have hne : key ≠ e.1 := fun h => hkey h.symm
      simp [Finmap.lookup_insert_of_ne _ hne, hkey, ih]

/-- The entries that identify a new Job. No key is assigned twice. -/
theorem commonEntries_find (platform : Platform) (gates : FeatureGates) (js : JobSet)
    (rjob : ReplicatedJob) (jobIdx individual : ℕ) (key : String)
    (hkey : key = restartsKey ∨ key = replicatedJobNameKey ∨ key = jobIndexKey ∨
      key = jobRestartAttemptKey) :
    ((commonEntries platform gates js rjob jobIdx individual).reverse.find? fun e =>
      e.1 = key).map (·.2) =
    if key = restartsKey then some (itoa js.status.restarts)
    else if key = replicatedJobNameKey then some rjob.name
    else if key = jobIndexKey then some (itoa jobIdx)
    else if gates.restartJob then some (itoa individual) else none := by
  rcases hkey with rfl | rfl | rfl | rfl <;> cases hg : gates.restartJob <;>
    cases hc : js.spec.coordinator <;>
    simp [commonEntries, hg, hc, jobSetNameKey, jobSetUIDKey, replicatedJobNameKey, restartsKey,
      jobRestartAttemptKey, replicatedJobReplicas, globalReplicasKey, jobIndexKey, jobKey,
      jobGlobalIndexKey, groupNameKey, groupReplicasKey, jobGroupIndexKey, coordinatorKey]

/-- The labels that identify a new Job. -/
theorem constructJob_labels {platform : Platform} {gates : FeatureGates} {js : JobSet}
    {rjob : ReplicatedJob} {jobIdx : ℕ} {job : Job}
    (h : constructJob platform gates js rjob jobIdx = .ok job) :
    job.labels.lookup restartsKey = some (itoa js.status.restarts) ∧
    job.labels.lookup replicatedJobNameKey = some rjob.name ∧
    job.labels.lookup jobIndexKey = some (itoa jobIdx) ∧
    (gates.restartJob = true → ∃ n, indexGo (getJobRestarts js rjob.name) jobIdx = .ok n ∧
      job.labels.lookup jobRestartAttemptKey = some (itoa n)) ∧
    (gates.restartJob = false →
      job.labels.lookup jobRestartAttemptKey = rjob.template.labels.lookup jobRestartAttemptKey) := by
  unfold constructJob at h
  cases hi : individualRestarts gates js rjob jobIdx with
  | error e => simp [hi, Bind.bind, Except.bind] at h
  | ok individual =>
    simp only [hi, Bind.bind, Except.bind, pure, Except.pure, Except.ok.injEq] at h
    subst h
    have hfind := commonEntries_find platform gates js rjob jobIdx individual
    have hr := hfind restartsKey (by simp)
    have hn := hfind replicatedJobNameKey (by simp)
    have hx := hfind jobIndexKey (by simp)
    have ha := hfind jobRestartAttemptKey (by simp)
    rw [if_pos rfl] at hr
    rw [if_neg (by decide), if_pos rfl] at hn
    rw [if_neg (by decide), if_neg (by decide), if_pos rfl] at hx
    rw [if_neg (by decide), if_neg (by decide), if_neg (by decide)] at ha
    dsimp only
    simp only [assign_lookup, hr, hn, hx, ha]
    refine ⟨rfl, rfl, rfl, fun hg => ?_, fun hg => ?_⟩
    · exact ⟨individual, by simpa [individualRestarts, hg] using hi, by simp [hg]⟩
    · simp [hg]

/-- `shouldCreateJob`: no Job of the snapshot has the name. -/
def shouldCreateJob (jobName : String) (ownedJobs : ChildJobs) : Bool :=
  (ownedJobs.active ++ ownedJobs.successful ++ ownedJobs.failed ++ ownedJobs.previous).all
    fun job => jobName ≠ job.name

/-- The loop of `constructJobsFromTemplate`. -/
def constructJobsAt (platform : Platform) (gates : FeatureGates) (js : JobSet)
    (rjob : ReplicatedJob) (ownedJobs : ChildJobs) : List ℕ → Except String (List Job)
  | [] => .ok []
  | jobIdx :: rest => do
    if shouldCreateJob (genJobName js.name rjob.name jobIdx) ownedJobs then
      let job ← constructJob platform gates js rjob jobIdx
      let jobs ← constructJobsAt platform gates js rjob ownedJobs rest
      pure (job :: jobs)
    else constructJobsAt platform gates js rjob ownedJobs rest

/-- A constructed Job is the one of some index, and its name is new. -/
theorem constructJobsAt_mem {platform : Platform} {gates : FeatureGates} {js : JobSet}
    {rjob : ReplicatedJob} {ownedJobs : ChildJobs} {indexes : List ℕ} {jobs : List Job}
    (h : constructJobsAt platform gates js rjob ownedJobs indexes = .ok jobs) {job : Job}
    (hjob : job ∈ jobs) : ∃ jobIdx ∈ indexes,
      constructJob platform gates js rjob jobIdx = .ok job ∧
      shouldCreateJob (genJobName js.name rjob.name jobIdx) ownedJobs = true := by
  induction indexes generalizing jobs with
  | nil =>
    cases h
    simp at hjob
  | cons jobIdx rest ih =>
    unfold constructJobsAt at h
    split_ifs at h with hnew
    · cases hc : constructJob platform gates js rjob jobIdx with
      | error e => simp [hc, Bind.bind, Except.bind] at h
      | ok first =>
        cases hr : constructJobsAt platform gates js rjob ownedJobs rest with
        | error e => simp [hc, hr, Bind.bind, Except.bind] at h
        | ok others =>
          simp only [hc, hr, Bind.bind, Except.bind, pure, Except.pure, Except.ok.injEq] at h
          subst h
          rcases List.mem_cons.mp hjob with rfl | hjob
          · exact ⟨jobIdx, List.mem_cons_self, hc, hnew⟩
          · obtain ⟨i, hi, hrest⟩ := ih hr hjob
            exact ⟨i, List.mem_cons_of_mem _ hi, hrest⟩
    · obtain ⟨i, hi, hrest⟩ := ih h hjob
      exact ⟨i, List.mem_cons_of_mem _ hi, hrest⟩

/-- The JobSet waits for the Jobs of earlier attempts to be gone. -/
def useBlockingRecreate (js : JobSet) : Bool :=
  match js.spec.failurePolicy with
  | some fp => fp.restartStrategy = .blockingRecreate
  | none => false

/-- `constructJobsFromTemplate`. -/
def constructJobsFromTemplate (platform : Platform) (gates : FeatureGates) (js : JobSet)
    (rjob : ReplicatedJob) (ownedJobs : ChildJobs) : Except String (List Job) :=
  if ownedJobs.previous ≠ [] ∧ useBlockingRecreate js then .ok []
  else constructJobsAt platform gates js rjob ownedJobs (List.range rjob.replicas)

theorem constructJobsFromTemplate_mem {platform : Platform} {gates : FeatureGates} {js : JobSet}
    {rjob : ReplicatedJob} {ownedJobs : ChildJobs} {jobs : List Job}
    (h : constructJobsFromTemplate platform gates js rjob ownedJobs = .ok jobs) {job : Job}
    (hjob : job ∈ jobs) : ∃ jobIdx < rjob.replicas,
      constructJob platform gates js rjob jobIdx = .ok job ∧
      shouldCreateJob (genJobName js.name rjob.name jobIdx) ownedJobs = true ∧
      (useBlockingRecreate js = true → ownedJobs.previous = []) := by
  unfold constructJobsFromTemplate at h
  split_ifs at h with hblock
  · cases h
    simp at hjob
  · obtain ⟨jobIdx, hi, hc, hnew⟩ := constructJobsAt_mem h hjob
    refine ⟨jobIdx, List.mem_range.mp hi, hc, hnew, fun hb => ?_⟩
    by_contra hp
    exact hblock ⟨hp, hb⟩

end JobSetOperator
