import JobSetOperator.Cluster.World

/-!
# The history of the child Jobs

A Job keeps its name, its uid and its labels for life, and once it has finished
it stays so. A resource version stands for one content. These facts hold for the
whole history of the list and are kept by each of the four ways it can change.
-/
namespace JobSetOperator.Cluster

open Library

/-- `b` is a version of the Job `a`, not an older one. -/
structure Succeeds (a b : Job) : Prop where
  name : b.name = a.name
  uid : b.uid = a.uid
  labels : b.labels = a.labels
  finished : ∀ t, jobFinished a = some t → jobFinished b = some t

theorem Succeeds.refl (a : Job) : Succeeds a a := ⟨rfl, rfl, rfl, fun _ h => h⟩

theorem Succeeds.trans {a b c : Job} (h₁ : Succeeds a b) (h₂ : Succeeds b c) : Succeeds a c :=
  ⟨h₂.name.trans h₁.name, h₂.uid.trans h₁.uid, h₂.labels.trans h₁.labels,
    fun t h => h₂.finished t (h₁.finished t h)⟩

/-- What holds of the history of the Jobs. -/
structure JobsOk (sv : Server) : Prop where
  names : ∀ i ≤ sv.jobs.top, ((sv.jobs.entry i).map (·.name)).Nodup
  bounded : ∀ i ≤ sv.jobs.top, ∀ a ∈ sv.jobs.entry i,
    a.uid < sv.nextUid ∧ a.resourceVersion < sv.nextVersion
  later : ∀ i j, i ≤ j → j ≤ sv.jobs.top → ∀ a ∈ sv.jobs.entry i, ∀ b ∈ sv.jobs.entry j,
    a.uid = b.uid → Succeeds a b
  versions : ∀ i ≤ sv.jobs.top, ∀ j ≤ sv.jobs.top, ∀ a ∈ sv.jobs.entry i, ∀ b ∈ sv.jobs.entry j,
    a.resourceVersion = b.resourceVersion → a = b
  lasting : ∀ i m j, i ≤ m → m ≤ j → j ≤ sv.jobs.top → ∀ a ∈ sv.jobs.entry i,
    ∀ b ∈ sv.jobs.entry j, a.uid = b.uid → ∃ c ∈ sv.jobs.entry m, c.uid = a.uid

/-- Where a Job of the next list comes from. -/
inductive Origin (sv : Server) (b : Job) : Prop
  | kept (h : b ∈ sv.jobs.current)
  | changed (a : Job) (mem : a ∈ sv.jobs.current) (succeeds : Succeeds a b)
    (version : b.resourceVersion = sv.nextVersion)
  | created (uid : b.uid = sv.nextUid) (version : b.resourceVersion = sv.nextVersion)

/-- A list the server can store next. -/
structure NextList (sv sv' : Server) (l : List Job) : Prop where
  jobs : sv'.jobs = sv.jobs.push l
  names : (l.map (·.name)).Nodup
  origin : ∀ b ∈ l, Origin sv b
  single : ∀ b ∈ l, ∀ b' ∈ l, b.resourceVersion = sv.nextVersion →
    b'.resourceVersion = sv.nextVersion → b = b'
  uids : sv.nextUid ≤ sv'.nextUid ∧ ∀ b ∈ l, b.uid < sv'.nextUid
  versions : sv.nextVersion ≤ sv'.nextVersion ∧ ∀ b ∈ l, b.resourceVersion < sv'.nextVersion

section Push

variable {sv sv' : Server} {l : List Job}

/-- A Job of the next list that has been on the server before. -/
theorem Origin.previous {a b : Job} {i : ℕ} (hok : JobsOk sv) (hb : Origin sv b)
    (hi : i ≤ sv.jobs.top) (ha : a ∈ sv.jobs.entry i) (huid : a.uid = b.uid) :
    ∃ c ∈ sv.jobs.current, c.uid = a.uid ∧ Succeeds a b := by
  cases hb with
  | kept h => exact ⟨b, h, huid.symm, hok.later i _ hi le_rfl a ha b h huid⟩
  | changed c hc hs hv =>
    have huid' : a.uid = c.uid := huid.trans hs.uid
    exact ⟨c, hc, huid'.symm, (hok.later i _ hi le_rfl a ha c hc huid').trans hs⟩
  | created hu hv =>
    have := (hok.bounded i hi a ha).1
    omega

theorem Origin.version {a b : Job} {i : ℕ} (hok : JobsOk sv) (hb : Origin sv b)
    (hi : i ≤ sv.jobs.top) (ha : a ∈ sv.jobs.entry i)
    (hv : a.resourceVersion = b.resourceVersion) : a = b := by
  have hlt := (hok.bounded i hi a ha).2
  cases hb with
  | kept h => exact hok.versions i hi _ le_rfl a ha b h hv
  | changed c hc hs hv' => omega
  | created hu hv' => omega

/-- The Job of the current list an old Job of the next list continues. -/
theorem Origin.source {b : Job} (hb : Origin sv b) :
    (∃ c ∈ sv.jobs.current, c.uid = b.uid ∧ c.name = b.name) ∨
      (b.uid = sv.nextUid ∧ b.resourceVersion = sv.nextVersion) := by
  cases hb with
  | kept h => exact Or.inl ⟨b, h, rfl, rfl⟩
  | changed c hc hs hv => exact Or.inl ⟨c, hc, hs.uid.symm, hs.name.symm⟩
  | created hu hv => exact Or.inr ⟨hu, hv⟩

theorem NextList.same_uid (hl : NextList sv sv' l) (hok : JobsOk sv) {a b : Job} (ha : a ∈ l)
    (hb : b ∈ l) (huid : a.uid = b.uid) : a = b := by
  have hlt : ∀ c ∈ sv.jobs.current, c.uid < sv.nextUid := fun c hc =>
    (hok.bounded _ le_rfl c hc).1
  rcases (hl.origin a ha).source with ⟨c, hc, hcu, hcn⟩ | ⟨hu, hv⟩
  · rcases (hl.origin b hb).source with ⟨d, hd, hdu, hdn⟩ | ⟨hu', hv'⟩
    · have hcd := hok.later _ _ le_rfl le_rfl c hc d hd (hcu.trans (huid.trans hdu.symm))
      have hname : a.name = b.name := hcn.symm.trans (hcd.name.symm.trans hdn)
      exact List.inj_on_of_nodup_map hl.names ha hb hname
    · have := hlt c hc
      omega
  · rcases (hl.origin b hb).source with ⟨d, hd, hdu, hdn⟩ | ⟨hu', hv'⟩
    · have := hlt d hd
      omega
    · exact hl.single a ha b hb hv hv'

theorem NextList.same_version (hl : NextList sv sv' l) (hok : JobsOk sv) {a b : Job} (ha : a ∈ l)
    (hb : b ∈ l) (hv : a.resourceVersion = b.resourceVersion) : a = b := by
  have hcases : ∀ c ∈ l, c ∈ sv.jobs.current ∨ c.resourceVersion = sv.nextVersion := by
    intro c hc
    cases hl.origin c hc with
    | kept h => exact Or.inl h
    | changed d hd hs hv => exact Or.inr hv
    | created hu hv => exact Or.inr hv
  have hlt : ∀ c ∈ sv.jobs.current, c.resourceVersion < sv.nextVersion := fun c hc =>
    (hok.bounded _ le_rfl c hc).2
  rcases hcases a ha with ha' | ha'
  · rcases hcases b hb with hb' | hb'
    · exact hok.versions _ le_rfl _ le_rfl a ha' b hb' hv
    · have := hlt a ha'
      omega
  · exact hl.single a ha b hb ha' (hv.symm.trans ha')

theorem JobsOk.push (hok : JobsOk sv) (hl : NextList sv sv' l) : JobsOk sv' := by
  have hentry : ∀ i ≤ sv'.jobs.top, (i ≤ sv.jobs.top ∧ sv'.jobs.entry i = sv.jobs.entry i) ∨
      (i = sv.jobs.top + 1 ∧ sv'.jobs.entry i = l) := by
    intro i hi
    rw [hl.jobs] at hi ⊢
    exact sv.jobs.push_entry_cases l hi
  have htop : sv'.jobs.top = sv.jobs.top + 1 := by rw [hl.jobs, History.push_top]
  constructor
  case names =>
    intro i hi
    rcases hentry i hi with ⟨hle, he⟩ | ⟨-, he⟩
    · rw [he]
      exact hok.names i hle
    · rw [he]
      exact hl.names
  case bounded =>
    intro i hi a ha
    rcases hentry i hi with ⟨hle, he⟩ | ⟨-, he⟩
    · rw [he] at ha
      have := hok.bounded i hle a ha
      have hu := hl.uids.1
      have hv := hl.versions.1
      omega
    · rw [he] at ha
      exact ⟨hl.uids.2 a ha, hl.versions.2 a ha⟩
  case later =>
    intro i j hij hj a ha b hb huid
    rcases hentry j hj with ⟨hle, he⟩ | ⟨rfl, he⟩
    · rw [he] at hb
      rcases hentry i (hij.trans hj) with ⟨_, he'⟩ | ⟨rfl, _⟩
      · rw [he'] at ha
        exact hok.later i j hij hle a ha b hb huid
      · omega
    · rw [he] at hb
      rcases hentry i (hij.trans hj) with ⟨hle', he'⟩ | ⟨rfl, he'⟩
      · rw [he'] at ha
        obtain ⟨_, _, _, hs⟩ := (hl.origin b hb).previous hok hle' ha huid
        exact hs
      · -- two Jobs of the next list: the same uid would be the same Job of the current one
        rw [he'] at ha
        exact hl.same_uid hok ha hb huid ▸ Succeeds.refl a
  case versions =>
    intro i hi j hj a ha b hb hv
    rcases hentry i hi with ⟨hle, he⟩ | ⟨-, he⟩ <;> rw [he] at ha <;>
      rcases hentry j hj with ⟨hle', he'⟩ | ⟨-, he'⟩ <;> rw [he'] at hb
    · exact hok.versions i hle j hle' a ha b hb hv
    · exact (hl.origin b hb).version hok hle ha hv
    · exact ((hl.origin a ha).version hok hle' hb hv.symm).symm
    · exact hl.same_version hok ha hb hv
  case lasting =>
    intro i m j him hmj hj a ha b hb huid
    rcases hentry j hj with ⟨hle, he⟩ | ⟨rfl, he⟩
    · rw [he] at hb
      rcases hentry i (by omega) with ⟨_, he'⟩ | ⟨rfl, _⟩
      · rcases hentry m (by omega) with ⟨_, hem⟩ | ⟨rfl, _⟩
        · rw [he'] at ha
          rw [hem]
          exact hok.lasting i m j him hmj hle a ha b hb huid
        · omega
      · omega
    · rw [he] at hb
      rcases hentry m (by omega) with ⟨hm, hem⟩ | ⟨rfl, hem⟩
      · rcases hentry i (by omega) with ⟨hle', he'⟩ | ⟨rfl, _⟩
        · rw [he'] at ha
          rw [hem]
          obtain ⟨c, hc, hcu, _⟩ := (hl.origin b hb).previous hok hle' ha huid
          exact hok.lasting i m _ him hm le_rfl a ha c hc hcu.symm
        · omega
      · rw [hem]
        exact ⟨b, hb, huid.symm⟩

end Push

/-! ## The four changes -/

theorem JobsOk.initial (js : JobSet) : JobsOk (World.initial js).toServer := by
  constructor <;> simp [World.initial]

theorem JobsOk.putSet {sv : Server} (hok : JobsOk sv) (js : JobSet) : JobsOk (sv.putSet js) :=
  ⟨hok.names, hok.bounded, hok.later, hok.versions, hok.lasting⟩

theorem mem_replaceJob {l : List Job} {job b : Job} (h : b ∈ replaceJob l job) :
    (b ∈ l ∧ b.name ≠ job.name) ∨ b = job := by
  obtain ⟨a, ha, rfl⟩ := List.mem_map.mp h
  split_ifs with hn
  · exact Or.inr rfl
  · exact Or.inl ⟨ha, hn⟩

theorem replaceJob_names (l : List Job) (job : Job) :
    (replaceJob l job).map (·.name) = l.map (·.name) := by
  unfold replaceJob
  rw [List.map_map]
  refine List.map_congr_left fun a _ => ?_
  dsimp only [Function.comp]
  split_ifs with hn
  · exact hn.symm
  · rfl

theorem JobsOk.putJob {sv : Server} (hok : JobsOk sv) {a b : Job} (ha : a ∈ sv.jobs.current)
    (hs : Succeeds a b) : JobsOk (sv.putJob b) := by
  have hlt : ∀ c ∈ sv.jobs.current, c.uid < sv.nextUid ∧ c.resourceVersion < sv.nextVersion :=
    fun c hc => hok.bounded _ le_rfl c hc
  have hs' : Succeeds a { b with resourceVersion := sv.nextVersion } :=
    ⟨hs.name, hs.uid, hs.labels, hs.finished⟩
  refine hok.push ⟨rfl, ?_, ?_, ?_, ⟨le_rfl, ?_⟩, ⟨Nat.le_succ _, ?_⟩⟩
  · rw [replaceJob_names]
    exact hok.names _ le_rfl
  · intro c hc
    rcases mem_replaceJob hc with ⟨hc, -⟩ | rfl
    · exact Origin.kept hc
    · exact Origin.changed a ha hs' rfl
  · intro c hc d hd hcv hdv
    rcases mem_replaceJob hc with ⟨hc, -⟩ | rfl
    · have := hlt c hc
      omega
    · rcases mem_replaceJob hd with ⟨hd, -⟩ | rfl
      · have := hlt d hd
        omega
      · rfl
  · intro c hc
    rcases mem_replaceJob hc with ⟨hc, -⟩ | rfl
    · exact (hlt c hc).1
    · rw [hs'.uid]
      exact (hlt a ha).1
  · intro c hc
    rcases mem_replaceJob hc with ⟨hc, -⟩ | rfl
    · exact Nat.lt_succ_of_lt (hlt c hc).2
    · exact Nat.lt_succ_self _

theorem JobsOk.addJob {sv : Server} (hok : JobsOk sv) {job : Job}
    (hfree : ∀ j ∈ sv.jobs.current, j.name ≠ job.name) : JobsOk (sv.addJob job) := by
  have hlt : ∀ c ∈ sv.jobs.current, c.uid < sv.nextUid ∧ c.resourceVersion < sv.nextVersion :=
    fun c hc => hok.bounded _ le_rfl c hc
  have hmem : ∀ c ∈ sv.jobs.current ++
      [{ job with uid := sv.nextUid, resourceVersion := sv.nextVersion }], c ∈ sv.jobs.current ∨
      c = { job with uid := sv.nextUid, resourceVersion := sv.nextVersion } := by
    simp
  refine hok.push ⟨rfl, ?_, ?_, ?_, ⟨Nat.le_succ _, ?_⟩, ⟨Nat.le_succ _, ?_⟩⟩
  · rw [List.map_append]
    refine List.Nodup.append (hok.names _ le_rfl) (by simp) ?_
    intro n hn hn'
    obtain ⟨c, hc, rfl⟩ := List.mem_map.mp hn
    exact hfree c hc (by simpa using hn')
  · intro c hc
    rcases hmem c hc with hc | rfl
    · exact Origin.kept hc
    · exact Origin.created rfl rfl
  · intro c hc d hd hcv hdv
    rcases hmem c hc with hc | rfl
    · have := hlt c hc
      omega
    · rcases hmem d hd with hd | rfl
      · have := hlt d hd
        omega
      · rfl
  · intro c hc
    rcases hmem c hc with hc | rfl
    · exact Nat.lt_succ_of_lt (hlt c hc).1
    · exact Nat.lt_succ_self _
  · intro c hc
    rcases hmem c hc with hc | rfl
    · exact Nat.lt_succ_of_lt (hlt c hc).2
    · exact Nat.lt_succ_self _

theorem JobsOk.dropJob {sv : Server} (hok : JobsOk sv) (job : Job) : JobsOk (sv.dropJob job) := by
  have hlt : ∀ c ∈ sv.jobs.current, c.uid < sv.nextUid ∧ c.resourceVersion < sv.nextVersion :=
    fun c hc => hok.bounded _ le_rfl c hc
  have hmem : ∀ c ∈ sv.jobs.current.filter (fun j => j.uid ≠ job.uid), c ∈ sv.jobs.current :=
    fun c hc => List.mem_of_mem_filter hc
  refine hok.push ⟨rfl, ?_, fun c hc => Origin.kept (hmem c hc), ?_, ⟨le_rfl, ?_⟩, ⟨le_rfl, ?_⟩⟩
  · exact List.Nodup.sublist (List.filter_sublist.map _) (hok.names _ le_rfl)
  · intro c hc d hd hcv hdv
    have := hlt c (hmem c hc)
    omega
  · exact fun c hc => (hlt c (hmem c hc)).1
  · exact fun c hc => (hlt c (hmem c hc)).2

end JobSetOperator.Cluster
