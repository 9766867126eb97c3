import JobSetOperator.Placement.Reconciler

/-!
# Followers that are placed correctly

The live followers of a Job select the topology of the leader the webhook finds for
them. Whether the pod controller leaves them alone depends on the other pods of the
Job: it takes every scheduled leader that is not being deleted for the leader, also
one that has finished, and it compares every follower, also one that has finished
or is being deleted.
-/
namespace JobSetOperator.Placement

open Library

/-- The objects around one Job with exclusive placement: its pods carry the key of
the Job and the topology key. -/
structure View.ExclusiveJob (v : View) (owner : ℕ) (key topologyKey : String) : Prop where
  names : (v.pods.map (·.name)).Nodup
  marked : ∀ p ∈ v.pods, p.controller = some owner →
    p.labels.lookup jobKey = some key ∧ p.annotations.lookup exclusiveKey = some topologyKey

/-- The pods of the Job that are not its leaders. -/
def View.followers (v : View) (owner : ℕ) : List Pod :=
  v.pods.filter fun p => p.controller = some owner ∧ isLeaderPod p = false

/-- The label of a pod's node. -/
def View.nodeTopology (v : View) (topologyKey : String) (pod : Pod) : Option String :=
  (v.nodes pod.nodeName).bind fun nodeLabels => nodeLabels.lookup topologyKey

/-- The live followers have the leader the webhook finds for them, which is
scheduled on a node of the topology, and they select this topology. -/
structure View.Placed (v : View) (owner : ℕ) (topologyKey : String) (leader : Pod)
    (topology : String) : Prop where
  some_follower : ∃ f ∈ v.followers owner, live f = true
  found : ∀ f ∈ v.followers owner, live f = true →
    ∃ t, Program.Path v.Answers (leaderPodForFollower f) t (.ok (.ok leader))
  is_leader : isLeaderPod leader = true
  scheduled : leader.nodeName ≠ ""
  on_topology : v.nodeTopology topologyKey leader = some topology
  selected : ∀ f ∈ v.followers owner, live f = true →
    followerPodTopology f topologyKey = .ok topology

/-- No reconcile that an event of the Job's pods triggers deletes a pod. -/
def View.DeletesNothing (v : View) (owner : ℕ) : Prop :=
  ∀ p ∈ v.pods, p.controller = some owner → eventFilter p = true →
    ∀ t res, Program.Path v.Answers (reconcilePod p.name) t res → attempted t = []

/-- Every leader that passes the event filter, also a finished one, is on a node
of the topology or on one without a known topology, and every follower that is still there, also
one that is finished or being deleted, selects the topology. -/
def View.LeftoversAgree (v : View) (owner : ℕ) (topologyKey topology : String) : Prop :=
  (∀ p ∈ v.pods, p.controller = some owner → eventFilter p = true →
    ∀ value, v.nodeTopology topologyKey p = some value → value = "" ∨ value = topology) ∧
  (topology ≠ "" → ∀ f ∈ v.followers owner, followerPodTopology f topologyKey = .ok topology)

section Placed

variable {v : View} {owner : ℕ} {key topologyKey : String}

theorem View.ExclusiveJob.get_key (hj : v.ExclusiveJob owner key topologyKey) {p : Pod}
    (hp : p ∈ v.pods) (howner : p.controller = some owner) :
    p.annotations.get exclusiveKey = topologyKey := by
  rw [StrMap.get, (hj.marked p hp howner).2]
  rfl

theorem View.ExclusiveJob.mem_jobPods (hj : v.ExclusiveJob owner key topologyKey) {p : Pod} :
    p ∈ v.jobPods key owner ↔ p ∈ v.pods ∧ p.controller = some owner := by
  simp only [View.jobPods, List.mem_filter, decide_eq_true_eq]
  constructor
  · rintro ⟨⟨hp, -⟩, howner⟩
    exact ⟨hp, howner⟩
  · rintro ⟨hp, howner⟩
    obtain ⟨hkey, hann⟩ := hj.marked p hp howner
    refine ⟨⟨hp, ?_⟩, howner⟩
    simp [indexPodJob, hann, hkey]

theorem View.ExclusiveJob.allSelect_iff (hj : v.ExclusiveJob owner key topologyKey)
    (topology : String) : AllSelect topologyKey topology (v.jobPods key owner) ↔
      ∀ f ∈ v.followers owner, followerPodTopology f topologyKey = .ok topology := by
  simp only [AllSelect, hj.mem_jobPods, View.followers, List.mem_filter, decide_eq_true_eq]
  constructor
  · rintro h f ⟨hf, howner, hl⟩
    exact h f ⟨hf, howner⟩ hl
  · rintro h f ⟨hf, howner⟩ hl
    exact h f ⟨hf, howner, hl⟩

/-- A leader whose node has a topology that every follower selects triggers no
deletion, and any other one with a topology does. -/
theorem View.ExclusiveJob.deletes_iff (hj : v.ExclusiveJob owner key topologyKey) {p : Pod}
    (hp : p ∈ v.pods) (howner : p.controller = some owner) :
    (∀ t res, Program.Path v.Answers (reconcilePod p.name) t res → attempted t = []) ↔
      ∀ value, v.nodeTopology topologyKey p = some value → value ≠ "" →
        ∀ f ∈ v.followers owner, followerPodTopology f topologyKey = .ok value := by
  have hkey := (hj.marked p hp howner).1
  have hget := hj.get_key hp howner
  constructor
  · intro h value hvalue hne
    rw [← hj.allSelect_iff]
    by_contra hnot
    obtain ⟨nodeLabels, hnode, hlabel⟩ := Option.bind_eq_some_iff.mp hvalue
    have hmay := mayDelete_reconcilePod hj.names hp hkey howner hnode (hget ▸ hlabel) hne
      (hget ▸ hnot)
    obtain ⟨t, res, hpath, ht⟩ := hmay
    exact ht (h t res hpath)
  · intro h t res hpath
    rcases reconcilePod_path hj.names hp hkey howner hpath with
      ⟨hnone, -⟩ | ⟨topology, t', htopo, hne, hnot, -⟩
    · exact hnone
    · refine absurd ?_ hnot
      rw [hget, hj.allSelect_iff]
      rcases htopo with ⟨-, rfl⟩ | ⟨nodeLabels, hnode, hlabel⟩
      · exact absurd rfl hne
      · refine h topology ?_ hne
        rw [View.nodeTopology, hnode, Option.bind_some, ← hget]
        exact hlabel

/-- The leader of a placed Job passes the event filter. -/
theorem View.Placed.leader_passes (hj : v.ExclusiveJob owner key topologyKey) {leader : Pod}
    {topology : String} (h : v.Placed owner topologyKey leader topology) :
    leader ∈ v.pods ∧ leader.controller = some owner ∧ eventFilter leader = true := by
  obtain ⟨f, hf, hlive⟩ := h.some_follower
  obtain ⟨t, ht⟩ := h.found f hf hlive
  obtain ⟨hmem, hleader, hsame, -⟩ := leaderPodForFollower_path ht
  have hfowner : f.controller = some owner := by
    have := (List.mem_filter.mp hf).2
    simp only [decide_eq_true_eq] at this
    exact this.1
  have howner : leader.controller = some owner := hsame.trans hfowner
  have hann := (hj.marked leader hmem howner).2
  simp only [live, decide_eq_true_eq] at hleader
  refine ⟨hmem, howner, ?_⟩
  simp [eventFilter, h.is_leader, h.scheduled, hann, hleader.1]

/-- Correctly placed followers are kept exactly when the leftover pods of the Job
agree with their topology. -/
theorem placed_followers_kept_iff (hj : v.ExclusiveJob owner key topologyKey) {leader : Pod}
    {topology : String} (h : v.Placed owner topologyKey leader topology) :
    v.DeletesNothing owner ↔ v.LeftoversAgree owner topologyKey topology := by
  constructor
  · intro hnone
    have hsel : ∀ p ∈ v.pods, p.controller = some owner → eventFilter p = true → ∀ value,
        v.nodeTopology topologyKey p = some value → value ≠ "" →
        ∀ f ∈ v.followers owner, followerPodTopology f topologyKey = .ok value :=
      fun p hp howner hpass => (hj.deletes_iff hp howner).mp (hnone p hp howner hpass)
    obtain ⟨hmem, howner, hpass⟩ := h.leader_passes hj
    constructor
    · intro p hp hpowner hppass value hvalue
      by_cases hne : value = ""
      · exact Or.inl hne
      · obtain ⟨f, hf, hlive⟩ := h.some_follower
        have h₁ := hsel p hp hpowner hppass value hvalue hne f hf
        rw [h.selected f hf hlive] at h₁
        injection h₁ with h₁
        exact Or.inr h₁.symm
    · intro hne
      exact hsel leader hmem howner hpass topology h.on_topology hne
  · rintro ⟨hleaders, hfollowers⟩ p hp howner hpass
    rw [hj.deletes_iff hp howner]
    intro value hvalue hne
    rcases hleaders p hp howner hpass value hvalue with h₀ | rfl
    · exact absurd h₀ hne
    · exact hfollowers hne

end Placed

/-! ### A leader that was replaced -/

/-- A pod of the Job `js-w-0`, which asks for exclusive zones. -/
def zonePod (name index nodeName : String) (phase : PodPhase) (selector : Option String) : Pod where
  name := name
  labels := [(jobSetNameKey, "js"), (replicatedJobNameKey, "w"), (jobIndexKey, "0"),
    (jobKey, "k")].foldl (fun m entry => m.insert entry.1 entry.2) ∅
  annotations := [(jobSetNameKey, "js"), (exclusiveKey, "zone"),
    ( jobCompletionIndexAnnotation, index)].foldl (fun m entry => m.insert entry.1 entry.2) ∅
  controller := some 1
  deletionTimestamp := none
  priority := none
  nodeName := nodeName
  nodeSelector := selector.map fun value => (∅ : StrMap).insert "zone" value
  podAffinity := []
  podAntiAffinity := []
  phase := phase
  conditions := []

/-- Two zones of one node each. -/
def twoZones (name : String) : Option StrMap :=
  if name = "n1" then some ((∅ : StrMap).insert "zone" "a")
  else if name = "n2" then some ((∅ : StrMap).insert "zone" "b")
  else none

def currentLeader : Pod := zonePod "js-w-0-0-bbbbb" "0" "n2" .podRunning none
def currentFollower : Pod := zonePod "js-w-0-1-ccccc" "1" "n2" .podRunning (some "b")

/-- A leader in the second zone with its follower, next to the given pods. -/
def zoneView (others : List Pod) : View := ⟨others ++ [currentLeader, currentFollower], twoZones⟩

/-- The leader ran in the first zone before it failed. -/
def replacedLeader : View := zoneView [zonePod "js-w-0-0-aaaaa" "0" "n1" .podFailed none]

theorem zoneView_exclusiveJob {others : List Pod}
    (h : ((zoneView others).pods.map (·.name)).Nodup ∧ ∀ p ∈ (zoneView others).pods,
      p.controller = some 1 → p.labels.lookup jobKey = some "k" ∧
        p.annotations.lookup exclusiveKey = some "zone") :
    (zoneView others).ExclusiveJob 1 "k" "zone" := ⟨h.1, h.2⟩

theorem zoneView_placed {others : List Pod}
    (hlookup : (Program.run (zoneView others).answer (leaderPodForFollower currentFollower)).2 =
      .ok (.ok currentLeader))
    (hfollowers : (zoneView others).followers 1 = [currentFollower]) :
    (zoneView others).Placed 1 "zone" currentLeader "b" := by
  have hlive : live currentFollower = true := by decide +kernel
  constructor
  · exact ⟨currentFollower, by simp [hfollowers], hlive⟩
  · intro f hf _
    rw [hfollowers, List.mem_singleton] at hf
    subst hf
    refine ⟨(Program.run (zoneView others).answer (leaderPodForFollower currentFollower)).1, ?_⟩
    rw [← hlookup]
    exact Program.path_run (zoneView others).answers_answer _
  · decide +kernel
  · decide +kernel
  · change twoZones "n2" >>= (fun nodeLabels => nodeLabels.lookup "zone") = some "b"
    decide +kernel
  · intro f hf _
    rw [hfollowers, List.mem_singleton] at hf
    subst hf
    decide +kernel

theorem replacedLeader_exclusiveJob : replacedLeader.ExclusiveJob 1 "k" "zone" :=
  zoneView_exclusiveJob (by decide +kernel)

theorem replacedLeader_placed : replacedLeader.Placed 1 "zone" currentLeader "b" :=
  zoneView_placed (by decide +kernel) (by decide +kernel)

/-- An event of the failed leader deletes the follower of the current one. -/
theorem replacedLeader_deletes : replacedLeader.ExclusiveJob 1 "k" "zone" ∧
    replacedLeader.Placed 1 "zone" currentLeader "b" ∧ ¬ replacedLeader.DeletesNothing 1 := by
  refine ⟨replacedLeader_exclusiveJob, replacedLeader_placed, fun hnone => ?_⟩
  have hrun := hnone (zonePod "js-w-0-0-aaaaa" "0" "n1" .podFailed none) (by decide +kernel)
    (by decide +kernel) (by decide +kernel) _ _
    (Program.path_run replacedLeader.answers_answer (reconcilePod "js-w-0-0-aaaaa"))
  revert hrun
  decide +kernel

/-- A leader that failed in the same zone does no harm. -/
theorem placed_followers_kept_sameZone :
    (zoneView [zonePod "js-w-0-0-aaaaa" "0" "n2" .podFailed none]).DeletesNothing 1 := by
  have hj : (zoneView [zonePod "js-w-0-0-aaaaa" "0" "n2" .podFailed none]).ExclusiveJob 1 "k"
      "zone" := zoneView_exclusiveJob (by decide +kernel)
  have hplaced : (zoneView [zonePod "js-w-0-0-aaaaa" "0" "n2" .podFailed none]).Placed 1 "zone"
      currentLeader "b" := zoneView_placed (by decide +kernel) (by decide +kernel)
  have hzone : ∀ p ∈ (zoneView [zonePod "js-w-0-0-aaaaa" "0" "n2" .podFailed none]).pods,
      (zoneView [zonePod "js-w-0-0-aaaaa" "0" "n2" .podFailed none]).nodeTopology "zone" p =
        some "b" := by decide +kernel
  refine (placed_followers_kept_iff hj hplaced).mpr ⟨?_, ?_⟩
  · intro p hp _ _ value hvalue
    rw [hzone p hp] at hvalue
    injection hvalue with hvalue
    exact Or.inr hvalue.symm
  · intro _
    decide +kernel

end JobSetOperator.Placement
