import JobSetOperator.Placement.Race

/-!
# Looking up the leader of a follower

The lookup goes through an index over pod names without their suffix, and the parts
of a name may contain the separator, so pods of other Jobs can stand under the same
entry. The controller reference tells them apart, and within one Indexed Job the
entry determines the completion index.
-/
namespace JobSetOperator.Placement

open Library

/-- The pod has the name and the annotation the Job controller gives a pod of an Indexed child
Job with the completion index. -/
structure IndexedPod (jobSet replicatedJob : String) (jobIndex index : ℕ) (suffix : String)
    (pod : Pod) : Prop where
  name : pod.name = genJobName jobSet replicatedJob jobIndex ++ "-" ++ itoa index ++ "-" ++ suffix
  completion : pod.annotations.lookup jobCompletionIndexAnnotation = some (itoa index)
  suffix_plain : '-' ∉ suffix.toList

/-- The labels by which a pod of a child Job refers to the Job. -/
structure ChildPod (jobSet replicatedJob : String) (jobIndex : ℕ) (owner : ℕ) (pod : Pod) :
    Prop where
  jobSet_label : pod.labels.lookup jobSetNameKey = some jobSet
  replicatedJob_label : pod.labels.lookup replicatedJobNameKey = some replicatedJob
  jobIndex_label : pod.labels.lookup jobIndexKey = some (itoa jobIndex)
  controlled : pod.controller = some owner

/-- The Job controller's names are the generated ones. -/
theorem genPodName_eq (jobSet replicatedJob : String) (jobIndex index : ℕ) :
    genPodName jobSet replicatedJob (itoa jobIndex) (itoa index) =
      genJobName jobSet replicatedJob jobIndex ++ "-" ++ itoa index := rfl

theorem genPodName_index_inj {jobSet replicatedJob jobIndex : String} {m n : ℕ}
    (h : genPodName jobSet replicatedJob jobIndex (itoa m) =
      genPodName jobSet replicatedJob jobIndex (itoa n)) : m = n := by
  unfold genPodName at h
  have := itoa_injective (String.append_right_inj _ |>.mp h)
  exact_mod_cast this

/-- The index entry of an Indexed pod is its generated name. -/
theorem IndexedPod.indexPodName {jobSet replicatedJob suffix : String} {jobIndex index : ℕ}
    {pod : Pod} (h : IndexedPod jobSet replicatedJob jobIndex index suffix pod)
    (hexclusive : (pod.annotations.lookup exclusiveKey).isSome = true) :
    indexPodName pod = some (genPodName jobSet replicatedJob (itoa jobIndex) (itoa index)) := by
  have hname : removePodNameSuffix pod.name =
      .ok (genPodName jobSet replicatedJob (itoa jobIndex) (itoa index)) := by
    rw [h.name, ← genPodName_eq]
    exact removePodNameSuffix_append h.suffix_plain
  unfold Placement.indexPodName
  have hnone : ¬ (pod.annotations.lookup exclusiveKey).isNone = true := by
    simpa using Option.isSome_iff_ne_none.mp hexclusive
  rw [if_neg hnone, hname]
  rfl

theorem ChildPod.genLeaderPodName {jobSet replicatedJob : String} {jobIndex owner : ℕ} {pod : Pod}
    (h : ChildPod jobSet replicatedJob jobIndex owner pod) :
    genLeaderPodName pod = .ok (genPodName jobSet replicatedJob (itoa jobIndex) (itoa (0 : ℕ))) := by
  unfold Placement.genLeaderPodName requireLabel
  rw [h.jobSet_label, h.replicatedJob_label, h.jobIndex_label]
  rfl

/-- An index entry exists for pods with exclusive placement only. -/
theorem exclusive_of_indexPodName {pod : Pod} {name : String} (h : indexPodName pod = some name) :
    (pod.annotations.lookup exclusiveKey).isSome = true := by
  unfold indexPodName at h
  split_ifs at h with hnone
  exact Option.isSome_iff_ne_none.mpr (by simpa using hnone)

/-- The index entry of an Indexed pod is its generated name, and a leader that is found for a
follower of an Indexed child Job is a live pod of this Job with completion index zero. Only the
pods of the Job itself need to have the names of its controller. -/
theorem leader_lookup_sound :
    (∀ (jobSet replicatedJob suffix : String) (jobIndex index : ℕ) (pod : Pod),
      IndexedPod jobSet replicatedJob jobIndex index suffix pod →
      (pod.annotations.lookup exclusiveKey).isSome = true →
      indexPodName pod = some (genPodName jobSet replicatedJob (itoa jobIndex) (itoa index))) ∧
    ∀ (v : View) (jobSet replicatedJob : String) (jobIndex owner : ℕ) (follower leader : Pod)
      (t : Trace), ChildPod jobSet replicatedJob jobIndex owner follower →
      (∀ pod ∈ v.pods, pod.controller = some owner →
        ∃ index suffix, IndexedPod jobSet replicatedJob jobIndex index suffix pod) →
      Program.Path v.Answers (leaderPodForFollower follower) t (.ok (.ok leader)) →
      leader ∈ v.pods ∧ live leader = true ∧
        leader.annotations.lookup jobCompletionIndexAnnotation = some "0" ∧
        leader.controller = some owner := by
  constructor
  · intro jobSet replicatedJob suffix jobIndex index pod hpod hexclusive
    exact hpod.indexPodName hexclusive
  · intro v jobSet replicatedJob jobIndex owner follower leader t hfollower hjob hpath
    obtain ⟨hmem, hlive, hsame, -, name, hname, hentry⟩ := leaderPodForFollower_path hpath
    have howner : leader.controller = some owner := hsame.trans hfollower.controlled
    refine ⟨hmem, hlive, ?_, howner⟩
    obtain ⟨index, suffix, hindexed⟩ := hjob leader hmem howner
    rw [hfollower.genLeaderPodName] at hname
    cases hname
    have hown := hindexed.indexPodName (exclusive_of_indexPodName hentry)
    rw [hentry] at hown
    have hzero : 0 = index := genPodName_index_inj (Option.some.inj hown)
    subst hzero
    exact hindexed.completion

/-- A failed pod of a NonIndexed Job `js-w-0-0` stands under the entry of the leader of the
Indexed Job `js-w-0`. -/
def sameEntry : View :=
  zoneView [{ zonePod "js-w-0-0-eeeee" "" "n1" .podFailed none with controller := some 2 }]

theorem leader_lookup_sound_sameEntry :
    indexPodName { zonePod "js-w-0-0-eeeee" "" "n1" .podFailed none with controller := some 2 } =
      indexPodName currentLeader ∧
    indexPodName currentLeader = some (genPodName "js" "w" (itoa (0 : ℕ)) (itoa (0 : ℕ))) ∧
    ∃ t leader, Program.Path sameEntry.Answers (leaderPodForFollower currentFollower) t
        (.ok (.ok leader)) ∧
      leader.annotations.lookup jobCompletionIndexAnnotation = some "0" ∧
      leader.controller = some 1 := by
  have hleader : IndexedPod "js" "w" 0 0 "bbbbb" currentLeader :=
    ⟨by decide, by decide +kernel, by decide⟩
  have hfollower : IndexedPod "js" "w" 0 1 "ccccc" currentFollower :=
    ⟨by decide, by decide +kernel, by decide⟩
  have hchild : ChildPod "js" "w" 0 1 currentFollower :=
    ⟨by decide +kernel, by decide +kernel, by decide +kernel, rfl⟩
  have hjob : ∀ pod ∈ sameEntry.pods, pod.controller = some 1 →
      ∃ index suffix, IndexedPod "js" "w" 0 index suffix pod := by
    intro pod hpod howner
    change pod ∈ [_, currentLeader, currentFollower] at hpod
    rcases List.mem_cons.mp hpod with rfl | hpod
    · cases howner
    · rcases List.mem_cons.mp hpod with rfl | hpod
      · exact ⟨0, "bbbbb", hleader⟩
      · rw [List.mem_singleton.mp hpod]
        exact ⟨1, "ccccc", hfollower⟩
  have hrun : (Program.run sameEntry.answer (leaderPodForFollower currentFollower)).2 =
      .ok (.ok currentLeader) := by decide +kernel
  have hpath : Program.Path sameEntry.Answers (leaderPodForFollower currentFollower)
      (Program.run sameEntry.answer (leaderPodForFollower currentFollower)).1
      (.ok (.ok currentLeader)) := by
    rw [← hrun]
    exact Program.path_run sameEntry.answers_answer _
  obtain ⟨-, -, hindex, howner⟩ := leader_lookup_sound.2 sameEntry "js" "w" 0 1 currentFollower
    currentLeader _ hchild hjob hpath
  refine ⟨by decide +kernel, ?_, _, currentLeader, hpath, hindex, howner⟩
  exact leader_lookup_sound.1 "js" "w" "bbbbb" 0 0 currentLeader hleader (by decide +kernel)

end JobSetOperator.Placement
