import JitTrace.Profile.Finalize
import JitTrace.Proofs.CallTree.Weights

/-!
# Samples and the call tree

The weights of a call tree count the samples of its nodes. Recording a sample keeps
this so, and so does moving one: the sample and the weight that counts it move
together.
-/

namespace JitTrace.Profile

/-- How many samples fell on a node. -/
def samplesAt (samples : Array Sample) (node : NodeIndex) : Nat :=
  samples.countP fun sample => sample.node = node

/-- How many samples fell on a line of a node. -/
def samplesOn (samples : Array Sample) (node : NodeIndex) (line : Nat) : Nat :=
  samples.countP fun sample => sample.node = node ∧ sample.line = some line

/-- Every sample fell on one node. -/
theorem sum_samplesAt (samples : Array Sample) (bound : Nat)
    (inside : ∀ sample ∈ samples, sample.node < bound) :
    ∑ node ∈ Finset.range bound, samplesAt samples node = samples.size := by
  let nodes : Multiset NodeIndex := samples.toList.map (·.node)
  have counts : ∀ node, samplesAt samples node = nodes.count node := by
    intro node
    rw [samplesAt, ← Array.countP_toList, Multiset.coe_count, List.count, List.countP_map]
    rfl
  have within : ∀ node ∈ nodes, node ∈ Finset.range bound := by
    intro node isNode
    obtain ⟨sample, isSample, rfl⟩ := List.mem_map.mp isNode
    exact Finset.mem_range.mpr (inside sample (Array.mem_toList_iff.mp isSample))
  simp only [counts]
  rw [Multiset.sum_count_eq_card within, Multiset.coe_card, List.length_map, Array.length_toList]

/-- The call tree counts the samples. -/
structure Tracked (tree : CallTree) (samples : Array Sample) : Prop where
  rooted : tree.Rooted
  inside : ∀ sample ∈ samples, sample.node < tree.size
  weights : ∀ node, (tree.node node).selfWeight = samplesAt samples node
  lines : ∀ node line, (tree.node node).lineTicks.count line = samplesOn samples node line
  sorted : ∀ node, (tree.node node).lineTicks.Sorted

namespace Tracked

variable {tree : CallTree} {samples : Array Sample}

/-- A tree with nothing but its root counts no samples. -/
theorem fresh (label : String) (entry : Option CodeId) :
    Tracked (GrowingTree.fresh label entry).tree #[] := by
  have blank : ∀ node, ((GrowingTree.fresh label entry).tree.node node).selfWeight = 0 ∧
      ((GrowingTree.fresh label entry).tree.node node).lineTicks = [] := by
    intro node
    cases node with
    | zero => exact ⟨rfl, rfl⟩
    | succ node => exact ⟨rfl, rfl⟩
  refine ⟨GrowingTree.rooted_start label entry _, ?_, ?_, ?_, ?_⟩
  · intro sample isSample
    exact absurd isSample (Array.not_mem_empty sample)
  · intro node
    exact (blank node).1
  · intro node line
    rw [(blank node).2]
    rfl
  · intro node
    rw [(blank node).2]
    exact List.Pairwise.nil

/-- New nodes without samples change no count. -/
theorem grow {after : CallTree} (tracked : Tracked tree samples)
    (grown : CallTree.Grown tree after) : Tracked after samples where
  rooted := grown.rooted
  inside sample isSample := Nat.lt_of_lt_of_le (tracked.inside sample isSample) grown.size_le
  weights node := (grown.selfWeight node).trans (tracked.weights node)
  lines node line := by rw [grown.lineTicks, tracked.lines]
  sorted node := grown.lineTicks node ▸ tracked.sorted node

/-- A sample is recorded at its node and its line. -/
theorem record (tracked : Tracked tree samples) (sample : Sample)
    (inside : sample.node < tree.size) :
    Tracked (tree.recordSample sample.node sample.line) (samples.push sample) where
  rooted := tracked.rooted.recordSample _ _
  inside other isSample := by
    rw [CallTree.size_recordSample]
    rcases Array.mem_push.mp isSample with isOld | rfl
    · exact tracked.inside other isOld
    · exact inside
  weights node := by
    rw [CallTree.selfWeight_recordSample inside, tracked.weights, samplesAt, samplesAt,
      Array.countP_push]
    simp only [decide_eq_true_eq, @eq_comm _ node]
  lines node line := by
    rw [CallTree.count_recordSample inside (tracked.sorted _), tracked.lines, samplesOn, samplesOn,
      Array.countP_push]
    simp only [decide_eq_true_eq, @eq_comm _ node]
  sorted := CallTree.sorted_recordSample tracked.sorted _ _

/-- A sample is counted at its node, and at its line if it has one. -/
theorem counted (tracked : Tracked tree samples) {sample : Sample} (isSample : sample ∈ samples) :
    0 < (tree.node sample.node).selfWeight ∧
      ∀ line, sample.line = some line → 0 < (tree.node sample.node).lineTicks.count line := by
  constructor
  · rw [tracked.weights]
    exact Array.countP_pos_iff.mpr ⟨sample, isSample, by simp⟩
  · intro line onLine
    rw [tracked.lines]
    exact Array.countP_pos_iff.mpr ⟨sample, isSample, by simp [onLine]⟩

/-- A sample takes its count along when it moves. -/
theorem move (tracked : Tracked tree samples) {index : Nat} (isIndex : index < samples.size)
    (moved : Sample) (inside : moved.node < tree.size) :
    Tracked (tree.moveSample samples[index].node samples[index].line moved.node moved.line)
      (samples.set index moved) := by
  have isSample := Array.getElem_mem isIndex
  have source := tracked.inside _ isSample
  have sorted := CallTree.sorted_takeSample tracked.sorted samples[index].node samples[index].line
  have target : moved.node <
      (tree.takeSample samples[index].node samples[index].line).size := by
    rwa [CallTree.size_takeSample]
  rw [CallTree.moveSample_eq]
  refine ⟨(tracked.rooted.takeSample _ _).recordSample _ _, fun other isOther => ?_,
    fun node => ?_, fun node line => ?_, CallTree.sorted_recordSample sorted _ _⟩
  · rw [CallTree.size_recordSample, CallTree.size_takeSample]
    rcases Array.mem_or_eq_of_mem_set isOther with isOld | rfl
    · exact tracked.inside other isOld
    · exact inside
  · rw [CallTree.selfWeight_recordSample target, CallTree.selfWeight_takeSample source,
      tracked.weights, samplesAt, samplesAt, Array.countP_set isIndex]
    simp only [decide_eq_true_eq, @eq_comm _ node]
  · rw [CallTree.count_recordSample target (sorted _),
      CallTree.count_takeSample source (tracked.sorted _), tracked.lines, samplesOn, samplesOn,
      Array.countP_set isIndex]
    simp only [decide_eq_true_eq, @eq_comm _ node]

end Tracked

end JitTrace.Profile
