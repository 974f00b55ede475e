import JitTrace.Proofs.CallTree.Links
import JitTrace.Proofs.Profile.Samples

/-!
# Smoothing and weights

Smoothing rewrites a sample and moves its weight in one step, so the call tree counts
the samples all the way. A sample is therefore counted when it is moved, and taking it
back never takes from nothing.
-/

namespace JitTrace.Profile

namespace Smoothing

/-- Smoothing after its first steps. -/
def after (program : NodeIndex) (tree : CallTree) (samples : Array Sample) (steps : Nat) :
    Smoothing :=
  (List.range' 1 steps).foldl (Smoothing.step program) { tree, samples }

/-- The sample at an index is counted at its node, and at its line if it has one. -/
structure Covers (smoothing : Smoothing) (index : Nat) : Prop where
  weight : 0 < (smoothing.tree.node (smoothing.samples.getD index default).node).selfWeight
  ticks : ∀ line, (smoothing.samples.getD index default).line = some line →
    0 < (smoothing.tree.node (smoothing.samples.getD index default).node).lineTicks.count line

theorem getD_eq_getElem {samples : Array Sample} {index : Nat} (inside : index < samples.size) :
    samples.getD index default = samples[index] := by
  simp [Array.getD_eq_getD_getElem?, inside]

theorem Covers.of_tracked {smoothing : Smoothing}
    (tracked : Tracked smoothing.tree smoothing.samples) {index : Nat}
    (inside : index < smoothing.samples.size) : smoothing.Covers index := by
  have counted := tracked.counted (Array.getElem_mem inside)
  rw [← getD_eq_getElem inside] at counted
  exact ⟨counted.1, counted.2⟩

/-- A step keeps the samples counted, and keeps their number. -/
theorem tracked_step {smoothing : Smoothing}
    (tracked : Tracked smoothing.tree smoothing.samples) (program : NodeIndex) {index : Nat}
    (inside : index < smoothing.samples.size) :
    Tracked (smoothing.step program index).tree (smoothing.step program index).samples ∧
      (smoothing.step program index).samples.size = smoothing.samples.size := by
  cases lone : isLone smoothing.tree program (smoothing.samples.getD (index - 1) default)
      (smoothing.samples.getD index default) (smoothing.samples.getD (index + 1) default) with
  | false =>
    simp only [step, lone]
    exact ⟨tracked, rfl⟩
  | true =>
    have previousInside : index - 1 < smoothing.samples.size :=
      Nat.lt_of_le_of_lt (Nat.sub_le index 1) inside
    have node := tracked.inside _ (Array.getElem_mem previousInside)
    have moved := tracked.move inside
      { smoothing.samples[index] with
        node := smoothing.samples[index - 1].node
        line := smoothing.samples[index - 1].line
        system := false } node
    simp only [step, lone, if_true]
    rw [getD_eq_getElem inside, getD_eq_getElem previousInside, Array.setIfInBounds_def,
      dif_pos inside]
    exact ⟨moved, Array.size_set inside⟩

theorem after_succ (program : NodeIndex) (tree : CallTree) (samples : Array Sample) (steps : Nat) :
    after program tree samples (steps + 1) =
      (after program tree samples steps).step program (steps + 1) := by
  simp [after, List.range'_1_concat, Nat.add_comm]

/-- Smoothing leaves the links of the tree and the times of the samples alone. -/
theorem links_after (program : NodeIndex) (tree : CallTree) (samples : Array Sample)
    (steps : Nat) :
    CallTree.Reweighted tree (after program tree samples steps).tree ∧
      (after program tree samples steps).samples.map (·.timestamp) =
        samples.map (·.timestamp) := by
  induction steps with
  | zero => exact ⟨.refl tree, rfl⟩
  | succ steps inductionHypothesis =>
    obtain ⟨links, times⟩ := inductionHypothesis
    rw [after_succ, step]
    split
    · refine ⟨links.trans (.moveSample ..), ?_⟩
      rw [← times]
      refine Array.ext_getElem? fun index => ?_
      by_cases here : steps + 1 = index
      · subst here
        by_cases inside : steps + 1 < (after program tree samples steps).samples.size <;>
          simp [inside]
      · simp [Array.getElem?_setIfInBounds_ne here]
    · exact ⟨links, times⟩

/-- The samples stay counted, and their number stays the same, as smoothing goes on. -/
theorem tracked_after {tree : CallTree} {samples : Array Sample} (tracked : Tracked tree samples)
    (program : NodeIndex) {steps : Nat} (within : steps ≤ samples.size - 2) :
    Tracked (after program tree samples steps).tree (after program tree samples steps).samples ∧
      (after program tree samples steps).samples.size = samples.size := by
  induction steps with
  | zero => exact ⟨tracked, rfl⟩
  | succ steps inductionHypothesis =>
    obtain ⟨before, size⟩ := inductionHypothesis (by omega)
    rw [after_succ]
    obtain ⟨next, sameSize⟩ := tracked_step before program (by omega : steps + 1 < _)
    exact ⟨next, sameSize.trans size⟩

/-- Every sample that smoothing looks at is counted at that time. -/
theorem covers_after {tree : CallTree} {samples : Array Sample} (tracked : Tracked tree samples)
    (program : NodeIndex) {steps : Nat} (within : steps < samples.size - 2) :
    (after program tree samples steps).Covers (steps + 1) := by
  obtain ⟨before, size⟩ := tracked_after tracked program (Nat.le_of_lt within)
  exact .of_tracked before (by omega)

end Smoothing

/-- Smoothing takes one step for every sample that has a neighbour on either side. -/
theorem smooth_eq_after {tree : CallTree} {program : NodeIndex}
    (found : tree.findChild? 0 PseudoFunction.program.label = some program)
    (samples : Array Sample) :
    smooth tree samples = Smoothing.after program tree samples (samples.size - 2) := by
  simp only [smooth, found, Smoothing.after]

/-- Smoothing keeps the samples counted, and keeps their number. -/
theorem Tracked.smooth {tree : CallTree} {samples : Array Sample}
    (tracked : Tracked tree samples) :
    Tracked (smooth tree samples).tree (smooth tree samples).samples ∧
      (smooth tree samples).samples.size = samples.size := by
  cases found : tree.findChild? 0 PseudoFunction.program.label with
  | none =>
    simp only [Profile.smooth, found]
    exact ⟨tracked, trivial⟩
  | some program =>
    rw [smooth_eq_after found]
    exact Smoothing.tracked_after tracked program (Nat.le_refl _)

theorem links_smooth (tree : CallTree) (samples : Array Sample) :
    CallTree.Reweighted tree (smooth tree samples).tree ∧
      (smooth tree samples).samples.map (·.timestamp) = samples.map (·.timestamp) := by
  cases found : tree.findChild? 0 PseudoFunction.program.label with
  | none =>
    simp only [smooth, found]
    exact ⟨.refl tree, trivial⟩
  | some program =>
    rw [smooth_eq_after found]
    exact Smoothing.links_after program tree samples _

/-- Computing totals moves no sample. -/
theorem Tracked.computeTotals {tree : CallTree} {samples : Array Sample}
    (tracked : Tracked tree samples) : Tracked tree.computeTotals samples where
  rooted := tracked.rooted.computeTotals
  inside := by
    rw [CallTree.size_computeTotals]
    exact tracked.inside
  weights node := by
    rw [CallTree.read_computeTotals (·.selfWeight) (fun _ _ => rfl), tracked.weights]
  lines node line := by
    rw [CallTree.read_computeTotals (·.lineTicks) (fun _ _ => rfl), tracked.lines]
  sorted node := by
    rw [CallTree.read_computeTotals (·.lineTicks) (fun _ _ => rfl)]
    exact tracked.sorted node

/-- The weights add up to the number of samples. -/
theorem Tracked.sum_selfWeight {tree : CallTree} {samples : Array Sample}
    (tracked : Tracked tree samples) :
    ∑ node ∈ Finset.range tree.size, (tree.node node).selfWeight = samples.size := by
  simp only [tracked.weights]
  exact sum_samplesAt samples tree.size tracked.inside

end JitTrace.Profile
