import JitTrace.Proofs.CallTree.Weights
import Mathlib.Algebra.BigOperators.Group.Finset.Sigma

/-!
# Totals of call trees

Totals are passed up from the last node to the first. What has been passed on so far
is neither lost nor counted twice, so in the end the root holds the sum of all
weights.
-/

namespace JitTrace.CallTree

/-- Passing totals up changes nothing but totals. -/
theorem read_passTotalsUp {Read : Type} (read : CallNode → Read)
    (ignores : ∀ node weight, read { node with totalWeight := weight } = read node)
    (nodes : Array CallNode) (count : Nat) (index : NodeIndex) :
    read ((passTotalsUp nodes count).getD index default) = read (nodes.getD index default) := by
  induction count generalizing nodes with
  | zero => rfl
  | succ count inductionHypothesis =>
    simp only [passTotalsUp]
    rw [inductionHypothesis]
    split
    · exact read_modifyNode read _ (fun node => ignores node _) { nodes } _ index
    · rfl

/-- The totals after the total of one node has been added to that of another. -/
theorem totalWeight_modify {nodes : Array CallNode} {parent : NodeIndex}
    (inside : parent < nodes.size) (weight index : Nat) :
    ((nodes.modify parent fun above =>
        { above with totalWeight := above.totalWeight + weight }).getD index default).totalWeight =
      (nodes.getD index default).totalWeight + if index = parent then weight else 0 := by
  have changed := node_modifyNode { nodes } parent
    (fun above => { above with totalWeight := above.totalWeight + weight }) index
  rw [show (nodes.modify parent _).getD index default = _ from changed]
  by_cases same : index = parent
  · simp [same, show parent < ({ nodes } : CallTree).size from inside, node]
  · simp [same, node]

/-- Passing totals up adds to every total the final totals of the nodes below it. -/
theorem totalWeight_passTotalsUp (nodes : Array CallNode) (count : Nat)
    (inside : count < nodes.size)
    (exists_parent : ∀ index, 0 < index → index ≤ count →
      ∃ parent, (nodes.getD index default).parent = some parent ∧ parent < index)
    (index : NodeIndex) :
    ((passTotalsUp nodes count).getD index default).totalWeight =
      (nodes.getD index default).totalWeight + ∑ child ∈ Finset.range count,
        if (nodes.getD (child + 1) default).parent = some index then
          ((passTotalsUp nodes count).getD (child + 1) default).totalWeight
        else 0 := by
  induction count generalizing nodes index with
  | zero => simp [passTotalsUp]
  | succ count inductionHypothesis =>
    obtain ⟨parent, isParent, below⟩ := exists_parent (count + 1) (Nat.succ_pos _) (Nat.le_refl _)
    let weight := (nodes.getD (count + 1) default).totalWeight
    let change := fun above : CallNode => { above with totalWeight := above.totalWeight + weight }
    let passed := nodes.modify parent change
    have unfolded : passTotalsUp nodes (count + 1) = passTotalsUp passed count := by
      simp only [passTotalsUp, isParent]
      rfl
    have parents : ∀ index, (passed.getD index default).parent =
        (nodes.getD index default).parent :=
      read_modifyNode (·.parent) change (fun _ => rfl) { nodes } parent
    have totals : ∀ index, (passed.getD index default).totalWeight =
        (nodes.getD index default).totalWeight + if index = parent then weight else 0 :=
      totalWeight_modify (Nat.lt_trans below inside) weight
    have known : ∀ index, 0 < index → index ≤ count →
        ∃ parent, (passed.getD index default).parent = some parent ∧ parent < index := by
      intro index positive within
      rw [parents]
      exact exists_parent index positive (Nat.le_succ_of_le within)
    have rest := inductionHypothesis passed (by rw [Array.size_modify]; omega) known
    simp only [parents] at rest
    -- The last node has no children among the earlier ones, so its total is final.
    have last : ((passTotalsUp passed count).getD (count + 1) default).totalWeight = weight := by
      have childless : ∀ child ∈ Finset.range count,
          (if (nodes.getD (child + 1) default).parent = some (count + 1) then
            ((passTotalsUp passed count).getD (child + 1) default).totalWeight else 0) = 0 := by
        intro child inRange
        have earlier := Finset.mem_range.mp inRange
        obtain ⟨other, isOther, before⟩ :=
          exists_parent (child + 1) (Nat.succ_pos _) (by omega)
        have elsewhere : other ≠ count + 1 :=
          Nat.ne_of_lt (Nat.lt_trans before (Nat.succ_lt_succ earlier))
        exact if_neg fun isLast => elsewhere (Option.some.inj (isOther.symm.trans isLast))
      rw [rest, totals, if_neg (Nat.ne_of_gt below), Finset.sum_eq_zero childless, Nat.add_zero,
        Nat.add_zero]
    rw [unfolded, rest, totals, Finset.sum_range_succ, isParent, last]
    simp only [Option.some.injEq, @eq_comm _ parent]
    omega

variable {tree : CallTree}

theorem size_passTotalsUp (nodes : Array CallNode) (count : Nat) :
    (passTotalsUp nodes count).size = nodes.size := by
  induction count generalizing nodes with
  | zero => rfl
  | succ count inductionHypothesis =>
    simp only [passTotalsUp]
    rw [inductionHypothesis]
    split
    · exact Array.size_modify
    · rfl

theorem size_computeTotals (tree : CallTree) : tree.computeTotals.size = tree.size := by
  simp [computeTotals, size, size_passTotalsUp]

/-- Computing totals changes nothing else in the nodes. -/
theorem read_computeTotals {Read : Type} (read : CallNode → Read)
    (ignores : ∀ node weight, read { node with totalWeight := weight } = read node)
    (tree : CallTree) (index : NodeIndex) :
    read (tree.computeTotals.node index) = read (tree.node index) := by
  rw [computeTotals, node, read_passTotalsUp read ignores]
  simp only [node, Array.getD_eq_getD_getElem?, Array.getElem?_map]
  cases tree.nodes[index]? with
  | none => rfl
  | some node => exact ignores node _

theorem Rooted.computeTotals (rooted : Rooted tree) : Rooted tree.computeTotals :=
  rooted.congr (size_computeTotals tree)
    (read_computeTotals (·.parent) (fun _ _ => rfl) tree)
    (read_computeTotals (·.byLabel) (fun _ _ => rfl) tree)

/-! ## Balance -/

/-- Every total is the node's own weight and the totals of the nodes it is the parent of. -/
def Gathered (tree : CallTree) : Prop :=
  ∀ index, index < tree.size →
    (tree.node index).totalWeight = (tree.node index).selfWeight +
      ∑ child ∈ Finset.range (tree.size - 1),
        if (tree.node (child + 1)).parent = some index then (tree.node (child + 1)).totalWeight
        else 0

/-- Computed totals are gathered. -/
theorem Rooted.gathered_computeTotals (rooted : Rooted tree) : Gathered tree.computeTotals := by
  let nodes := tree.nodes.map fun node => { node with totalWeight := node.selfWeight }
  have size : nodes.size = tree.size := by simp [nodes, CallTree.size]
  have positive := rooted.nonempty
  have reset : ∀ index, nodes.getD index default =
      { tree.node index with totalWeight := (tree.node index).selfWeight } := by
    intro index
    simp only [nodes, node, Array.getD_eq_getD_getElem?, Array.getElem?_map]
    cases tree.nodes[index]? <;> rfl
  have passed := totalWeight_passTotalsUp nodes (nodes.size - 1) (by omega)
    fun index above within => by
      rw [reset]
      exact rooted.exists_parent index above (by omega)
  intro index _
  rw [size_computeTotals, read_computeTotals (·.selfWeight) (fun _ _ => rfl)]
  simp only [read_computeTotals (·.parent) (fun _ _ => rfl)]
  simp only [reset] at passed
  rw [← size]
  exact passed index

/-- Where totals are gathered, the total of the root is the sum of all weights. -/
theorem Rooted.root_of_gathered (rooted : Rooted tree) (gathered : Gathered tree) :
    (tree.node 0).totalWeight =
      ∑ index ∈ Finset.range tree.size, (tree.node index).selfWeight := by
  have positive := rooted.nonempty
  -- Every node but the root has its total gathered once, by its parent.
  have once : ∑ index ∈ Finset.range tree.size, ∑ child ∈ Finset.range (tree.size - 1),
      (if (tree.node (child + 1)).parent = some index then (tree.node (child + 1)).totalWeight
        else 0) =
      ∑ child ∈ Finset.range (tree.size - 1), (tree.node (child + 1)).totalWeight := by
    rw [Finset.sum_comm]
    refine Finset.sum_congr rfl fun child inRange => ?_
    have within : child + 1 < tree.size := by
      have := Finset.mem_range.mp inRange
      omega
    obtain ⟨parent, isParent, below⟩ := rooted.exists_parent (child + 1) (Nat.succ_pos _) within
    simp [isParent, Nat.lt_trans below within]
  have all : ∑ index ∈ Finset.range tree.size, (tree.node index).totalWeight =
      ∑ child ∈ Finset.range (tree.size - 1), (tree.node (child + 1)).totalWeight +
        (tree.node 0).totalWeight := by
    rw [← Finset.sum_range_succ' (fun index => (tree.node index).totalWeight),
      Nat.sub_add_cancel positive]
  have sums := Finset.sum_congr rfl fun index inRange =>
    gathered index (Finset.mem_range.mp inRange)
  rw [Finset.sum_add_distrib, once, all] at sums
  omega

/-- The computed total of the root is the sum of all weights. -/
theorem Rooted.root_computeTotals (rooted : Rooted tree) :
    (tree.computeTotals.node 0).totalWeight =
      ∑ index ∈ Finset.range tree.size, (tree.node index).selfWeight := by
  rw [rooted.computeTotals.root_of_gathered rooted.gathered_computeTotals, size_computeTotals]
  simp only [read_computeTotals (·.selfWeight) (fun _ _ => rfl)]

end JitTrace.CallTree
