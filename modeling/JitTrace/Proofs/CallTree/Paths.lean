import JitTrace.Proofs.CallTree.Run
import Mathlib.Algebra.Order.BigOperators.Group.Finset

/-!
# Weights of subtrees and paths

The weight below a node is counted from the samples alone, by the nodes above the ones that
they ended in. Totals that are up to date say the same. In a trie a node is its path, so what is
counted on nodes can be counted on paths: on one path, on all paths that go on from it, or on
all there are. The weight below a node is what is counted on the paths that go on from its own.
-/

/-! ## Weights of subtrees -/

namespace JitTrace

namespace CallTree

variable {tree : CallTree}

/-- How many samples ended in a node or below it. -/
def weightBelow (tree : CallTree) (index : NodeIndex) : Nat :=
  ∑ other ∈ Finset.range tree.size with index ∈ tree.lineage other, (tree.node other).selfWeight

namespace Linked

theorem weightBelow_eq_sum (linked : Linked tree) {index : NodeIndex} (inside : index < tree.size) :
    tree.weightBelow index =
      ((tree.below index).map fun other => (tree.node other).selfWeight).sum := by
  have nodes : (Finset.range tree.size).filter (index ∈ tree.lineage ·) =
      (tree.below index).toFinset := by
    ext other
    rw [Finset.mem_filter, Finset.mem_range, List.mem_toFinset, linked.mem_below_iff inside]
  rw [weightBelow, nodes, List.sum_toFinset _ (linked.nodup_below inside)]

/-- The weight below a node is its own and the weights below its children. -/
theorem weightBelow_eq_add (linked : Linked tree) {index : NodeIndex} (inside : index < tree.size) :
    tree.weightBelow index = (tree.node index).selfWeight +
      ((tree.node index).children.toList.map tree.weightBelow).sum := by
  have children : (tree.node index).children.toList.map (fun child =>
      ((tree.below child).map fun other => (tree.node other).selfWeight).sum) =
        (tree.node index).children.toList.map tree.weightBelow := by
    refine List.map_congr_left fun child isChild => ?_
    have childInside := (linked.child_between (Array.mem_toList_iff.mp isChild)).2
    exact (linked.weightBelow_eq_sum childInside).symm
  rw [linked.weightBelow_eq_sum inside, linked.below_eq, List.map_cons, List.sum_cons,
    List.map_flatMap, List.flatMap_def, List.sum_flatten, List.map_map, ← children]
  rfl

/-- Gathered totals are the weights below. -/
theorem totalWeight_of_gathered (linked : Linked tree) (gathered : Gathered tree)
    {index : NodeIndex} (inside : index < tree.size) :
    (tree.node index).totalWeight = tree.weightBelow index := by
  induction index using linked.induction_below with
  | step index inductionHypothesis =>
    rw [gathered index inside, linked.weightBelow_eq_add inside,
      linked.sum_children index fun child => (tree.node child).totalWeight]
    congr 2
    refine List.map_congr_left fun child isChild => ?_
    have known := Array.mem_toList_iff.mp isChild
    exact inductionHypothesis child known (linked.child_between known).2

end Linked

theorem Reweighted.weightBelow {before after : CallTree} (same : Reweighted before after)
    (selfWeight : ∀ index, (after.node index).selfWeight = (before.node index).selfWeight)
    (index : NodeIndex) : after.weightBelow index = before.weightBelow index := by
  have lineage : ∀ other, after.lineage other = before.lineage other := fun other =>
    congrArg (other :: ·) (same.ancestors other)
  simp only [CallTree.weightBelow, same.size, lineage, selfWeight]

theorem Reweighted.withTotals (tree : CallTree) : Reweighted tree tree.withTotals := by
  rw [CallTree.withTotals]
  split
  · exact .refl tree
  · exact .computeTotals tree

theorem selfWeight_withTotals (tree : CallTree) (index : NodeIndex) :
    (tree.withTotals.node index).selfWeight = (tree.node index).selfWeight := by
  rw [withTotals]
  split
  · rfl
  · exact read_computeTotals (·.selfWeight) (fun _ _ => rfl) tree index

end CallTree

namespace GrowingTree

variable {growing : GrowingTree}

/-- Where totals of calls below calls are needed, they are the weights below. -/
theorem Arises.totalWeight_withTotals (arises : Arises .nested growing) {index : NodeIndex}
    (inside : index < growing.tree.size) :
    (growing.tree.withTotals.node index).totalWeight = growing.tree.weightBelow index := by
  have linked := arises.trie.toLinked
  rw [CallTree.withTotals]
  split
  · rename_i valid
    exact linked.totalWeight_of_gathered (arises.gathered rfl valid) inside
  · have same := CallTree.Reweighted.computeTotals growing.tree
    rw [(linked.reweighted same).totalWeight_of_gathered linked.gathered_computeTotals
      (same.size ▸ inside)]
    exact same.weightBelow (CallTree.read_computeTotals (·.selfWeight) (fun _ _ => rfl) _) index

end GrowingTree

end JitTrace

/-! ## Weights by path -/

namespace JitTrace.CallTree

variable {tree : CallTree}

/-- What the nodes add up to whose paths have a property. -/
def weightOn (weight : CallNode → Nat) (tree : CallTree) (property : List String → Bool) : Nat :=
  ∑ index ∈ Finset.range tree.size with property (tree.pathLabels index), weight (tree.node index)

theorem weightOn_pos {weight : CallNode → Nat} {property : List String → Bool} :
    0 < weightOn weight tree property ↔ ∃ index < tree.size,
      property (tree.pathLabels index) = true ∧ 0 < weight (tree.node index) := by
  rw [weightOn, Finset.sum_pos_iff]
  simp only [Finset.mem_filter, Finset.mem_range, and_assoc]

theorem Reweighted.weightOn {before after : CallTree} (same : Reweighted before after)
    {weight : CallNode → Nat}
    (weights : ∀ index, weight (after.node index) = weight (before.node index))
    (property : List String → Bool) :
    after.weightOn weight property = before.weightOn weight property := by
  simp only [CallTree.weightOn, same.size, same.pathLabels, weights]

/-- Weight that is added to one node is added to its path. -/
theorem Reweighted.weightOn_add {before after : CallTree} (same : Reweighted before after)
    {weight : CallNode → Nat} {target : NodeIndex} (inside : target < before.size) {amount : Nat}
    (weights : ∀ index, weight (after.node index) =
      weight (before.node index) + if index = target then amount else 0)
    (property : List String → Bool) :
    after.weightOn weight property = before.weightOn weight property +
      if property (before.pathLabels target) then amount else 0 := by
  simp only [CallTree.weightOn, same.size, same.pathLabels, weights, Finset.sum_add_distrib,
    Finset.sum_ite_eq', Finset.mem_filter, Finset.mem_range, inside, true_and]

/-- The front of a path that leads somewhere leads somewhere. -/
theorem exists_findPath?_of_front {labels path : List String} {last : NodeIndex}
    (goesOn : labels <+: path) (found : tree.findPath? path = some last) :
    ∃ above, tree.findPath? labels = some above := by
  obtain ⟨more, rfl⟩ := goesOn
  rw [findPath?, findFrom?_append, Option.bind_eq_some_iff] at found
  obtain ⟨above, isAbove, -⟩ := found
  exact ⟨above, isAbove⟩

namespace Trie

/-- No two nodes have one path. -/
theorem pathLabels_inj (trie : Trie tree) {first second : NodeIndex}
    (firstInside : first < tree.size) (secondInside : second < tree.size) :
    tree.pathLabels first = tree.pathLabels second ↔ first = second := by
  refine ⟨fun same => ?_, fun same => same ▸ rfl⟩
  have found := trie.findPath?_pathLabels firstInside
  rw [same, trie.findPath?_pathLabels secondInside] at found
  exact (Option.some.inj found).symm

/-- A node is above another when its path goes on to it. -/
theorem mem_lineage_iff (trie : Trie tree) {index other : NodeIndex} (inside : index < tree.size)
    (otherInside : other < tree.size) :
    index ∈ tree.lineage other ↔ tree.pathLabels index <+: tree.pathLabels other := by
  have linked := trie.toLinked
  induction other using linked.induction_above with
  | top other isTop =>
    rw [Linked.lineage_of_no_parent isTop, (linked.parent_eq_none otherInside).mp isTop,
      List.mem_singleton, pathLabels_root, List.prefix_nil,
      ← trie.pathLabels_inj inside linked.nonempty, pathLabels_root]
  | step other parent isParent inductionHypothesis =>
    have parentInside := Nat.lt_trans (linked.parent_lt isParent) otherInside
    have above := inductionHypothesis parentInside
    rw [linked.lineage_of_parent isParent, List.mem_cons, ← trie.pathLabels_inj inside otherInside,
      linked.pathLabels_of_parent isParent, List.prefix_concat_iff]
    exact or_congr_right above

/-- What is below a node is what is counted on the paths that go on from its own. -/
theorem weightBelow_eq_weightOn (trie : Trie tree) {index : NodeIndex}
    (inside : index < tree.size) :
    tree.weightBelow index =
      tree.weightOn CallNode.selfWeight fun path => (tree.pathLabels index).isPrefixOf path := by
  rw [weightBelow, weightOn]
  refine Finset.sum_congr (Finset.filter_congr fun other isNode => ?_) fun _ _ => rfl
  rw [trie.mem_lineage_iff inside (Finset.mem_range.mp isNode), List.isPrefixOf_iff_prefix]

/-- What is counted on the path of a node is what is counted on the node. -/
theorem weight_eq_weightOn (trie : Trie tree) (weight : CallNode → Nat) {index : NodeIndex}
    (inside : index < tree.size) :
    weight (tree.node index) = tree.weightOn weight (· == tree.pathLabels index) := by
  have only : (Finset.range tree.size).filter
      (fun other => (tree.pathLabels other == tree.pathLabels index) = true) = {index} := by
    ext other
    rw [Finset.mem_filter, Finset.mem_range, Finset.mem_singleton, beq_iff_eq]
    refine ⟨fun ⟨isNode, same⟩ => (trie.pathLabels_inj isNode inside).mp same, ?_⟩
    rintro rfl
    exact ⟨inside, rfl⟩
  rw [weightOn, only, Finset.sum_singleton]

theorem findPath?_lt (trie : Trie tree) {labels : List String} {last : NodeIndex}
    (found : tree.findPath? labels = some last) : last < tree.size :=
  trie.toRooted.findFrom?_lt trie.nonempty found

/-- Samples are counted on paths that go on from a given one exactly when it leads to a node
with samples below it. -/
theorem weightOn_prefix_pos (trie : Trie tree) (labels : List String) :
    0 < (tree.weightOn CallNode.selfWeight fun path => labels.isPrefixOf path) ↔
      ∃ index, tree.findPath? labels = some index ∧ 0 < tree.weightBelow index := by
  constructor
  · intro positive
    obtain ⟨other, inside, goesOn, -⟩ := weightOn_pos.mp positive
    obtain ⟨index, found⟩ := exists_findPath?_of_front (List.isPrefixOf_iff_prefix.mp goesOn)
      (trie.findPath?_pathLabels inside)
    refine ⟨index, found, ?_⟩
    rwa [trie.weightBelow_eq_weightOn (trie.findPath?_lt found), trie.pathLabels_of_findPath? found]
  · rintro ⟨index, found, positive⟩
    rwa [trie.weightBelow_eq_weightOn (trie.findPath?_lt found),
      trie.pathLabels_of_findPath? found] at positive

end Trie

end JitTrace.CallTree
