import JitTrace.Proofs.CallTree.Flat

/-!
# Recursion in the flat tree

How often a flat tree counts a sample. The row of any other function than the region's own
counts it once at most, and so does the root. The row of the region's own function counts it
once for every call of the function but the outermost one. That is more often than the root
does as soon as three calls of the function are nested.
-/

namespace JitTrace

namespace CallTree

variable {tree : CallTree} {region label : String} {index : NodeIndex}

/-- How many of the calls that lead to a node are calls of a function. -/
def callsOf (tree : CallTree) (label : String) (index : NodeIndex) : Nat :=
  (tree.lineage index).countP fun above => (tree.node above).label = label

namespace Linked

theorem callsOf_of_no_parent (isTop : (tree.node index).parent = none) :
    tree.callsOf label index = if (tree.node index).label = label then 1 else 0 := by
  rw [callsOf, lineage_of_no_parent isTop, List.countP_singleton]
  simp only [decide_eq_true_eq]

theorem callsOf_of_parent (linked : Linked tree) {parent : NodeIndex}
    (isParent : (tree.node index).parent = some parent) :
    tree.callsOf label index =
      tree.callsOf label parent + if (tree.node index).label = label then 1 else 0 := by
  rw [callsOf, linked.lineage_of_parent isParent, List.countP_cons]
  simp only [callsOf, decide_eq_true_eq]

/-- A node is counted in the region when it is reached by a call of the region's function. -/
theorem callsOf_pos : 0 < tree.callsOf region index ↔
    (tree.node index).label = region ∨ tree.InRegion region index := by
  rw [callsOf, List.countP_pos_iff, lineage, List.exists_mem_cons_iff]
  simp only [decide_eq_true_eq, InRegion]

theorem inRegion_iff_callsOf_pos (linked : Linked tree) {parent : NodeIndex}
    (isParent : (tree.node index).parent = some parent) :
    tree.InRegion region index ↔ 0 < tree.callsOf region parent := by
  rw [linked.inRegion_of_parent isParent, callsOf_pos]

/-- Of the calls of another function that lead to a node, one at most is outermost. -/
theorem countP_lineage_outermost (linked : Linked tree) (label : String) (index : NodeIndex) :
    (tree.lineage index).countP (fun above => tree.OutermostIn region above ∧
      (tree.node above).label = label) ≤ if 0 < tree.callsOf region index then 1 else 0 := by
  induction index using linked.induction_above with
  | top index isTop =>
    have outside : ¬ tree.InRegion region index := inRegion_of_no_parent isTop
    simp [lineage_of_no_parent isTop, OutermostIn, outside]
  | step index parent isParent inductionHypothesis =>
    have calls : tree.callsOf region index = tree.callsOf region parent + _ :=
      linked.callsOf_of_parent isParent
    rw [linked.lineage_of_parent isParent, List.countP_cons]
    by_cases last : tree.OutermostIn region index ∧ (tree.node index).label = label
    · -- Whatever is inside above it has another label.
      have others : (tree.lineage parent).countP (fun above => tree.OutermostIn region above ∧
          (tree.node above).label = label) = 0 := by
        rw [List.countP_eq_zero]
        intro above listed
        rw [← linked.ancestors_of_parent isParent] at listed
        simp only [decide_eq_true_eq, not_and]
        intro outermost
        rw [← last.2]
        exact last.1.2 above listed outermost.1
      have inside := callsOf_pos.mpr (.inr last.1.1)
      rw [others, if_pos inside]
      split_ifs <;> omega
    · rw [if_neg (by simpa using last), Nat.add_zero]
      refine inductionHypothesis.trans ?_
      split_ifs <;> omega

/-- Of the calls of the region's function that lead to a node, all but the outermost one are
inside the region. -/
theorem countP_lineage_inner (linked : Linked tree) (index : NodeIndex) :
    (tree.lineage index).countP (fun above => tree.InRegion region above ∧
      (tree.node above).label = region) = tree.callsOf region index - 1 := by
  induction index using linked.induction_above with
  | top index isTop =>
    have outside : ¬ tree.InRegion region index := inRegion_of_no_parent isTop
    rw [lineage_of_no_parent isTop, callsOf_of_no_parent isTop]
    split <;> simp [outside]
  | step index parent isParent inductionHypothesis =>
    have inside : tree.InRegion region index ↔ _ := linked.inRegion_iff_callsOf_pos isParent
    rw [linked.lineage_of_parent isParent, List.countP_cons, inductionHypothesis,
      linked.callsOf_of_parent isParent]
    simp only [inside, decide_eq_true_eq]
    by_cases isCall : (tree.node index).label = region
    · by_cases above : 0 < tree.callsOf region parent <;> simp [isCall, above] <;> omega
    · simp [isCall]

/-- Below the nodes that start a region every node reached by a call of its function is counted
once. -/
theorem sum_weightBelow_starts_eq_callsOf (linked : Linked tree) (region : String) :
    ∑ index ∈ Finset.range tree.size with tree.StartsRegion region index, tree.weightBelow index =
      ∑ index ∈ Finset.range tree.size,
        (if 0 < tree.callsOf region index then 1 else 0) * (tree.node index).selfWeight := by
  rw [linked.sum_weightBelow_starts, Finset.sum_filter]
  refine Finset.sum_congr rfl fun index _ => ?_
  rw [ite_mul, one_mul, zero_mul]
  exact if_congr callsOf_pos.symm rfl rfl

end Linked

namespace Collected

variable {flat : CallTree} {indices : List NodeIndex} {row : NodeIndex}
  (collected : Collected (indices.filterMap (tree.share tree.weightBelow region)) flat)
  (all : indices.Perm (List.range tree.size)) (linked : Linked tree)
  (isRow : row ∈ (flat.node 0).children)

include collected all linked isRow

/-- The region's own row adds up what is below every call of the region's function that is
inside, outermost or not. -/
theorem totalWeight_region (same : (flat.node row).label = region) :
    (flat.node row).totalWeight = ∑ index ∈ Finset.range tree.size,
      (tree.callsOf region index - 1) * (tree.node index).selfWeight := by
  have inside := (collected.trie.mem_children.mp isRow).1
  have below : (flat.node row).totalWeight =
      ∑ index ∈ Finset.range tree.size with
        tree.InRegion region index ∧ (tree.node index).label = region,
          tree.weightBelow index := by
    rw [collected.totalWeight_eq all inside, collected.pathLabels_row isRow, Finset.sum_filter]
    refine Finset.sum_congr rfl fun index _ => ?_
    rw [elim_share, same]
    by_cases within : tree.InRegion region index
    · by_cases isCall : (tree.node index).label = region <;>
        simp [Contribution.labels, within, isCall]
    · simp [Contribution.labels, within]
  rw [below, linked.sum_weightBelow]
  simp only [linked.countP_lineage_inner]

/-- No other row adds up more than the root. -/
theorem totalWeight_le_root (different : (flat.node row).label ≠ region) :
    (flat.node row).totalWeight ≤ (flat.node 0).totalWeight := by
  rw [collected.totalWeight_row all linked isRow different, collected.totalWeight_root all,
    linked.sum_weightBelow, linked.sum_weightBelow_starts_eq_callsOf]
  exact Finset.sum_le_sum fun index _ =>
    Nat.mul_le_mul_right _ (linked.countP_lineage_outermost _ index)

/-- Neither does the region's row when samples are below two calls of its function at most. -/
theorem totalWeight_region_le_root (same : (flat.node row).label = region)
    (twice : ∀ index < tree.size, 0 < (tree.node index).selfWeight →
      tree.callsOf region index ≤ 2) :
    (flat.node row).totalWeight ≤ (flat.node 0).totalWeight := by
  rw [collected.totalWeight_region all linked isRow same, collected.totalWeight_root all,
    linked.sum_weightBelow_starts_eq_callsOf]
  refine Finset.sum_le_sum fun index listed => ?_
  rcases Nat.eq_zero_or_pos (tree.node index).selfWeight with unsampled | sampled
  · simp [unsampled]
  · have few := twice index (Finset.mem_range.mp listed) sampled
    refine Nat.mul_le_mul_right _ ?_
    split_ifs <;> omega

end Collected

end CallTree

namespace GrowingTree

variable {growing : GrowingTree}

/-- How a flat tree counts recursion. The rows of other functions than the region's add up no
more than the root. The region's row adds up every sample as often as calls of the function
lead to it, the outermost one apart, so it adds up no more than the root where samples are below
two such calls at most. -/
theorem flat_recursion (arises : Arises .nested growing) (region : Option String)
    (ids : IdSupply) :
    let name := region.getD CallTree.rootLabel
    let flat := (growing.tree.flat region ids).tree
    (∀ row ∈ (flat.node 0).children, (flat.node row).label ≠ name →
      (flat.node row).totalWeight ≤ (flat.node 0).totalWeight) ∧
    (∀ row ∈ (flat.node 0).children, (flat.node row).label = name →
      (flat.node row).totalWeight = ∑ index ∈ Finset.range growing.tree.size,
        (growing.tree.callsOf name index - 1) * (growing.tree.node index).selfWeight) ∧
    ((∀ index < growing.tree.size, 0 < (growing.tree.node index).selfWeight →
        growing.tree.callsOf name index ≤ 2) →
      ∀ row ∈ (flat.node 0).children,
        (flat.node row).totalWeight ≤ (flat.node 0).totalWeight) := by
  intro name flat
  obtain ⟨indices, all, collected⟩ := arises.exists_collected_flat region ids
  have linked := arises.trie.toLinked
  refine ⟨fun row isRow => collected.totalWeight_le_root all linked isRow,
    fun row isRow => collected.totalWeight_region all linked isRow, fun twice row isRow => ?_⟩
  rcases eq_or_ne (flat.node row).label name with same | different
  · exact collected.totalWeight_region_le_root all linked isRow same twice
  · exact collected.totalWeight_le_root all linked isRow different

/-- Two functions that call each other, the first one three times. -/
def callingBack : GrowingTree :=
  let path := [("f", none), ("g", none), ("f", none), ("g", none), ("f", none)]
  let nested := ((fresh CallTree.rootLabel none).addPath path).2
  nested.mapTree fun tree => tree.recordSample 5 none

theorem arises_callingBack : Arises .nested callingBack :=
  ((Arises.fresh CallTree.rootLabel none).addPath
    [("f", none), ("g", none), ("f", none), ("g", none), ("f", none)]).recordSample 5 none

/-- The one sample is below two calls of the second function, and in the third call of the
first. -/
theorem flat_recursion_callingBack : Arises .nested callingBack ∧
    (callingBack.tree.flat (some "g") callingBack.ids).tree.nodes.toList.map
      (fun row => (row.label, row.totalWeight)) = [("g", 1), ("f", 1), ("g", 1)] ∧
    (callingBack.tree.flat (some "f") callingBack.ids).tree.nodes.toList.map
      (fun row => (row.label, row.totalWeight)) = [("f", 1), ("g", 1), ("f", 2)] ∧
    (∀ row ∈ ((callingBack.tree.flat (some "g") callingBack.ids).tree.node 0).children,
      ((callingBack.tree.flat (some "g") callingBack.ids).tree.node row).totalWeight ≤
        ((callingBack.tree.flat (some "g") callingBack.ids).tree.node 0).totalWeight) ∧
    ((callingBack.tree.flat (some "f") callingBack.ids).tree.node 2).totalWeight =
      ∑ index ∈ Finset.range callingBack.tree.size,
        (callingBack.tree.callsOf "f" index - 1) *
          (callingBack.tree.node index).selfWeight := by
  refine ⟨arises_callingBack, by decide +kernel, by decide +kernel, ?_, ?_⟩
  · exact (flat_recursion arises_callingBack (some "g") _).2.2 (by decide +kernel)
  · exact (flat_recursion arises_callingBack (some "f") _).2.1 2 (by decide +kernel)
      (by decide +kernel)

/-- A function that calls itself three times. -/
def callingItself : GrowingTree :=
  let nested := ((fresh CallTree.rootLabel none).addPath [("f", none), ("f", none), ("f", none)]).2
  nested.mapTree fun tree => tree.recordSample 3 none

/-- A row of a flat tree may add up more than its root. The one sample is counted for the second
call of the function and again for the third. -/
theorem flat_callingItself : Arises .nested callingItself ∧
    (callingItself.tree.flat (some "f") callingItself.ids).tree.nodes.toList.map
      (fun row => (row.label, row.selfWeight, row.totalWeight)) =
        [("f", 0, 1), ("f", 1, 2)] ∧
    ∃ row ∈ ((callingItself.tree.flat (some "f") callingItself.ids).tree.node 0).children,
      ((callingItself.tree.flat (some "f") callingItself.ids).tree.node 0).totalWeight <
        ((callingItself.tree.flat (some "f") callingItself.ids).tree.node row).totalWeight :=
  ⟨((Arises.fresh CallTree.rootLabel none).addPath
    [("f", none), ("f", none), ("f", none)]).recordSample 3 none,
    by decide +kernel, by decide +kernel⟩

end GrowingTree

end JitTrace
