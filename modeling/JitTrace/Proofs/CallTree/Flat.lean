import JitTrace.Proofs.CallTree.FlatWalk

/-!
# The flat tree

The rows of a flat tree are the labels of the nodes inside a region, those below a node that
carries the region's label. A row adds up the samples of all such nodes, and for its total
what is below the outermost ones, so that recursion is counted once. The root stands for the
nodes that start the region. Above every counted node there is one of these, or it is one, so
the root's total is all that was counted.
-/

namespace JitTrace

namespace CallTree

variable {tree : CallTree} {region : String} {index : NodeIndex}

/-! ## Regions -/

/-- A node above carries the region's label. -/
def InRegion (tree : CallTree) (region : String) (index : NodeIndex) : Prop :=
  ∃ above ∈ tree.ancestors index, (tree.node above).label = region

/-- A node carries the region's label and no node above it does. -/
def StartsRegion (tree : CallTree) (region : String) (index : NodeIndex) : Prop :=
  (tree.node index).label = region ∧ ¬ tree.InRegion region index

/-- A node is inside the region, and no node above it is inside with the same label. -/
def OutermostIn (tree : CallTree) (region : String) (index : NodeIndex) : Prop :=
  tree.InRegion region index ∧ ∀ above ∈ tree.ancestors index,
    tree.InRegion region above → (tree.node above).label ≠ (tree.node index).label

instance (tree : CallTree) (region : String) : DecidablePred (tree.InRegion region) :=
  fun index => inferInstanceAs (Decidable (∃ above ∈ tree.ancestors index, _))

instance (tree : CallTree) (region : String) : DecidablePred (tree.StartsRegion region) :=
  fun _ => inferInstanceAs (Decidable (_ ∧ _))

instance (tree : CallTree) (region : String) : DecidablePred (tree.OutermostIn region) :=
  fun _ => inferInstanceAs (Decidable (_ ∧ _))

theorem inRegion_iff : tree.InRegion region index ↔ region ∈ tree.labelsAbove index :=
  List.mem_map.symm

namespace Linked

theorem inRegion_of_no_parent (isTop : (tree.node index).parent = none) :
    ¬ tree.InRegion region index := by
  rw [InRegion, ancestors, isTop]
  simp

theorem inRegion_of_parent (linked : Linked tree) {parent : NodeIndex}
    (isParent : (tree.node index).parent = some parent) :
    tree.InRegion region index ↔
      (tree.node parent).label = region ∨ tree.InRegion region parent := by
  rw [InRegion, linked.ancestors_of_parent isParent, lineage, List.exists_mem_cons_iff]
  rfl

/-- A label is nested above a node when a node there carries it, in the region or starting
it. -/
theorem nesting_pos (linked : Linked tree) {label : String} :
    0 < nesting region label (tree.labelsAbove index) ↔ ∃ above ∈ tree.ancestors index,
      (tree.node above).label = label ∧ (label = region ∨ tree.InRegion region above) := by
  induction index using linked.induction_above with
  | top index isTop =>
    rw [labelsAbove, ancestors, isTop]
    simp [nesting]
  | step index parent isParent inductionHypothesis =>
    rw [linked.labelsAbove_of_parent isParent, linked.ancestors_of_parent isParent, lineage,
      List.exists_mem_cons_iff, nesting, Nat.add_pos_iff_pos_or_pos, inductionHypothesis,
      or_comm, inRegion_iff]
    refine or_congr_left ?_
    by_cases same : label = (tree.node parent).label
    · subst same
      by_cases counted : (tree.node parent).label = region ∨ region ∈ tree.labelsAbove parent <;>
        simp [counted]
    · simp [same, Ne.symm same]

theorem nesting_eq_zero (linked : Linked tree) (inside : tree.InRegion region index)
    (different : (tree.node index).label ≠ region) :
    nesting region (tree.node index).label (tree.labelsAbove index) = 0 ↔
      tree.OutermostIn region index := by
  rw [OutermostIn, and_iff_right inside, ← Nat.le_zero, ← Nat.not_lt, linked.nesting_pos]
  simp only [or_iff_right different, not_exists, not_and]
  exact forall₂_congr fun _ _ => imp_not_comm

/-- The nodes above a node are met once each. -/
theorem nodup_lineage (linked : Linked tree) (index : NodeIndex) : (tree.lineage index).Nodup := by
  induction index using linked.induction_above with
  | top index isTop =>
    rw [lineage_of_no_parent isTop]
    exact List.nodup_singleton index
  | step index parent isParent inductionHypothesis =>
    rw [linked.lineage_of_parent isParent, List.nodup_cons]
    refine ⟨fun above => ?_, inductionHypothesis⟩
    exact Nat.not_le_of_lt (linked.parent_lt isParent) (linked.le_of_mem_lineage above)

/-- What is below some nodes is what every node holds, as often as some of them are above it. -/
theorem sum_weightBelow (linked : Linked tree) (wanted : NodeIndex → Prop)
    [DecidablePred wanted] :
    ∑ index ∈ Finset.range tree.size with wanted index, tree.weightBelow index =
      ∑ index ∈ Finset.range tree.size,
        (tree.lineage index).countP (wanted ·) * (tree.node index).selfWeight := by
  have above : ∀ other ∈ Finset.range tree.size,
      (Finset.range tree.size).filter (· ∈ tree.lineage other) = (tree.lineage other).toFinset := by
    intro other inside
    ext index
    rw [Finset.mem_filter, Finset.mem_range, List.mem_toFinset, and_iff_right_iff_imp]
    intro isAbove
    exact Nat.lt_of_le_of_lt (linked.le_of_mem_lineage isAbove) (Finset.mem_range.mp inside)
  calc ∑ index ∈ Finset.range tree.size with wanted index, tree.weightBelow index
    _ = ∑ index ∈ Finset.range tree.size, ∑ other ∈ Finset.range tree.size,
        if index ∈ tree.lineage other then
          if wanted index then (tree.node other).selfWeight else 0
        else 0 := by
      rw [Finset.sum_filter]
      refine Finset.sum_congr rfl fun index _ => ?_
      by_cases isWanted : wanted index
      · simp only [isWanted, if_true, weightBelow, Finset.sum_filter]
      · simp only [isWanted, if_false, ite_self, Finset.sum_const_zero]
    _ = ∑ other ∈ Finset.range tree.size, ∑ index ∈ (tree.lineage other).toFinset,
        if wanted index then (tree.node other).selfWeight else 0 := by
      rw [Finset.sum_comm]
      refine Finset.sum_congr rfl fun other inside => ?_
      rw [← above other inside, Finset.sum_filter]
    _ = ∑ other ∈ Finset.range tree.size,
        (tree.lineage other).countP (wanted ·) * (tree.node other).selfWeight := by
      refine Finset.sum_congr rfl fun other _ => ?_
      rw [← Finset.sum_filter, Finset.sum_const_nat fun _ _ => rfl, List.countP_eq_length_filter,
        ← List.toFinset_card_of_nodup ((linked.nodup_lineage other).filter _),
        List.toFinset_filter]
      simp only [decide_eq_true_eq]

/-- A node that starts the region or is inside has one node above it, or is itself the one,
that starts the region, and no other node has any. -/
theorem countP_lineage_starts (linked : Linked tree) (index : NodeIndex) :
    (tree.lineage index).countP (tree.StartsRegion region ·) =
      if (tree.node index).label = region ∨ tree.InRegion region index then 1 else 0 := by
  induction index using linked.induction_above with
  | top index isTop =>
    have outside : ¬ tree.InRegion region index := inRegion_of_no_parent isTop
    simp [lineage_of_no_parent isTop, StartsRegion, outside]
  | step index parent isParent inductionHypothesis =>
    rw [linked.lineage_of_parent isParent, List.countP_cons, inductionHypothesis]
    simp only [← linked.inRegion_of_parent isParent]
    by_cases inside : tree.InRegion region index <;> simp [StartsRegion, inside]

/-- What is below the nodes that start a region is what the nodes there and inside it add up
to. -/
theorem sum_weightBelow_starts (linked : Linked tree) (region : String) :
    ∑ index ∈ Finset.range tree.size with tree.StartsRegion region index, tree.weightBelow index =
      ∑ index ∈ Finset.range tree.size with
        (tree.node index).label = region ∨ tree.InRegion region index,
          (tree.node index).selfWeight := by
  rw [linked.sum_weightBelow, Finset.sum_filter]
  refine Finset.sum_congr rfl fun index _ => ?_
  rw [linked.countP_lineage_starts, ite_mul, one_mul, zero_mul]

end Linked

/-! ## Shares -/

/-- What a node contributes depends on weights and labels alone. -/
theorem Reweighted.share {before after : CallTree} (same : Reweighted before after)
    (selfWeight : ∀ index, (after.node index).selfWeight = (before.node index).selfWeight)
    {oldTotal newTotal : NodeIndex → Nat} (total : newTotal index = oldTotal index) :
    after.share newTotal region index = before.share oldTotal region index := by
  have labels : after.labelsAbove index = before.labelsAbove index := by
    simp only [labelsAbove, same.ancestors, same.label]
  have entry := same.read CallNode.entry (fun _ => rfl) index
  simp only [CallTree.share, labels, same.label, entry, selfWeight, total]

/-- What a node contributes, by where it stands. -/
theorem elim_share (total : NodeIndex → Nat) (contributed : Contribution → Nat) :
    (tree.share total region index).elim 0 contributed =
      if tree.InRegion region index then
        contributed {
          path := [((tree.node index).label, (tree.node index).entry)]
          own := (tree.node index).selfWeight
          total :=
            if (tree.node index).label = region ∨
                nesting region (tree.node index).label (tree.labelsAbove index) = 0 then
              total index
            else 0 }
      else if (tree.node index).label = region then
        contributed { path := [], own := (tree.node index).selfWeight, total := total index }
      else 0 := by
  simp only [share, ← inRegion_iff]
  split
  · rfl
  · split <;> rfl

/-- Contributions of all nodes are those of the nodes, in whatever order they were made. -/
theorem sum_shares {indices : List NodeIndex} (all : indices.Perm (List.range tree.size))
    (take : NodeIndex → Option Contribution) (contributed : Contribution → Nat) :
    ((indices.filterMap take).map contributed).sum =
      ∑ index ∈ Finset.range tree.size, (take index).elim 0 contributed := by
  have each : ((indices.filterMap take).map contributed).sum =
      (indices.map fun index => (take index).elim 0 contributed).sum := by
    clear all
    induction indices with
    | nil => rfl
    | cons index indices inductionHypothesis =>
      rw [List.filterMap_cons, List.map_cons, List.sum_cons, ← inductionHypothesis]
      cases take index <;> simp
  have nodes : (List.range tree.size).toFinset = Finset.range tree.size := by
    ext index
    rw [List.mem_toFinset, List.mem_range, Finset.mem_range]
  rw [each, (all.map _).sum_eq, ← List.sum_toFinset _ List.nodup_range, nodes]

/-! ## Rows -/

/-- The second tree is the first's flat tree of a region. -/
structure Flattens (tree : CallTree) (region : String) (flat : CallTree) : Prop where
  /-- No two rows have one label. -/
  distinct : ((flat.node 0).children.toList.map fun row => (flat.node row).label).Nodup
  /-- The labels of the rows are those of the nodes inside the region. -/
  labels : ∀ label, (∃ row ∈ (flat.node 0).children, (flat.node row).label = label) ↔
    ∃ index < tree.size, tree.InRegion region index ∧ (tree.node index).label = label
  selfWeight : ∀ row ∈ (flat.node 0).children, (flat.node row).selfWeight =
    ∑ index ∈ Finset.range tree.size with
      tree.InRegion region index ∧ (tree.node index).label = (flat.node row).label,
        (tree.node index).selfWeight
  totalWeight : ∀ row ∈ (flat.node 0).children, (flat.node row).label ≠ region →
    (flat.node row).totalWeight = ∑ index ∈ Finset.range tree.size with
      tree.OutermostIn region index ∧ (tree.node index).label = (flat.node row).label,
        tree.weightBelow index
  selfWeight_root : (flat.node 0).selfWeight =
    ∑ index ∈ Finset.range tree.size with tree.StartsRegion region index,
      (tree.node index).selfWeight
  totalWeight_root : (flat.node 0).totalWeight =
    ∑ index ∈ Finset.range tree.size with tree.StartsRegion region index, tree.weightBelow index
  /-- The root's total is what the root and the rows hold themselves. -/
  balanced : (flat.node 0).selfWeight +
    ((flat.node 0).children.toList.map fun row => (flat.node row).selfWeight).sum =
      (flat.node 0).totalWeight

namespace Collected

variable {flat : CallTree} {indices : List NodeIndex} {row : NodeIndex}

theorem pathLabels_row {contributions : List Contribution}
    (collected : Collected contributions flat) (isRow : row ∈ (flat.node 0).children) :
    flat.pathLabels row = [(flat.node row).label] := by
  have isParent := (collected.trie.mem_children.mp isRow).2
  rw [collected.trie.toLinked.pathLabels_of_parent isParent, pathLabels_root, List.nil_append]

section Shares

variable {total : NodeIndex → Nat}
  (collected : Collected (indices.filterMap (tree.share total region)) flat)
  (all : indices.Perm (List.range tree.size))

include collected all

/-- What a node holds is what was contributed on its path. -/
theorem selfWeight_eq (inside : row < flat.size) : (flat.node row).selfWeight =
    ∑ index ∈ Finset.range tree.size, (tree.share total region index).elim 0
      fun contribution =>
        if contribution.labels == flat.pathLabels row then contribution.own else 0 := by
  rw [collected.trie.weight_eq_weightOn CallNode.selfWeight inside, collected.selfWeight,
    sum_shares all]

theorem totalWeight_eq (inside : row < flat.size) : (flat.node row).totalWeight =
    ∑ index ∈ Finset.range tree.size, (tree.share total region index).elim 0
      fun contribution =>
        if contribution.labels == flat.pathLabels row then contribution.total else 0 := by
  rw [collected.trie.weight_eq_weightOn CallNode.totalWeight inside, collected.totalWeight,
    sum_shares all]

theorem exists_row (label : String) :
    (∃ row ∈ (flat.node 0).children, (flat.node row).label = label) ↔
      ∃ index < tree.size, tree.InRegion region index ∧ (tree.node index).label = label := by
  have found : (∃ row ∈ (flat.node 0).children, (flat.node row).label = label) ↔
      flat.HasPath [label] := by
    simp only [HasPath, findPath?, findFrom?_singleton, collected.trie.findChild]
  have taken : ∀ index, (∃ contribution ∈ tree.share total region index,
      [label] <+: contribution.labels) ↔
        tree.InRegion region index ∧ (tree.node index).label = label := by
    intro index
    simp only [share, ← inRegion_iff]
    split
    · rename_i inside
      simp [Contribution.labels, inside, eq_comm]
    · rename_i outside
      split <;> simp [Contribution.labels, outside]
  rw [found, collected.hasPath, or_iff_right (List.cons_ne_nil label [])]
  constructor
  · rintro ⟨contribution, contributed, goesOn⟩
    obtain ⟨index, listed, isShare⟩ := List.mem_filterMap.mp contributed
    have inside := List.mem_range.mp (all.mem_iff.mp listed)
    exact ⟨index, inside, (taken index).mp ⟨contribution, isShare, goesOn⟩⟩
  · rintro ⟨index, inside, counted⟩
    obtain ⟨contribution, isShare, goesOn⟩ := (taken index).mpr counted
    have listed := all.mem_iff.mpr (List.mem_range.mpr inside)
    exact ⟨contribution, List.mem_filterMap.mpr ⟨index, listed, isShare⟩, goesOn⟩

theorem selfWeight_row (isRow : row ∈ (flat.node 0).children) : (flat.node row).selfWeight =
    ∑ index ∈ Finset.range tree.size with
      tree.InRegion region index ∧ (tree.node index).label = (flat.node row).label,
        (tree.node index).selfWeight := by
  have inside := (collected.trie.mem_children.mp isRow).1
  rw [collected.selfWeight_eq all inside, collected.pathLabels_row isRow, Finset.sum_filter]
  refine Finset.sum_congr rfl fun index _ => ?_
  rw [elim_share]
  by_cases within : tree.InRegion region index <;> simp [Contribution.labels, within]

theorem totalWeight_row (linked : Linked tree) (isRow : row ∈ (flat.node 0).children)
    (different : (flat.node row).label ≠ region) : (flat.node row).totalWeight =
    ∑ index ∈ Finset.range tree.size with
      tree.OutermostIn region index ∧ (tree.node index).label = (flat.node row).label,
        total index := by
  have inside := (collected.trie.mem_children.mp isRow).1
  rw [collected.totalWeight_eq all inside, collected.pathLabels_row isRow, Finset.sum_filter]
  refine Finset.sum_congr rfl fun index _ => ?_
  rw [elim_share]
  by_cases within : tree.InRegion region index
  · by_cases same : (tree.node index).label = (flat.node row).label
    · rw [← same] at different
      simp [Contribution.labels, within, ← same, linked.nesting_eq_zero within different, different]
    · simp [Contribution.labels, within, same]
  · simp [Contribution.labels, within, OutermostIn]

theorem selfWeight_root : (flat.node 0).selfWeight =
    ∑ index ∈ Finset.range tree.size with tree.StartsRegion region index,
      (tree.node index).selfWeight := by
  rw [collected.selfWeight_eq all collected.trie.nonempty, pathLabels_root, Finset.sum_filter]
  refine Finset.sum_congr rfl fun index _ => ?_
  rw [elim_share]
  by_cases within : tree.InRegion region index <;> simp [Contribution.labels, StartsRegion, within]

theorem totalWeight_root : (flat.node 0).totalWeight =
    ∑ index ∈ Finset.range tree.size with tree.StartsRegion region index, total index := by
  rw [collected.totalWeight_eq all collected.trie.nonempty, pathLabels_root, Finset.sum_filter]
  refine Finset.sum_congr rfl fun index _ => ?_
  rw [elim_share]
  by_cases within : tree.InRegion region index <;> simp [Contribution.labels, StartsRegion, within]

/-- The rows hold together what the nodes inside the region hold, each in the one row of its
label. -/
theorem sum_rows :
    ((flat.node 0).children.toList.map fun row => (flat.node row).selfWeight).sum =
      ∑ index ∈ Finset.range tree.size with tree.InRegion region index,
        (tree.node index).selfWeight := by
  let labels := (flat.node 0).children.toList.map fun row => (flat.node row).label
  have distinct : labels.Nodup := collected.trie.distinct_labels 0
  have isLabel : ∀ index ∈ (Finset.range tree.size).filter (tree.InRegion region),
      (tree.node index).label ∈ labels.toFinset := by
    intro index counted
    rw [Finset.mem_filter, Finset.mem_range] at counted
    obtain ⟨row, isRow, same⟩ :=
      (collected.exists_row all _).mpr ⟨index, counted.1, counted.2, rfl⟩
    exact List.mem_toFinset.mpr (List.mem_map.mpr ⟨row, Array.mem_toList_iff.mpr isRow, same⟩)
  have rows : (flat.node 0).children.toList.map (fun row => (flat.node row).selfWeight) =
      labels.map fun label => ∑ index ∈ Finset.range tree.size with
        tree.InRegion region index ∧ (tree.node index).label = label,
          (tree.node index).selfWeight := by
    rw [List.map_map]
    exact List.map_congr_left fun row listed =>
      collected.selfWeight_row all (Array.mem_toList_iff.mp listed)
  simp only [rows, ← List.sum_toFinset _ distinct, ← Finset.filter_filter]
  exact Finset.sum_fiberwise_of_maps_to isLabel _

end Shares

section Below

variable (collected : Collected (indices.filterMap (tree.share tree.weightBelow region)) flat)
  (all : indices.Perm (List.range tree.size)) (linked : Linked tree)

include collected all linked

/-- The nodes of a flat tree hold together what the counted nodes hold. -/
theorem balanced : (flat.node 0).selfWeight +
    ((flat.node 0).children.toList.map fun row => (flat.node row).selfWeight).sum =
      (flat.node 0).totalWeight := by
  rw [collected.selfWeight_root all, collected.sum_rows all, collected.totalWeight_root all,
    linked.sum_weightBelow_starts, Finset.sum_filter, Finset.sum_filter, Finset.sum_filter,
    ← Finset.sum_add_distrib]
  refine Finset.sum_congr rfl fun index _ => ?_
  by_cases inside : tree.InRegion region index <;> simp [StartsRegion, inside]

theorem flattens : Flattens tree region flat where
  distinct := collected.trie.distinct_labels 0
  labels := collected.exists_row all
  selfWeight _ := collected.selfWeight_row all
  totalWeight _ := collected.totalWeight_row all linked
  selfWeight_root := collected.selfWeight_root all
  totalWeight_root := collected.totalWeight_root all
  balanced := collected.balanced all linked

end Below

end Collected

/-- The walk makes the flat tree of what all nodes contribute. -/
theorem Trie.exists_collected_flat (trie : tree.Trie) {total : NodeIndex → Nat}
    (isTotal : ∀ index < tree.size, (tree.withTotals.node index).totalWeight = total index)
    (region : Option String) (ids : IdSupply) :
    ∃ indices : List NodeIndex, indices.Perm (List.range tree.size) ∧
      Collected (indices.filterMap (tree.share total (region.getD rootLabel)))
        (tree.flat region ids).tree := by
  let name := region.getD rootLabel
  let counted := tree.withTotals
  have same := Reweighted.withTotals tree
  have linked := trie.toLinked.reweighted same
  have all : (counted.below 0).Perm (List.range tree.size) := same.size ▸ linked.below_root_perm
  have outside : counted.labelsAbove 0 = [] := by
    rw [labelsAbove, ancestors, linked.root]
    rfl
  have starts : ({ growing := GrowingTree.start name none ids } : FlatWalk).StandsBelow name
      (counted.labelsAbove 0) := outside ▸ fun _ => rfl
  have walked := (linked.foldl_visits 0 starts).2
  have shares : (counted.below 0).filterMap
      (counted.share (fun index => (counted.node index).totalWeight) name) =
        (counted.below 0).filterMap (tree.share total name) := by
    refine List.filterMap_congr fun index listed => ?_
    have inside := List.mem_range.mp (all.mem_iff.mp listed)
    exact same.share (selfWeight_withTotals tree) (isTotal index inside)
  have collected := (Collected.start name none ids).foldl
    ((counted.below 0).filterMap (tree.share total name))
  rw [List.nil_append, ← shares, ← walked, shares, ← linked.depthFirst_eq] at collected
  exact ⟨_, all, collected.reweighted ⟨rfl, fun _ => rfl⟩ (fun _ => rfl) fun _ => rfl⟩

end CallTree

namespace GrowingTree

open CallTree (Collected Flattens)

variable {growing : GrowingTree}

theorem Arises.exists_collected_flat (arises : Arises .nested growing) (region : Option String)
    (ids : IdSupply) :
    ∃ indices : List NodeIndex, indices.Perm (List.range growing.tree.size) ∧
      Collected (indices.filterMap (growing.tree.share growing.tree.weightBelow
        (region.getD CallTree.rootLabel))) (growing.tree.flat region ids).tree :=
  arises.trie.exists_collected_flat (fun _ => arises.totalWeight_withTotals) region ids

/-- The flat tree of a tree that arises other than as rows lists the functions of the region,
and the total weights that it is computed from are the weights below the nodes. -/
theorem flat_of_arises (arises : Arises .nested growing) (region : Option String)
    (ids : IdSupply) :
    (∀ index < growing.tree.size,
      (growing.tree.withTotals.node index).totalWeight = growing.tree.weightBelow index) ∧
      Flattens growing.tree (region.getD CallTree.rootLabel)
        (growing.tree.flat region ids).tree := by
  obtain ⟨indices, all, collected⟩ := arises.exists_collected_flat region ids
  exact ⟨fun _ => arises.totalWeight_withTotals, collected.flattens all arises.trie.toLinked⟩

/-- Two functions that call each other, with samples in both calls of the second, which a third
function calls as well. -/
def regions : GrowingTree :=
  let path := [("main", none), ("work", none), ("main", none), ("work", none)]
  let nested := ((fresh CallTree.rootLabel none).addPath path).2
  let inner := nested.mapTree fun tree => tree.recordSample 4 none
  let outer := inner.mapTree fun tree => tree.recordSample 2 none
  let called := (outer.addPath [("idle", none), ("work", none)]).2
  called.mapTree fun tree => tree.recordSample 6 none

theorem arises_regions : Arises .nested regions := by
  have nested := (Arises.fresh CallTree.rootLabel none).addPath
    [("main", none), ("work", none), ("main", none), ("work", none)]
  have outer := (nested.recordSample 4 none).recordSample 2 none
  exact (outer.addPath [("idle", none), ("work", none)]).recordSample 6 none

/-- The sample outside the region is not counted, and what is below the inner call of the
second function is counted once. -/
theorem flat_regions : Arises .nested regions ∧
    (regions.tree.flat (some "main") regions.ids).tree.nodes.toList.map
      (fun row => (row.label, row.selfWeight, row.totalWeight)) =
        [("main", 0, 2), ("work", 2, 2), ("main", 0, 1)] ∧
    Flattens regions.tree "main" (regions.tree.flat (some "main") regions.ids).tree :=
  ⟨arises_regions, by decide +kernel, (flat_of_arises arises_regions (some "main") _).2⟩

end GrowingTree

end JitTrace
