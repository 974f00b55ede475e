import JitTrace.CallTree.Report
import JitTrace.Proofs.CallTree.Flat

/-!
# What a function listing holds

A function listing is made of the rows of the flat tree, cut off after the most expensive ones.
Every label has one row, so no row is cut off when as many rows are asked for as the tree has
labels, and the order of the rows does not matter to what they add up to.

The flat tree is that of the region of `rootLabel`. In a tree whose root carries this label,
every other node is inside. In any other tree a node is inside only where a node above it
happens to carry the label, and the samples of all others are in no row.
-/

namespace JitTrace

open CallTree (rootLabel)

namespace CallTree

variable {tree : CallTree} {region : String}

/-- The labels of the nodes of a tree. -/
def labels (tree : CallTree) : Finset String :=
  (Finset.range tree.size).image fun index => (tree.node index).label

/-- The samples of the whole tree. -/
def samples (tree : CallTree) : Nat :=
  ∑ index ∈ Finset.range tree.size, (tree.node index).selfWeight

/-- The samples of the nodes below the root that are outside a region. -/
def samplesOutside (tree : CallTree) (region : String) : Nat :=
  ∑ index ∈ (Finset.range tree.size).erase 0 with ¬ tree.InRegion region index,
    (tree.node index).selfWeight

/-- Below a root that carries the region's label, every node is inside the region. -/
theorem Linked.inRegion_of_root (linked : Linked tree) (isRegion : (tree.node 0).label = region)
    {index : NodeIndex} (inside : index < tree.size) (notRoot : index ≠ 0) :
    tree.InRegion region index :=
  ⟨0, (List.mem_cons.mp (linked.root_mem_lineage inside)).resolve_left notRoot.symm, isRegion⟩

/-- The nodes of a tree are the root and those inside and outside a region. -/
theorem Linked.samples_eq (linked : Linked tree) (region : String) :
    tree.samples = (tree.node 0).selfWeight +
      ∑ index ∈ Finset.range tree.size with tree.InRegion region index,
        (tree.node index).selfWeight + tree.samplesOutside region := by
  have outside : ¬ tree.InRegion region 0 := inRegion_of_no_parent linked.root
  have inside : (Finset.range tree.size).filter (tree.InRegion region) =
      ((Finset.range tree.size).erase 0).filter (tree.InRegion region) := by
    rw [Finset.filter_erase, Finset.erase_eq_of_notMem]
    exact fun counted => outside (Finset.mem_filter.mp counted).2
  rw [inside, Nat.add_assoc, samplesOutside, Finset.sum_filter_add_sum_filter_not]
  exact (Finset.add_sum_erase _ (fun index => (tree.node index).selfWeight)
    (Finset.mem_range.mpr linked.nonempty)).symm

theorem samplesOutside_eq_zero : tree.samplesOutside region = 0 ↔ ∀ index < tree.size,
    index ≠ 0 → 0 < (tree.node index).selfWeight → tree.InRegion region index := by
  simp only [samplesOutside, Finset.sum_eq_zero_iff, Finset.mem_filter, Finset.mem_erase,
    Finset.mem_range]
  constructor
  · intro nothing index inside notRoot sampled
    by_contra outside
    exact sampled.ne' (nothing index ⟨⟨notRoot, inside⟩, outside⟩)
  · rintro each index ⟨⟨notRoot, inside⟩, outside⟩
    by_contra sampled
    exact outside (each index inside notRoot (Nat.pos_of_ne_zero sampled))

/-- A flat tree has no more rows than the tree has labels. -/
theorem Collected.length_rows_le {flat : CallTree} {indices : List NodeIndex}
    {total : NodeIndex → Nat}
    (collected : Collected (indices.filterMap (tree.share total region)) flat)
    (all : indices.Perm (List.range tree.size)) :
    (flat.node 0).children.toList.length ≤ tree.labels.card := by
  let labels := (flat.node 0).children.toList.map fun row => (flat.node row).label
  have length : labels.length = (flat.node 0).children.toList.length := List.length_map _
  rw [← length, ← List.toFinset_card_of_nodup (collected.trie.distinct_labels 0)]
  refine Finset.card_le_card fun label listed => ?_
  obtain ⟨row, isRow, isLabel⟩ := List.mem_map.mp (List.mem_toFinset.mp listed)
  obtain ⟨index, inside, -, same⟩ :=
    (collected.exists_row all label).mp ⟨row, Array.mem_toList_iff.mp isRow, isLabel⟩
  exact Finset.mem_image.mpr ⟨index, Finset.mem_range.mpr inside, same⟩

/-- Ranking the rows neither drops nor repeats one, and none is cut off when there is room for
all. -/
theorem sum_topFunctions {count : Nat} {ids : IdSupply}
    (enough : ((tree.flat none ids).tree.node 0).children.toList.length ≤ count)
    (kind : WeightKind) :
    ((tree.topFunctions count kind ids).1.map FunctionCost.selfWeight).sum =
      (((tree.flat none ids).tree.node 0).children.toList.map fun row =>
        ((tree.flat none ids).tree.node row).selfWeight).sum := by
  let flat := (tree.flat none ids).tree
  let rows := (flat.node 0).children.toList.map fun row =>
    functionCost (flat.node row) (max (flat.node 0).totalWeight 1).toFloat
  have room : (rows.mergeSort (ranksBefore kind)).length ≤ count := by
    rw [List.length_mergeSort, List.length_map]
    exact enough
  calc ((tree.topFunctions count kind ids).1.map FunctionCost.selfWeight).sum
    _ = (((rows.mergeSort (ranksBefore kind)).take count).map FunctionCost.selfWeight).sum := rfl
    _ = (rows.map FunctionCost.selfWeight).sum := by
      rw [List.take_of_length_le room, ((List.mergeSort_perm _ _).map _).sum_eq]
    _ = ((flat.node 0).children.toList.map fun row => (flat.node row).selfWeight).sum := by
      rw [List.map_map]
      rfl

end CallTree

namespace GrowingTree

variable {layout : Layout} {growing : GrowingTree}

/-- With room for every label, the rows of a function listing and the root hold all samples but
those of nodes outside the region of `rootLabel`. So no sample is lost exactly when every other
node with samples is inside, and none is lost where the root itself carries that label. -/
theorem topFunctions_of_arises (arises : Arises layout growing) {count : Nat}
    (enough : growing.tree.labels.card ≤ count) (kind : WeightKind) (ids : IdSupply) :
    let listed := ((growing.tree.topFunctions count kind ids).1.map FunctionCost.selfWeight).sum
    let own := (growing.tree.node 0).selfWeight
    listed + own + growing.tree.samplesOutside rootLabel = growing.tree.samples ∧
      (listed + own = growing.tree.samples ↔ ∀ index < growing.tree.size, index ≠ 0 →
        0 < (growing.tree.node index).selfWeight → growing.tree.InRegion rootLabel index) ∧
      ((growing.tree.node 0).label = rootLabel → listed + own = growing.tree.samples) := by
  intro listed own
  have linked := arises.trie.toLinked
  obtain ⟨indices, all, collected⟩ :=
    arises.trie.exists_collected_flat (fun _ _ => rfl) none ids
  have rows : listed = ∑ index ∈ Finset.range growing.tree.size with
      growing.tree.InRegion rootLabel index, (growing.tree.node index).selfWeight :=
    (CallTree.sum_topFunctions (Nat.le_trans (collected.length_rows_le all) enough) kind).trans
      (collected.sum_rows all)
  have split : listed + own + growing.tree.samplesOutside rootLabel = growing.tree.samples := by
    rw [linked.samples_eq rootLabel, ← rows, Nat.add_comm listed]
  have lossless : listed + own = growing.tree.samples ↔
      growing.tree.samplesOutside rootLabel = 0 := by
    omega
  refine ⟨split, lossless.trans CallTree.samplesOutside_eq_zero, fun isRegion => ?_⟩
  rw [lossless, CallTree.samplesOutside_eq_zero]
  exact fun index inside notRoot _ => linked.inRegion_of_root isRegion inside notRoot

/-- A tree with another root label. A function called from its root has a sample, and so has
one that is called from a node with the label `rootLabel`. -/
def underMain : GrowingTree :=
  let called := ((fresh "main" none).addPath [("work", none)]).2
  let nested := (called.addPath [(rootLabel, none), ("idle", none)]).2
  let once := nested.mapTree fun tree => tree.recordSample 1 none
  once.mapTree fun tree => tree.recordSample 3 none

theorem arises_underMain : Arises .nested underMain := by
  have called := (Arises.fresh "main" none).addPath [("work", none)]
  have nested := called.addPath [(rootLabel, none), ("idle", none)]
  exact (nested.recordSample 1 none).recordSample 3 none

/-- Of its two samples the listing holds the second. -/
theorem topFunctions_underMain : Arises .nested underMain ∧ underMain.tree.labels.card ≤ 4 ∧
    (underMain.tree.node 0).selfWeight = 0 ∧ underMain.tree.samples = 2 ∧
    underMain.tree.samplesOutside rootLabel = 1 ∧
    ((underMain.tree.topFunctions 4 .own underMain.ids).1.map FunctionCost.selfWeight).sum = 1 := by
  have enough : underMain.tree.labels.card ≤ 4 := by decide +kernel
  have own : (underMain.tree.node 0).selfWeight = 0 := by decide +kernel
  have samples : underMain.tree.samples = 2 := by decide +kernel
  have outside : underMain.tree.samplesOutside rootLabel = 1 := by decide +kernel
  have split := (topFunctions_of_arises arises_underMain enough .own underMain.ids).1
  rw [own, outside, samples] at split
  exact ⟨arises_underMain, enough, own, samples, outside, Nat.add_right_cancel split⟩

/-- A tree with another root label and one function, which has a sample. -/
def calledFromMain : GrowingTree :=
  let called := ((fresh "main" none).addPath [("work", none)]).2
  called.mapTree fun tree => tree.recordSample 1 none

/-- Its listing is empty. -/
theorem topFunctions_calledFromMain : Arises .nested calledFromMain ∧
    calledFromMain.tree.labels.card ≤ 2 ∧
    (calledFromMain.tree.topFunctions 2 .own calledFromMain.ids).1.length = 0 ∧
    ((calledFromMain.tree.topFunctions 2 .own calledFromMain.ids).1.map
      FunctionCost.selfWeight).sum + (calledFromMain.tree.node 0).selfWeight ≠
        calledFromMain.tree.samples :=
  ⟨((Arises.fresh "main" none).addPath [("work", none)]).recordSample 1 none,
    by decide +kernel, by decide +kernel, by decide +kernel⟩

end GrowingTree

end JitTrace
