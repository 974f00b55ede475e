import JitTrace.CallTree.Family
import JitTrace.Proofs.CallTree.Collecting

/-!
# The inverted tree

An inverted tree collects the samples of every node on the path of its callers. Read
backwards, that path is the path of the node, so what is counted on paths in the inverted tree
is what is counted on the reversed paths in the tree. That says where the inverted tree has
nodes and what their totals are, and that inverting twice restores what samples can be seen
of.
-/

namespace JitTrace

namespace CallTree

variable {tree : CallTree}

/-- The labels of a node and of its callers below the root, innermost first. -/
def callerLabels (tree : CallTree) (index : NodeIndex) : List String :=
  (tree.callChain index).map fun ancestor => (tree.node ancestor).label

theorem reverse_pathLabels (tree : CallTree) (index : NodeIndex) :
    (tree.pathLabels index).reverse = tree.callerLabels index :=
  List.reverse_reverse _

theorem callerLabels_eq_nil {index : NodeIndex} : tree.callerLabels index = [] ↔ index = 0 := by
  rw [callerLabels, List.map_eq_nil_iff, ← List.getLast?_eq_none_iff]
  exact topLevelAncestor?_eq_none

/-! ## What is collected -/

/-- The samples of a node on the path of its callers. -/
def callersOf (tree : CallTree) (index : NodeIndex) : Contribution where
  path := (tree.callChain index).map fun ancestor =>
    ((tree.node ancestor).label, (tree.node ancestor).entry)
  own := (tree.node index).selfWeight
  total := 0

theorem labels_callersOf (tree : CallTree) (index : NodeIndex) :
    (tree.callersOf index).labels = tree.callerLabels index := by
  rw [Contribution.labels, callersOf, List.map_map]
  rfl

theorem addCallers_eq (tree : CallTree) : tree.addCallers = fun growing index =>
    if (tree.node index).selfWeight != 0 then growing.collect (tree.callersOf index)
    else growing := by
  funext growing index
  rw [addCallers, bne]
  cases (tree.node index).selfWeight == 0 <;> rfl

/-- The nodes below the root that samples ended in. -/
def sampledNodes (tree : CallTree) : List NodeIndex :=
  ((List.range tree.size).drop 1).filter fun index => (tree.node index).selfWeight != 0

theorem foldl_addCallers (tree : CallTree) (growing : GrowingTree) :
    ((List.range tree.size).drop 1).foldl tree.addCallers growing =
      (tree.sampledNodes.map tree.callersOf).foldl GrowingTree.collect growing := by
  rw [List.foldl_map, sampledNodes, List.foldl_filter, addCallers_eq]

theorem mem_sampledNodes {index : Nat} : index ∈ tree.sampledNodes ↔
    index < tree.size ∧ index ≠ 0 ∧ 0 < (tree.node index).selfWeight := by
  rw [sampledNodes, List.mem_filter, List.range_eq_range', List.drop_range', List.mem_range'_1,
    bne_iff_ne]
  omega

theorem nodup_sampledNodes (tree : CallTree) : tree.sampledNodes.Nodup :=
  (List.nodup_range.sublist (List.drop_sublist _ _)).filter _

/-- Nodes without samples may be left out of a sum to which they contribute nothing. -/
theorem sum_sampledNodes {share : NodeIndex → Nat}
    (unsampled : ∀ index, (tree.node index).selfWeight = 0 → share index = 0) :
    (tree.sampledNodes.map share).sum =
      ∑ index ∈ (Finset.range tree.size).erase 0, share index := by
  have sampled : tree.sampledNodes.toFinset = ((Finset.range tree.size).erase 0).filter
      fun index => 0 < (tree.node index).selfWeight := by
    ext index
    rw [List.mem_toFinset, mem_sampledNodes, Finset.mem_filter, Finset.mem_erase, Finset.mem_range]
    tauto
  rw [← List.sum_toFinset _ tree.nodup_sampledNodes, sampled, Finset.sum_filter_of_ne]
  intro index _ counted
  exact Nat.pos_of_ne_zero fun isZero => counted (unsampled index isZero)

/-- What is counted on the reversed paths of a tree is what its sampled nodes contribute, and
the samples of the root. -/
theorem weightOn_reverse (nonempty : 0 < tree.size) (property : List String → Bool) :
    (tree.weightOn CallNode.selfWeight fun path => property path.reverse) =
      ((tree.sampledNodes.map tree.callersOf).map fun contribution =>
        if property contribution.labels then contribution.own else 0).sum +
        if property [] then (tree.node 0).selfWeight else 0 := by
  let share := fun index =>
    if property (tree.callerLabels index) then (tree.node index).selfWeight else 0
  have unsampled : ∀ index, (tree.node index).selfWeight = 0 → share index = 0 := by
    intro index isZero
    simp only [share, isZero, ite_self]
  have ofRoot : share 0 = if property [] then (tree.node 0).selfWeight else 0 := by
    simp only [share, callerLabels_eq_nil.mpr rfl]
  have contributed : ((tree.sampledNodes.map tree.callersOf).map fun contribution =>
      if property contribution.labels then contribution.own else 0) =
        tree.sampledNodes.map share := by
    rw [List.map_map]
    refine List.map_congr_left fun index _ => ?_
    simp only [Function.comp, labels_callersOf]
    rfl
  calc tree.weightOn CallNode.selfWeight (fun path => property path.reverse)
    _ = ∑ index ∈ Finset.range tree.size, share index := by
      simp only [weightOn, Finset.sum_filter, reverse_pathLabels, share]
    _ = ∑ index ∈ (Finset.range tree.size).erase 0, share index + share 0 :=
      (Finset.sum_erase_add _ _ (Finset.mem_range.mpr nonempty)).symm
    _ = _ := by rw [← sum_sampledNodes unsampled, contributed, ofRoot]

/-- A chain of labels is the front of a caller chain that samples are collected on when samples
are counted on a reversed path that it is the front of. -/
theorem front_sampledNodes (labels : List String) :
    (labels = [] ∨ ∃ contribution ∈ tree.sampledNodes.map tree.callersOf,
      labels <+: contribution.labels) ↔
      labels = [] ∨
        0 < tree.weightOn CallNode.selfWeight fun path => labels.isPrefixOf path.reverse := by
  rw [weightOn_pos]
  constructor
  · rintro (rfl | ⟨_, contributed, front⟩)
    · exact .inl rfl
    · obtain ⟨index, sampled, rfl⟩ := List.mem_map.mp contributed
      obtain ⟨within, -, positive⟩ := mem_sampledNodes.mp sampled
      rw [labels_callersOf, ← reverse_pathLabels, ← List.isPrefixOf_iff_prefix] at front
      exact .inr ⟨index, within, front, positive⟩
  · rintro (rfl | ⟨index, within, front, positive⟩)
    · exact .inl rfl
    · rw [reverse_pathLabels, List.isPrefixOf_iff_prefix] at front
      by_cases isRoot : index = 0
      · rw [callerLabels_eq_nil.mpr isRoot, List.prefix_nil] at front
        exact .inl front
      · have sampled := mem_sampledNodes.mpr ⟨within, isRoot, positive⟩
        refine .inr ⟨_, List.mem_map_of_mem sampled, ?_⟩
        rwa [labels_callersOf]

/-- No caller chain is empty, so nothing is collected on the root. -/
theorem Collected.selfWeight_root_of_callers {inverted : CallTree}
    (collected : Collected (tree.sampledNodes.map tree.callersOf) inverted) :
    (inverted.node 0).selfWeight = 0 := by
  rw [collected.trie.weight_eq_weightOn CallNode.selfWeight collected.trie.nonempty,
    collected.selfWeight, List.sum_eq_zero]
  simp only [List.mem_map, forall_exists_index, and_imp]
  rintro _ _ index sampled rfl rfl
  have notRoot := (mem_sampledNodes.mp sampled).2.1
  rw [labels_callersOf, pathLabels_root, if_neg]
  rwa [beq_iff_eq, callerLabels_eq_nil]

/-! ## Inversion -/

/-- The second tree counts on paths what the first counts on the reversed ones. -/
structure Inverted (before after : CallTree) : Prop where
  trie : Trie after
  gathered : Gathered after
  hasPath : ∀ labels, after.HasPath labels ↔ labels = [] ∨
    0 < before.weightOn CallNode.selfWeight fun path => labels.isPrefixOf path.reverse
  weightOn : ∀ property, after.weightOn CallNode.selfWeight property =
    before.weightOn CallNode.selfWeight fun path => property path.reverse

theorem inverted_bottomUp (trie : Trie tree) (ids : IdSupply) :
    Inverted tree (tree.bottomUp ids).tree := by
  let collected := (tree.sampledNodes.map tree.callersOf).foldl GrowingTree.collect
    (GrowingTree.start (tree.node 0).label (tree.node 0).entry ids)
  have isCollected : Collected (tree.sampledNodes.map tree.callersOf) collected.tree :=
    (Collected.start _ _ ids).foldl _
  let weighed := collected.tree.modifyNode 0 fun node =>
    { node with selfWeight := (tree.node 0).selfWeight }
  have isInverted : (tree.bottomUp ids).tree = weighed.computeTotals := by
    rw [bottomUp, foldl_addCallers]
    rfl
  have reweighed : Reweighted collected.tree weighed := .modifyNode _ _ _ fun _ => rfl
  have same := reweighed.trans (.computeTotals weighed)
  have inside := isCollected.trie.nonempty
  have weights : ∀ index, (weighed.computeTotals.node index).selfWeight =
      (collected.tree.node index).selfWeight +
        if index = 0 then (tree.node 0).selfWeight else 0 := by
    intro index
    rw [read_computeTotals CallNode.selfWeight fun _ _ => rfl, node_modifyNode]
    by_cases isRoot : index = 0 <;>
      simp [isRoot, inside, isCollected.selfWeight_root_of_callers]
  rw [isInverted]
  refine ⟨isCollected.trie.reweighted same, ?_, fun labels => ?_, fun property => ?_⟩
  · exact (isCollected.trie.reweighted reweighed).toRooted.gathered_computeTotals
  · rw [same.hasPath, isCollected.hasPath, front_sampledNodes]
  · rw [same.weightOn_add inside weights, isCollected.selfWeight, pathLabels_root,
      weightOn_reverse trie.nonempty]

/-! ## Callers -/

/-- Samples ended in a node below the root whose callers begin, itself first, with given
labels. -/
def SampledThrough (tree : CallTree) (labels : List String) (index : NodeIndex) : Prop :=
  index ≠ 0 ∧ 0 < (tree.node index).selfWeight ∧ labels <+: tree.callerLabels index

instance (tree : CallTree) (labels : List String) : DecidablePred (tree.SampledThrough labels) :=
  fun _ => inferInstanceAs (Decidable (_ ∧ _ ∧ _))

/-- The second tree has a node for every front of a caller chain that leads from samples in
the first, and its total is that of these samples. -/
structure ListsCallers (tree inverted : CallTree) : Prop where
  hasPath : ∀ labels ≠ [], (inverted.HasPath labels ↔
    ∃ index < tree.size, tree.SampledThrough labels index)
  totalWeight : ∀ labels ≠ [], ∀ last, inverted.findPath? labels = some last →
    (inverted.node last).totalWeight =
      ∑ index ∈ Finset.range tree.size with tree.SampledThrough labels index,
        (tree.node index).selfWeight
  totalWeight_root : (inverted.node 0).totalWeight =
    ∑ index ∈ Finset.range tree.size, (tree.node index).selfWeight

/-- The second tree has the paths of the first that samples ended on or below, and the root,
with the samples that ended there and those that ended there or below. -/
structure Restores (tree restored : CallTree) : Prop where
  hasPath : ∀ labels, restored.HasPath labels ↔
    labels = [] ∨ ∃ index, tree.findPath? labels = some index ∧ 0 < tree.weightBelow index
  weights : ∀ labels last, restored.findPath? labels = some last →
    ∃ index, tree.findPath? labels = some index ∧
      (restored.node last).selfWeight = (tree.node index).selfWeight ∧
      (restored.node last).totalWeight = tree.weightBelow index

namespace Inverted

variable {before middle after : CallTree} {labels : List String} {last : NodeIndex}

/-- The total of a node is what is counted on the paths that go on from its own. -/
theorem totalWeight_eq (inverted : Inverted before after)
    (found : after.findPath? labels = some last) :
    (after.node last).totalWeight =
      before.weightOn CallNode.selfWeight fun path => labels.isPrefixOf path.reverse := by
  have inside := inverted.trie.findPath?_lt found
  rw [inverted.trie.toLinked.totalWeight_of_gathered inverted.gathered inside,
    inverted.trie.weightBelow_eq_weightOn inside, inverted.trie.pathLabels_of_findPath? found,
    inverted.weightOn]

theorem listsCallers (inverted : Inverted before after) : ListsCallers before after := by
  -- Only the empty chain is the front of the empty chain of the root.
  have notRoot : ∀ {labels}, labels ≠ [] → ∀ {index}, labels <+: before.callerLabels index →
      index ≠ 0 := by
    rintro labels nonempty _ front rfl
    rw [callerLabels_eq_nil.mpr rfl, List.prefix_nil] at front
    exact nonempty front
  refine ⟨fun labels nonempty => ?_, fun labels nonempty last found => ?_, ?_⟩
  · rw [inverted.hasPath, or_iff_right nonempty, weightOn_pos]
    simp only [reverse_pathLabels, List.isPrefixOf_iff_prefix]
    refine exists_congr fun index => and_congr_right fun _ => ?_
    exact ⟨fun ⟨front, positive⟩ => ⟨notRoot nonempty front, positive, front⟩,
      fun ⟨_, positive, front⟩ => ⟨front, positive⟩⟩
  · rw [inverted.totalWeight_eq found, CallTree.weightOn]
    simp only [reverse_pathLabels, List.isPrefixOf_iff_prefix]
    rw [Finset.sum_filter, Finset.sum_filter]
    refine Finset.sum_congr rfl fun index _ => ?_
    by_cases front : labels <+: before.callerLabels index
    · rw [if_pos front]
      split
      · rfl
      · rename_i unsampled
        by_contra positive
        exact unsampled ⟨notRoot nonempty front, Nat.pos_of_ne_zero positive, front⟩
    · rw [if_neg front, if_neg fun sampled => front sampled.2.2]
  · have everywhere : after.findPath? [] = some 0 := rfl
    rw [inverted.totalWeight_eq everywhere, CallTree.weightOn, Finset.filter_true_of_mem]
    exact fun _ _ => rfl

/-- Inverting twice counts on every path what was counted there. -/
theorem restores (first : Inverted before middle) (second : Inverted middle after)
    (trie : Trie before) : Restores before after := by
  have counted : ∀ property, after.weightOn CallNode.selfWeight property =
      before.weightOn CallNode.selfWeight property := by
    intro property
    rw [second.weightOn, first.weightOn]
    simp only [List.reverse_reverse]
  have fronts : ∀ labels : List String,
      (middle.weightOn CallNode.selfWeight fun path => labels.isPrefixOf path.reverse) =
        before.weightOn CallNode.selfWeight fun path => labels.isPrefixOf path := by
    intro labels
    rw [first.weightOn]
    simp only [List.reverse_reverse]
  have hasPath : ∀ labels, after.HasPath labels ↔ labels = [] ∨
      ∃ index, before.findPath? labels = some index ∧ 0 < before.weightBelow index := by
    intro labels
    rw [second.hasPath, fronts, trie.weightOn_prefix_pos]
  refine ⟨hasPath, fun labels last found => ?_⟩
  obtain ⟨index, known⟩ : before.HasPath labels := by
    rcases (hasPath labels).mp ⟨last, found⟩ with rfl | ⟨index, known, -⟩
    · exact ⟨0, rfl⟩
    · exact ⟨index, known⟩
  have inside := trie.findPath?_lt known
  refine ⟨index, known, ?_, ?_⟩
  · rw [second.trie.weight_eq_weightOn CallNode.selfWeight (second.trie.findPath?_lt found),
      trie.weight_eq_weightOn CallNode.selfWeight inside, counted,
      second.trie.pathLabels_of_findPath? found, trie.pathLabels_of_findPath? known]
  · rw [second.totalWeight_eq found, fronts, trie.weightBelow_eq_weightOn inside,
      trie.pathLabels_of_findPath? known]

end Inverted

end CallTree

namespace GrowingTree

open CallTree (ListsCallers Restores)

variable {layout : Layout} {growing : GrowingTree}

/-- The inverted tree lists the callers of all samples, inverting it once more restores what
samples were seen of, and the trees of the family that it joins stay as they are. -/
theorem bottomUp_of_arises (arises : Arises layout growing) (ids more : IdSupply) :
    ListsCallers growing.tree (growing.tree.bottomUp ids).tree ∧
      Restores growing.tree ((growing.tree.bottomUp ids).tree.bottomUp more).tree ∧
      ∀ (family : TreeFamily) (place : Nat), place < family.trees.size →
        ((family.adopt (growing.tree.bottomUp ids)).member place).tree =
          (family.member place).tree := by
  have first := CallTree.inverted_bottomUp arises.trie ids
  have second := CallTree.inverted_bottomUp first.trie more
  refine ⟨first.listsCallers, first.restores second arises.trie, fun family place inside => ?_⟩
  simp [TreeFamily.member, TreeFamily.adopt, Array.getD_eq_getD_getElem?, Array.getElem?_push,
    Nat.ne_of_lt inside]

/-- Two functions that call each other, with samples in all calls but the first. -/
def recursing : GrowingTree :=
  let path := [("main", none), ("work", none), ("main", none), ("work", none)]
  let called := ((fresh CallTree.rootLabel none).addPath path).2
  let outer := called.mapTree fun tree => tree.recordSample 2 none
  let inner := outer.mapTree fun tree => tree.recordSample 4 none
  inner.mapTree fun tree => tree.recordSample 3 none

theorem arises_recursing : Arises .nested recursing := by
  have called := (Arises.fresh CallTree.rootLabel none).addPath
    [("main", none), ("work", none), ("main", none), ("work", none)]
  exact ((called.recordSample 2 none).recordSample 4 none).recordSample 3 none

theorem bottomUp_recursing : Arises .nested recursing ∧
    ((recursing.tree.bottomUp recursing.ids).tree.findPath? ["work", "main"]).map
      (fun last => ((recursing.tree.bottomUp recursing.ids).tree.node last).totalWeight) = some 2 ∧
    ListsCallers recursing.tree (recursing.tree.bottomUp recursing.ids).tree ∧
    Restores recursing.tree
      ((recursing.tree.bottomUp recursing.ids).tree.bottomUp recursing.ids).tree := by
  have ⟨lists, restores, _⟩ := bottomUp_of_arises arises_recursing recursing.ids recursing.ids
  exact ⟨arises_recursing, by decide +kernel, lists, restores⟩

end GrowingTree

end JitTrace
