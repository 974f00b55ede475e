import JitTrace.Proofs.CallTree.Inversion
import JitTrace.Proofs.CallTree.Merging

/-!
# The tree of one function's subtrees

What the merged subtrees of a label say about the tree they come from. Every path below the
label stands for all nodes that it leads to from an outermost node with the label; nodes with the
label further below do not start anew. Samples, ticks by line and totals of these nodes are
added up, and all together the merged tree holds what the outermost nodes have below them.
-/

namespace JitTrace

open CallTree (Reweighted TicksSorted)

/-! ## Sorted ticks -/

theorem CallTree.TicksSorted.modifyNode {tree : CallTree} (sorted : TicksSorted tree)
    (changed : NodeIndex) (change : CallNode → CallNode)
    (keeps : ∀ node, (change node).lineTicks = node.lineTicks) :
    TicksSorted (tree.modifyNode changed change) := fun index => by
  rw [CallTree.read_modifyNode CallNode.lineTicks change keeps]
  exact sorted index

namespace GrowingTree

variable {layout : Layout} {growing : GrowingTree}

theorem ticksSorted_addPath (trie : growing.tree.Trie) (sorted : TicksSorted growing.tree)
    (path : List (String × Option CodeId)) : TicksSorted (growing.addPath path).2.tree :=
  sorted.grown (grown_addPathFrom trie.toRooted trie.nonempty path).2

theorem ticksSorted_collect (trie : growing.tree.Trie) (sorted : TicksSorted growing.tree)
    (contribution : Contribution) : TicksSorted (growing.collect contribution).tree :=
  (ticksSorted_addPath trie sorted contribution.path).modifyNode _ _ fun _ => rfl

theorem trie_collect (trie : growing.tree.Trie) (contribution : Contribution) :
    (growing.collect contribution).tree.Trie :=
  (reached_addPath trie contribution.path).trie.reweighted (.modifyNode _ _ _ fun _ => rfl)

end GrowingTree

namespace CallTree

theorem ticksSorted_start (label : String) (entry : Option CodeId) (ids : IdSupply) :
    TicksSorted (GrowingTree.start label entry ids).tree := by
  intro index
  cases index <;> exact .nil

theorem TicksSorted.computeTotals {tree : CallTree} (sorted : TicksSorted tree) :
    TicksSorted tree.computeTotals := fun index =>
  read_computeTotals CallNode.lineTicks (fun _ _ => rfl) tree index ▸ sorted index

theorem ticksSorted_bottomUp (tree : CallTree) (ids : IdSupply) :
    TicksSorted (tree.bottomUp ids).tree := by
  let collected := (tree.sampledNodes.map tree.callersOf).foldl GrowingTree.collect
    (GrowingTree.start (tree.node 0).label (tree.node 0).entry ids)
  have isCollected : collected.tree.Trie ∧ TicksSorted collected.tree :=
    List.foldlRecOn
      (motive := fun growing : GrowingTree => growing.tree.Trie ∧ TicksSorted growing.tree) _ _
      ⟨GrowingTree.trie_start _ _ ids, ticksSorted_start _ _ ids⟩
      fun _ kept contribution _ => ⟨GrowingTree.trie_collect kept.1 contribution,
        GrowingTree.ticksSorted_collect kept.1 kept.2 contribution⟩
  let weighed := collected.tree.modifyNode 0 fun node =>
    { node with selfWeight := (tree.node 0).selfWeight }
  have isInverted : (tree.bottomUp ids).tree = weighed.computeTotals := by
    rw [bottomUp, foldl_addCallers]
    rfl
  have sorted : TicksSorted weighed := isCollected.2.modifyNode 0 _ fun _ => rfl
  rw [isInverted]
  exact sorted.computeTotals

theorem FlatWalk.ticksSorted_visit {walk : FlatWalk} (trie : walk.growing.tree.Trie)
    (sorted : TicksSorted walk.growing.tree) (tree : CallTree) (region : String) (step : Visit) :
    TicksSorted (visit tree region walk step).growing.tree := by
  cases step with
  | enter index =>
    rw [visit, enter]
    split
    · dsimp only
      split
      · exact addToRow_eq .. ▸ GrowingTree.ticksSorted_collect trie sorted _
      · exact addToRoot_eq .. ▸ GrowingTree.ticksSorted_collect trie sorted _
    · exact sorted
  | leave index =>
    rw [visit, growing_leave]
    exact sorted

theorem ticksSorted_flat (tree : CallTree) (region : Option String) (ids : IdSupply) :
    TicksSorted (tree.flat region ids).tree := by
  have walked := List.foldlRecOn (motive := fun walk : FlatWalk =>
      walk.growing.tree.Trie ∧ TicksSorted walk.growing.tree)
    tree.withTotals.depthFirst (FlatWalk.visit tree.withTotals (region.getD rootLabel))
    (b := { growing := GrowingTree.start (region.getD rootLabel) none ids })
    ⟨GrowingTree.trie_start _ _ ids, ticksSorted_start _ _ ids⟩
    fun _ kept step _ => ⟨FlatWalk.trie_visit kept.1 _ _ step,
      FlatWalk.ticksSorted_visit kept.1 kept.2 _ _ step⟩
  exact walked.2

end CallTree

namespace GrowingTree

variable {layout : Layout} {growing : GrowingTree}

/-- Every tree that arises lists the lines of its nodes in order. -/
theorem Arises.ticksSorted (arises : Arises layout growing) : TicksSorted growing.tree := by
  induction arises with
  | fresh label entry => exact CallTree.ticksSorted_start label entry .initial
  | addPath path arises sorted => exact ticksSorted_addPath arises.trie sorted path
  | findOrAddChild label entry inside arises sorted =>
    exact sorted.grown (grown_addPathFrom arises.trie.toRooted inside [(label, entry)]).2
  | recordSample index line _ sorted => exact CallTree.sorted_recordSample sorted index line
  | moveSample source sourceLine target targetLine _ sorted =>
    exact CallTree.sorted_recordSample (CallTree.sorted_takeSample sorted source sourceLine)
      target targetLine
  | computeTotals _ sorted => exact sorted.computeTotals
  | draw _ _ sorted => exact sorted
  | bottomUp => exact CallTree.ticksSorted_bottomUp _ _
  | subtrees label arises _ =>
    obtain ⟨_, -, isMerged, -⟩ := arises.trie.toLinked.exists_merged_subtrees label _
    exact isMerged.sorted
  | flat => exact CallTree.ticksSorted_flat _ _ _

end GrowingTree

/-! ## Merged subtrees -/

namespace CallTree

variable {tree merged : CallTree} {label : String} {order : List NodeIndex}

/-- The second tree is the subtrees of the first that start at the outermost nodes with a label,
nodes at one place merged. -/
structure MergesSubtrees (tree : CallTree) (label : String) (merged : CallTree) : Prop where
  hasPath : ∀ path, merged.HasPath (label :: path) ↔ ∃ index, tree.PlacedAt label path index
  /-- Below the root there is nothing else. -/
  head? : ∀ path, merged.HasPath path → path = [] ∨ path.head? = some label
  selfWeight : ∀ path last, merged.findPath? (label :: path) = some last →
    (merged.node last).selfWeight =
      ∑ index ∈ Finset.range tree.size with tree.PlacedAt label path index,
        (tree.node index).selfWeight
  lineTicks : ∀ path last, merged.findPath? (label :: path) = some last → ∀ line,
    (merged.node last).lineTicks.count line =
      ∑ index ∈ Finset.range tree.size with tree.PlacedAt label path index,
        (tree.node index).lineTicks.count line
  totalWeight : ∀ path last, merged.findPath? (label :: path) = some last →
    (merged.node last).totalWeight =
      ∑ index ∈ Finset.range tree.size with tree.PlacedAt label path index,
        tree.weightBelow index
  /-- Nothing is lost or counted twice. -/
  sum_selfWeight : ∑ index ∈ Finset.range merged.size, (merged.node index).selfWeight =
    ∑ index ∈ Finset.range tree.size with tree.StartsRegion label index, tree.weightBelow index

theorem Trie.placedAt_lt (trie : Trie tree) {path : List String} {index : NodeIndex}
    (placed : tree.PlacedAt label path index) : index < tree.size := by
  obtain ⟨top, topInside, -, found⟩ := placed
  exact trie.toRooted.findFrom?_lt topInside found

namespace Merged

variable (isMerged : Merged tree label order merged) (all : order.Perm (List.range tree.size))

include isMerged all

theorem weightOn_eq_sum {weight : CallNode → Nat} (addsUp : AddsUp weight tree)
    (property : List String → Bool) : merged.weightOn weight property =
      ∑ index ∈ Finset.range tree.size, tree.copiedOn weight label property index := by
  have nodes : (List.range tree.size).toFinset = Finset.range tree.size := by
    ext index
    rw [List.mem_toFinset, List.mem_range, Finset.mem_range]
  rw [isMerged.weightOn addsUp, (all.map _).sum_eq, ← List.sum_toFinset _ List.nodup_range, nodes]

/-- What a merged node holds is what the nodes at its place hold. -/
theorem weight_eq_sum (trie : Trie tree) {weight : CallNode → Nat} (addsUp : AddsUp weight tree)
    {path : List String} {last : NodeIndex}
    (found : merged.findPath? (label :: path) = some last) :
    weight (merged.node last) =
      ∑ index ∈ Finset.range tree.size with tree.PlacedAt label path index,
        weight (tree.node index) := by
  rw [isMerged.trie.weight_eq_weightOn weight (isMerged.trie.findPath?_lt found),
    isMerged.trie.pathLabels_of_findPath? found, isMerged.weightOn_eq_sum all addsUp,
    Finset.sum_filter]
  refine Finset.sum_congr rfl fun index listed => ?_
  refine if_congr ?_ rfl rfl
  rw [← trie.copyPath_eq_cons_iff (Finset.mem_range.mp listed), beq_iff_eq,
    and_iff_right_of_imp]
  intro same
  simp [same]

theorem hasPath_cons (trie : Trie tree) (path : List String) :
    merged.HasPath (label :: path) ↔ ∃ index, tree.PlacedAt label path index := by
  rw [isMerged.hasPath, or_iff_right (List.cons_ne_nil label path)]
  constructor
  · rintro ⟨index, visited, isCopy⟩
    have inside := List.mem_range.mp (all.mem_iff.mp visited)
    exact ⟨index, (trie.copyPath_eq_cons_iff inside).mp isCopy⟩
  · rintro ⟨index, placed⟩
    have inside := trie.placedAt_lt placed
    exact ⟨index, all.mem_iff.mpr (List.mem_range.mpr inside),
      (trie.copyPath_eq_cons_iff inside).mpr placed⟩

theorem totalWeight_eq_sum (trie : Trie tree) (gathered : Gathered merged) {path : List String}
    {last : NodeIndex} (found : merged.findPath? (label :: path) = some last) :
    (merged.node last).totalWeight =
      ∑ index ∈ Finset.range tree.size with tree.PlacedAt label path index,
        tree.weightBelow index := by
  have inside := isMerged.trie.findPath?_lt found
  have places : (Finset.range tree.size).filter (tree.PlacedAt label path ·) =
      (Finset.range tree.size).filter fun index => tree.copyPath label index = label :: path :=
    Finset.filter_congr fun index listed =>
      (trie.copyPath_eq_cons_iff (Finset.mem_range.mp listed)).symm
  calc (merged.node last).totalWeight
    _ = merged.weightOn CallNode.selfWeight fun other => (label :: path).isPrefixOf other := by
      rw [isMerged.trie.toLinked.totalWeight_of_gathered gathered inside,
        isMerged.trie.weightBelow_eq_weightOn inside, isMerged.trie.pathLabels_of_findPath? found]
    _ = ∑ index ∈ Finset.range tree.size with label :: path <+: tree.copyPath label index,
        (tree.node index).selfWeight := by
      rw [isMerged.weightOn_eq_sum all (addsUp_selfWeight tree), Finset.sum_filter]
      refine Finset.sum_congr rfl fun index _ => ?_
      refine if_congr ?_ rfl rfl
      rw [List.isPrefixOf_iff_prefix, and_iff_right_of_imp]
      intro front nothing
      simp [nothing] at front
    _ = _ := by rw [places, trie.toLinked.sum_weightBelow_copyPath (List.cons_ne_nil label path)]

theorem sum_selfWeight (linked : Linked tree) :
    ∑ index ∈ Finset.range merged.size, (merged.node index).selfWeight =
      ∑ index ∈ Finset.range tree.size with tree.StartsRegion label index,
        tree.weightBelow index := by
  have everywhere : ∑ index ∈ Finset.range merged.size, (merged.node index).selfWeight =
      merged.weightOn CallNode.selfWeight fun _ => true := by
    rw [CallTree.weightOn, Finset.filter_true_of_mem fun _ _ => rfl]
  rw [everywhere, isMerged.weightOn_eq_sum all (addsUp_selfWeight tree),
    linked.sum_weightBelow_starts, Finset.sum_filter]
  refine Finset.sum_congr rfl fun index _ => ?_
  rw [copiedOn]
  refine if_congr ?_ rfl rfl
  rw [and_iff_left rfl, copyPath_ne_nil]

theorem mergesSubtrees (trie : Trie tree) (sorted : TicksSorted tree)
    (gathered : Gathered merged) : MergesSubtrees tree label merged where
  hasPath := isMerged.hasPath_cons all trie
  head? path hasPath := by
    rcases (isMerged.hasPath path).mp hasPath with isEmpty | ⟨index, -, rfl⟩
    · exact .inl isEmpty
    · exact (eq_or_ne _ []).imp_right head?_copyPath
  selfWeight _ _ := isMerged.weight_eq_sum all trie (addsUp_selfWeight tree)
  lineTicks _ _ found line := isMerged.weight_eq_sum all trie (sorted.addsUp_count line) found
  totalWeight _ _ := isMerged.totalWeight_eq_sum all trie gathered
  sum_selfWeight := isMerged.sum_selfWeight all trie.toLinked

end Merged

end CallTree

namespace GrowingTree

open CallTree (MergesSubtrees)

variable {layout : Layout} {growing : GrowingTree}

/-- The subtrees of a label are merged whatever tree they are taken from, and the trees of the
family that the new one joins stay as they are. -/
theorem subtrees_of_arises (arises : Arises layout growing) (label : String) (ids : IdSupply) :
    MergesSubtrees growing.tree label (growing.tree.subtrees label ids).tree ∧
      ∀ (family : TreeFamily) (place : Nat), place < family.trees.size →
        ((family.adopt (growing.tree.subtrees label ids)).member place).tree =
          (family.member place).tree := by
  obtain ⟨order, all, isMerged, gathered⟩ :=
    arises.trie.toLinked.exists_merged_subtrees label ids
  refine ⟨isMerged.mergesSubtrees all arises.trie arises.ticksSorted gathered,
    fun family place inside => ?_⟩
  simp [TreeFamily.member, TreeFamily.adopt, Array.getD_eq_getD_getElem?, Array.getElem?_push,
    Nat.ne_of_lt inside]

/-- A function that calls itself through another one, and that a third one calls as well, with
samples on one line in both. -/
def recursingTwice : GrowingTree :=
  let path := [("main", none), ("work", none), ("step", none), ("work", none)]
  let called := ((fresh CallTree.rootLabel none).addPath path).2
  let inner := called.mapTree fun tree => tree.recordSample 4 (some 7)
  let again := (inner.addPath [("idle", none), ("work", none), ("step", none)]).2
  let outer := again.mapTree fun tree => tree.recordSample 3 (some 7)
  outer.mapTree fun tree => tree.recordSample 7 (some 7)

theorem arises_recursingTwice : Arises .nested recursingTwice := by
  have called := (Arises.fresh CallTree.rootLabel none).addPath
    [("main", none), ("work", none), ("step", none), ("work", none)]
  have again := (called.recordSample 4 (some 7)).addPath
    [("idle", none), ("work", none), ("step", none)]
  exact (again.recordSample 3 (some 7)).recordSample 7 (some 7)

/-- The inner call starts no subtree of its own, and the calls below both outer ones meet. -/
theorem subtrees_recursingTwice : Arises .nested recursingTwice ∧
    (recursingTwice.tree.subtrees "work" recursingTwice.ids).tree.nodes.toList.map
      (fun node => (node.label, node.selfWeight, node.totalWeight, node.lineTicks)) =
        [("(root)", 0, 3, []), ("work", 0, 3, []), ("step", 2, 3, [(7, 2)]),
          ("work", 1, 1, [(7, 1)])] ∧
    MergesSubtrees recursingTwice.tree "work"
      (recursingTwice.tree.subtrees "work" recursingTwice.ids).tree :=
  ⟨arises_recursingTwice, by decide +kernel, (subtrees_of_arises arises_recursingTwice "work" _).1⟩

end GrowingTree

end JitTrace
