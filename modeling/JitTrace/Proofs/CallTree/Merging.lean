import JitTrace.CallTree.Family
import JitTrace.Proofs.CallTree.BreadthFirst
import JitTrace.Proofs.CallTree.CopyPaths

/-!
# Merged subtrees

A walk over a tree copies the subtrees that begin at the outermost nodes with a label below one
new root, and what it copies to the same path is added up there. Parents are visited before
their children, so the copy of the parent is known whenever a node is visited. Once every node
has been visited, what the copies hold on any paths is what the nodes hold that were copied
there.
-/

namespace JitTrace

namespace CallTree

variable {tree merged : CallTree} {label : String} {visited : List NodeIndex}
  {weight : CallNode → Nat}

/-- The ticks of every node are sorted by line. -/
def TicksSorted (tree : CallTree) : Prop :=
  ∀ index, (tree.node index).lineTicks.Sorted

theorem TicksSorted.grown {after : CallTree} (sorted : TicksSorted tree)
    (grown : Grown tree after) : TicksSorted after :=
  fun index => grown.lineTicks index ▸ sorted index

theorem TicksSorted.absorb (sorted : TicksSorted tree) (changed : NodeIndex) (node : CallNode) :
    TicksSorted (tree.modifyNode changed (absorb node)) := by
  intro index
  rw [node_modifyNode]
  split
  · exact LineTicks.sorted_merge (sorted changed) _
  · exact sorted index

/-- A weight that is told by a node's samples, and is added when these are. -/
structure AddsUp (weight : CallNode → Nat) (tree : CallTree) : Prop where
  blank : weight default = 0
  congr : ∀ {first second : CallNode}, first.selfWeight = second.selfWeight →
    first.lineTicks = second.lineTicks → weight first = weight second
  absorb : ∀ index {target : CallNode}, target.lineTicks.Sorted →
    weight (absorb (tree.node index) target) = weight target + weight (tree.node index)

theorem addsUp_selfWeight (tree : CallTree) : AddsUp CallNode.selfWeight tree where
  blank := rfl
  congr selfWeight _ := selfWeight
  absorb _ _ _ := rfl

theorem TicksSorted.addsUp_count (sorted : TicksSorted tree) (line : Nat) :
    AddsUp (fun node => node.lineTicks.count line) tree where
  blank := rfl
  congr _ lineTicks := congrArg (·.count line) lineTicks
  absorb index _ targetSorted := LineTicks.count_merge targetSorted (sorted index) line

/-- A node that absorbs another one takes its weight, and no other node changes. -/
theorem AddsUp.weight_absorb (addsUp : AddsUp weight tree) (sorted : TicksSorted merged)
    {copy : NodeIndex} (inside : copy < merged.size) (index other : NodeIndex) :
    weight ((merged.modifyNode copy (CallTree.absorb (tree.node index))).node other) =
      weight (merged.node other) + if other = copy then weight (tree.node index) else 0 := by
  rw [node_modifyNode]
  by_cases isCopy : other = copy
  · rw [if_pos ⟨isCopy, inside⟩, if_pos isCopy, isCopy]
    exact addsUp.absorb index (sorted copy)
  · rw [if_neg (isCopy ·.1), if_neg isCopy, Nat.add_zero]

/-! ## Copies -/

/-- What a node adds to the paths with a property: its weight, if its copy stands on one. -/
def copiedOn (weight : CallNode → Nat) (tree : CallTree) (label : String)
    (property : List String → Bool) (index : NodeIndex) : Nat :=
  if tree.copyPath label index ≠ [] ∧ property (tree.copyPath label index) = true then
    weight (tree.node index)
  else 0

/-- The second tree is what the copies of the visited nodes have made of a root alone. -/
structure Merged (tree : CallTree) (label : String) (visited : List NodeIndex)
    (merged : CallTree) : Prop where
  trie : Trie merged
  sorted : TicksSorted merged
  hasPath : ∀ path, merged.HasPath path ↔
    path = [] ∨ ∃ index ∈ visited, tree.copyPath label index = path
  weightOn : ∀ {weight}, AddsUp weight tree → ∀ property,
    merged.weightOn weight property = (visited.map (tree.copiedOn weight label property)).sum

theorem merged_start (tree : CallTree) (label root : String) (entry : Option CodeId)
    (ids : IdSupply) : Merged tree label [] (GrowingTree.start root entry ids).tree where
  trie := GrowingTree.trie_start root entry ids
  sorted index := by cases index <;> exact .nil
  hasPath path := by
    rw [(GrowingTree.trie_start root entry ids).hasPath_iff]
    simp [size, GrowingTree.start, eq_comm]
  weightOn := by
    intro weight addsUp property
    refine Finset.sum_eq_zero fun index _ => ?_
    rw [← addsUp.blank]
    cases index <;> exact addsUp.congr rfl rfl

theorem Merged.reweighted {after : CallTree} (isMerged : Merged tree label visited merged)
    (same : Reweighted merged after)
    (selfWeight : ∀ index, (after.node index).selfWeight = (merged.node index).selfWeight)
    (lineTicks : ∀ index, (after.node index).lineTicks = (merged.node index).lineTicks) :
    Merged tree label visited after where
  trie := isMerged.trie.reweighted same
  sorted index := lineTicks index ▸ isMerged.sorted index
  hasPath path := (same.hasPath path).trans (isMerged.hasPath path)
  weightOn := by
    intro weight addsUp property
    rw [← isMerged.weightOn addsUp property]
    exact same.weightOn (fun index => addsUp.congr (selfWeight index) (lineTicks index)) property

/-- What is passed to a node is the copy of its parent, or nothing outside all subtrees. -/
def Follows (tree : CallTree) (label : String) (merged : CallTree) (index : NodeIndex)
    (passed : Option NodeIndex) : Prop :=
  passed.isNone = (tree.pathAbove label index).isEmpty ∧
    merged.findPath? (tree.pathAbove label index) = some (passed.getD 0)

section Visit

variable {growing : GrowingTree} {index : NodeIndex} {passed : Option NodeIndex}

/-- The walk can tell whether a node has a copy. -/
theorem Follows.uncopied_iff (follows : Follows tree label growing.tree index passed) :
    (passed.isNone && (tree.node index).label != label) = true ↔
      tree.copyPath label index = [] := by
  rw [follows.1, Bool.and_eq_true, List.isEmpty_iff, pathAbove_eq_nil, bne_iff_ne, ← not_iff_not,
    ← ne_eq (tree.copyPath label index), copyPath_ne_nil]
  tauto

theorem copyNode_of_uncopied (follows : Follows tree label growing.tree index passed)
    (uncopied : tree.copyPath label index = []) :
    tree.copyNode label growing index passed = (growing, none) :=
  if_pos (follows.uncopied_iff.mpr uncopied)

/-- A node without a copy changes nothing. -/
theorem Merged.uncopied (isMerged : Merged tree label visited merged)
    (uncopied : tree.copyPath label index = []) :
    Merged tree label (visited ++ [index]) merged where
  trie := isMerged.trie
  sorted := isMerged.sorted
  hasPath path := by
    rw [isMerged.hasPath]
    simp only [List.mem_append, List.mem_singleton, or_and_right, exists_or, exists_eq_left,
      uncopied]
    rw [eq_comm (a := []), ← or_assoc, or_right_comm, or_self]
  weightOn := by
    intro weight addsUp property
    rw [isMerged.weightOn addsUp, List.map_append, List.sum_append, List.map_singleton,
      List.sum_singleton, copiedOn, if_neg (by simp [uncopied]), Nat.add_zero]

/-- A copy is found under its label below the copy of its parent, or created there, and takes
the node's samples. -/
theorem Merged.copied (isMerged : Merged tree label visited growing.tree)
    (follows : Follows tree label growing.tree index passed)
    (copied : tree.copyPath label index ≠ []) :
    ∃ copy, ∃ after : GrowingTree,
      tree.copyNode label growing index passed = (after, some copy) ∧
      Merged tree label (visited ++ [index]) after.tree ∧
      after.tree.findPath? (tree.copyPath label index) = some copy ∧
      ∀ {path last}, growing.tree.findPath? path = some last →
        after.tree.findPath? path = some last := by
  let node := tree.node index
  let parent := passed.getD 0
  let added := growing.findOrAddChild parent node.label node.entry
  let after := added.2.mapTree fun tree => tree.modifyNode added.1 (absorb node)
  have trie := isMerged.trie
  have parentInside : parent < growing.tree.size := trie.findPath?_lt follows.2
  have reached : Reached growing.tree added.2.tree parent [node.label] added.1 :=
    GrowingTree.reached_findOrAddChild trie parentInside node.label node.entry
  have grown : Grown growing.tree added.2.tree :=
    (GrowingTree.grown_addPathFrom trie.toRooted parentInside [(node.label, node.entry)]).2
  have copyInside := reached.inside parentInside
  have path : added.2.tree.pathLabels added.1 = tree.copyPath label index := by
    rw [reached.pathLabels_last trie parentInside, trie.pathLabels_of_findPath? follows.2,
      copyPath_eq_append copied]
  have same : Reweighted added.2.tree after.tree := .absorb _ _ _
  have sorted : TicksSorted added.2.tree := isMerged.sorted.grown grown
  refine ⟨added.1, after, if_neg (mt follows.uncopied_iff.mp copied),
    ⟨reached.trie.reweighted same, sorted.absorb added.1 node, fun labels => ?_,
      fun {weight} addsUp property => ?_⟩, ?_, fun found => ?_⟩
  · rw [same.hasPath, GrowingTree.hasPath_findOrAddChild trie parentInside, isMerged.hasPath,
      trie.pathLabels_of_findPath? follows.2, ← copyPath_eq_append copied, or_assoc]
    simp only [List.mem_append, List.mem_singleton, or_and_right, exists_or, exists_eq_left,
      eq_comm (a := labels) (b := tree.copyPath label index)]
  · have weights := addsUp.weight_absorb sorted copyInside index
    rw [same.weightOn_add copyInside weights, path, reached.weightOn trie addsUp.blank fun other =>
        addsUp.congr (grown.selfWeight other) (grown.lineTicks other),
      isMerged.weightOn addsUp, List.map_append, List.sum_append, List.map_singleton,
      List.sum_singleton, copiedOn]
    simp only [copied, ne_eq, not_false_eq_true, true_and]
  · rw [findPath?, same.findFrom?, ← findPath?, ← path]
    exact reached.trie.findPath?_pathLabels copyInside
  · rw [findPath?, same.findFrom?]
    exact reached.keepsFrom found

end Visit

theorem Linked.kept_copyNode (linked : Linked tree) (label : String) :
    Kept tree (tree.copyNode label)
      (fun visited growing => Merged tree label visited growing.tree)
      fun growing => Follows tree label growing.tree where
  step {visited growing index passed} isMerged follows := by
    by_cases copied : tree.copyPath label index = []
    · rw [copyNode_of_uncopied follows copied]
      exact isMerged.uncopied copied
    · obtain ⟨copy, after, copies, afterMerged, -⟩ := isMerged.copied follows copied
      rw [copies]
      exact afterMerged
  children {visited growing index passed} isMerged follows child isChild := by
    rw [Follows, linked.pathAbove_of_parent (linked.mem_children.mp isChild).2]
    by_cases copied : tree.copyPath label index = []
    · rw [copyNode_of_uncopied follows copied, copied]
      exact ⟨rfl, rfl⟩
    · obtain ⟨copy, after, copies, -, found, -⟩ := isMerged.copied follows copied
      rw [copies]
      exact ⟨by simp [copied], found⟩
  others {visited growing index passed other value} isMerged follows others := by
    by_cases copied : tree.copyPath label index = []
    · rw [copyNode_of_uncopied follows copied]
      exact others
    · obtain ⟨copy, after, copies, -, -, keeps⟩ := isMerged.copied follows copied
      rw [copies]
      exact ⟨others.1, keeps others.2⟩

/-- The merged subtrees are the copies of all nodes, with their totals gathered. -/
theorem Linked.exists_merged_subtrees (linked : Linked tree) (label : String) (ids : IdSupply) :
    ∃ order : List NodeIndex, order.Perm (List.range tree.size) ∧
      Merged tree label order (tree.subtrees label ids).tree ∧
      Gathered (tree.subtrees label ids).tree := by
  have outside : tree.pathAbove label 0 = [] := Linked.pathAbove_of_no_parent linked.root
  have follows : Follows tree label (GrowingTree.start rootLabel none ids).tree 0 none := by
    rw [Follows, outside]
    exact ⟨rfl, rfl⟩
  obtain ⟨order, all, isMerged⟩ := linked.breadthFirst_visits (linked.kept_copyNode label)
    (merged_start tree label rootLabel none ids) follows
  refine ⟨order, all, isMerged.reweighted (.computeTotals _) ?_ ?_, ?_⟩
  · exact read_computeTotals (·.selfWeight) (fun _ _ => rfl) _
  · exact read_computeTotals (·.lineTicks) (fun _ _ => rfl) _
  · exact isMerged.trie.toRooted.gathered_computeTotals

end CallTree

end JitTrace
