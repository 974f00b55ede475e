import JitTrace.Proofs.CallTree.Paths

/-!
# Trees collected path by path

A derived tree takes weights for the ends of paths, one after the other, and creates nodes
where there are none. What it is in the end can be read from what it took: a chain of labels
leads somewhere when it is the front of a path, and what is counted on paths is what was
contributed there.
-/

namespace JitTrace

/-- Weights for the end of a path. -/
structure Contribution where
  path : List (String × Option CodeId)
  own : Nat
  total : Nat

namespace Contribution

def labels (contribution : Contribution) : List String :=
  contribution.path.map Prod.fst

/-- Add the weights to those of a node. -/
def addTo (contribution : Contribution) (node : CallNode) : CallNode :=
  { node with
    selfWeight := node.selfWeight + contribution.own
    totalWeight := node.totalWeight + contribution.total }

end Contribution

namespace CallTree

variable {tree before after : CallTree}

/-- A chain of labels leads somewhere. -/
def HasPath (tree : CallTree) (labels : List String) : Prop :=
  ∃ last, tree.findPath? labels = some last

theorem HasPath.of_front {labels path : List String} (goesOn : labels <+: path)
    (hasPath : tree.HasPath path) : tree.HasPath labels :=
  have ⟨_, found⟩ := hasPath
  exists_findPath?_of_front goesOn found

theorem Trie.hasPath_iff (trie : Trie tree) {labels : List String} :
    tree.HasPath labels ↔ ∃ index < tree.size, tree.pathLabels index = labels := by
  constructor
  · rintro ⟨last, found⟩
    exact ⟨last, trie.findPath?_lt found, trie.pathLabels_of_findPath? found⟩
  · rintro ⟨index, inside, rfl⟩
    exact ⟨index, trie.findPath?_pathLabels inside⟩

theorem Reweighted.findFrom? (same : Reweighted before after) (start : NodeIndex)
    (labels : List String) : after.findFrom? start labels = before.findFrom? start labels := by
  induction labels generalizing start with
  | nil => rfl
  | cons label labels inductionHypothesis =>
    simp only [CallTree.findFrom?, same.findChild?, inductionHypothesis]

theorem Reweighted.hasPath (same : Reweighted before after) (labels : List String) :
    after.HasPath labels ↔ before.HasPath labels := by
  simp only [HasPath, findPath?, same.findFrom?]

namespace Reached

variable {start last index : NodeIndex} {labels : List String}

/-- Nodes keep their paths while others are created. -/
theorem keeps_pathLabels (reached : Reached before after start labels last) (trie : Trie before)
    (inside : index < before.size) : after.pathLabels index = before.pathLabels index :=
  reached.trie.pathLabels_of_findPath? (reached.keepsFrom (trie.findPath?_pathLabels inside))

/-- The chain of labels goes on from the path of its first node. -/
theorem pathLabels_last (reached : Reached before after start labels last) (trie : Trie before)
    (inside : start < before.size) :
    after.pathLabels last = before.pathLabels start ++ labels := by
  refine reached.trie.pathLabels_of_findPath? ?_
  rw [findPath?, findFrom?_append, reached.keepsFrom (trie.findPath?_pathLabels inside)]
  exact reached.found

/-- New nodes without weight leave alone what is counted on paths. -/
theorem weightOn (reached : Reached before after start labels last) (trie : Trie before)
    {weight : CallNode → Nat} (blank : weight default = 0)
    (weights : ∀ index, weight (after.node index) = weight (before.node index))
    (property : List String → Bool) :
    after.weightOn weight property = before.weightOn weight property := by
  have known : (Finset.range before.size).filter
        (fun index => property (before.pathLabels index) = true) ⊆
      (Finset.range after.size).filter fun index => property (after.pathLabels index) = true := by
    intro index listed
    obtain ⟨inside, holds⟩ := Finset.mem_filter.mp listed
    have within := Finset.mem_range.mp inside
    rw [← reached.keeps_pathLabels trie within] at holds
    exact Finset.mem_filter.mpr
      ⟨Finset.mem_range.mpr (Nat.lt_of_lt_of_le within reached.size_le), holds⟩
  rw [CallTree.weightOn, CallTree.weightOn]
  simp only [weights]
  refine (Finset.sum_subset known fun index listed isNew => ?_).symm
  have beyond : before.size ≤ index := by
    by_contra within
    rw [Nat.not_le] at within
    refine isNew (Finset.mem_filter.mpr ⟨Finset.mem_range.mpr within, ?_⟩)
    rw [← reached.keeps_pathLabels trie within]
    exact (Finset.mem_filter.mp listed).2
  rw [node_of_size_le beyond, blank]

end Reached

end CallTree

namespace GrowingTree

variable {growing : GrowingTree} {parent : NodeIndex}

/-! ## Paths -/

theorem hasPath_findOrAddChild (trie : growing.tree.Trie) (inside : parent < growing.tree.size)
    (label : String) (entry : Option CodeId) (labels : List String) :
    (growing.findOrAddChild parent label entry).2.tree.HasPath labels ↔
      growing.tree.HasPath labels ∨ labels = growing.tree.pathLabels parent ++ [label] := by
  have reached := reached_findOrAddChild trie inside label entry
  have last := reached.pathLabels_last trie inside
  rw [reached.trie.hasPath_iff, trie.hasPath_iff]
  constructor
  · rintro ⟨index, within, rfl⟩
    by_cases known : index < growing.tree.size
    · exact .inl ⟨index, known, (reached.keeps_pathLabels trie known).symm⟩
    · refine .inr (last ▸ congrArg _ ?_)
      rw [findOrAddChild] at within ⊢
      split at within
      · exact absurd within known
      · rw [size_addChild] at within
        exact Nat.eq_of_lt_succ_of_not_lt within known
  · rintro (⟨index, within, rfl⟩ | rfl)
    · exact ⟨index, Nat.lt_of_lt_of_le within reached.size_le, reached.keeps_pathLabels trie within⟩
    · exact ⟨_, reached.inside inside, last⟩

/-- Following a path creates its fronts. -/
theorem hasPath_addPathFrom (trie : growing.tree.Trie) (inside : parent < growing.tree.size)
    (path : List (String × Option CodeId)) (labels : List String) :
    (growing.addPathFrom parent path).2.tree.HasPath labels ↔ growing.tree.HasPath labels ∨
      labels <+: growing.tree.pathLabels parent ++ path.map Prod.fst := by
  induction path generalizing growing parent with
  | nil =>
    rw [List.map_nil, List.append_nil]
    refine (or_iff_left_of_imp fun front => ?_).symm
    exact .of_front front ⟨parent, trie.findPath?_pathLabels inside⟩
  | cons step path inductionHypothesis =>
    have reached := reached_findOrAddChild trie inside step.1 step.2
    have rest := inductionHypothesis reached.trie (reached.inside inside)
    rw [reached.pathLabels_last trie inside, List.append_assoc, List.singleton_append,
      hasPath_findOrAddChild trie inside, or_assoc] at rest
    refine rest.trans (or_congr_right (or_iff_right_of_imp ?_))
    rintro rfl
    exact ⟨path.map Prod.fst, by simp⟩

theorem hasPath_addPath (trie : growing.tree.Trie) (path : List (String × Option CodeId))
    (labels : List String) : (growing.addPath path).2.tree.HasPath labels ↔
      growing.tree.HasPath labels ∨ labels <+: path.map Prod.fst := by
  have fronts := hasPath_addPathFrom trie trie.nonempty path labels
  rwa [CallTree.pathLabels_root, List.nil_append] at fronts

/-! ## Weights -/

theorem totalWeight_addChild (inside : parent < growing.tree.size) (label : String)
    (entry : Option CodeId) (index : NodeIndex) :
    ((growing.addChild parent label entry).2.tree.node index).totalWeight =
      (growing.tree.node index).totalWeight := by
  rw [node_addChild inside]
  split
  · rename_i isNew
    rw [CallTree.node_of_size_le (Nat.le_of_eq isNew.symm)]
    rfl
  · split
    · rename_i isParent
      rw [isParent]
    · rfl

theorem totalWeight_addPathFrom (trie : growing.tree.Trie) (inside : parent < growing.tree.size)
    (path : List (String × Option CodeId)) (index : NodeIndex) :
    ((growing.addPathFrom parent path).2.tree.node index).totalWeight =
      (growing.tree.node index).totalWeight := by
  induction path generalizing growing parent with
  | nil => rfl
  | cons step path inductionHypothesis =>
    have reached := reached_findOrAddChild trie inside step.1 step.2
    rw [addPathFrom]
    refine (inductionHypothesis reached.trie (reached.inside inside)).trans ?_
    rw [findOrAddChild]
    split
    · rfl
    · exact totalWeight_addChild inside step.1 step.2 index

/-- Take a contribution. -/
def collect (growing : GrowingTree) (contribution : Contribution) : GrowingTree :=
  let (last, growing) := growing.addPath contribution.path
  growing.mapTree fun tree => tree.modifyNode last contribution.addTo

end GrowingTree

namespace CallTree

/-- A tree is what contributions make of a root alone. -/
structure Collected (contributions : List Contribution) (tree : CallTree) : Prop where
  trie : Trie tree
  hasPath : ∀ labels, tree.HasPath labels ↔
    labels = [] ∨ ∃ contribution ∈ contributions, labels <+: contribution.labels
  selfWeight : ∀ property, tree.weightOn CallNode.selfWeight property =
    (contributions.map fun contribution =>
      if property contribution.labels then contribution.own else 0).sum
  totalWeight : ∀ property, tree.weightOn CallNode.totalWeight property =
    (contributions.map fun contribution =>
      if property contribution.labels then contribution.total else 0).sum

namespace Collected

theorem start (label : String) (entry : Option CodeId) (ids : IdSupply) :
    Collected [] (GrowingTree.start label entry ids).tree where
  trie := GrowingTree.trie_start label entry ids
  hasPath labels := by
    rw [(GrowingTree.trie_start label entry ids).hasPath_iff]
    simp [size, GrowingTree.start, eq_comm]
  selfWeight property := by simp [weightOn, size, GrowingTree.start, node]
  totalWeight property := by simp [weightOn, size, GrowingTree.start, node]

variable {contributions : List Contribution} {growing : GrowingTree}

theorem reweighted (collected : Collected contributions tree) (same : Reweighted tree after)
    (selfWeight : ∀ index, (after.node index).selfWeight = (tree.node index).selfWeight)
    (totalWeight : ∀ index, (after.node index).totalWeight = (tree.node index).totalWeight) :
    Collected contributions after where
  trie := collected.trie.reweighted same
  hasPath labels := (same.hasPath labels).trans (collected.hasPath labels)
  selfWeight property := (same.weightOn selfWeight property).trans (collected.selfWeight property)
  totalWeight property :=
    (same.weightOn totalWeight property).trans (collected.totalWeight property)

theorem collect (collected : Collected contributions growing.tree) (contribution : Contribution) :
    Collected (contributions ++ [contribution]) (growing.collect contribution).tree := by
  have reached := GrowingTree.reached_addPath collected.trie contribution.path
  have inside := reached.inside collected.trie.nonempty
  have grown := (GrowingTree.grown_addPathFrom collected.trie.toRooted collected.trie.nonempty
    contribution.path).2
  have totals := GrowingTree.totalWeight_addPathFrom collected.trie collected.trie.nonempty
    contribution.path
  let added := (growing.addPath contribution.path).2.tree
  let last := (growing.addPath contribution.path).1
  have same : Reweighted added (growing.collect contribution).tree :=
    .modifyNode added last contribution.addTo fun _ => rfl
  have node := node_modifyNode added last contribution.addTo
  have selfWeight : ∀ index, ((growing.collect contribution).tree.node index).selfWeight =
      (added.node index).selfWeight + if index = last then contribution.own else 0 := by
    intro index
    refine (congrArg CallNode.selfWeight (node index)).trans ?_
    by_cases isLast : index = last <;> simp [isLast, inside, added, last, Contribution.addTo]
  have totalWeight : ∀ index, ((growing.collect contribution).tree.node index).totalWeight =
      (added.node index).totalWeight + if index = last then contribution.total else 0 := by
    intro index
    refine (congrArg CallNode.totalWeight (node index)).trans ?_
    by_cases isLast : index = last <;> simp [isLast, inside, added, last, Contribution.addTo]
  refine ⟨reached.trie.reweighted same, fun labels => ?_, fun property => ?_, fun property => ?_⟩
  · rw [same.hasPath, GrowingTree.hasPath_addPath collected.trie, collected.hasPath, or_assoc]
    simp only [List.mem_append, List.mem_singleton, or_and_right, exists_or, exists_eq_left]
    rfl
  · rw [same.weightOn_add inside selfWeight, reached.weightOn collected.trie rfl grown.selfWeight,
      collected.selfWeight, reached.pathLabels, List.map_append, List.sum_append,
      List.map_singleton, List.sum_singleton]
    rfl
  · rw [same.weightOn_add inside totalWeight, reached.weightOn collected.trie rfl totals,
      collected.totalWeight, reached.pathLabels, List.map_append, List.sum_append,
      List.map_singleton, List.sum_singleton]
    rfl

/-- Contributions are taken one after the other. -/
theorem foldl (collected : Collected contributions growing.tree) (more : List Contribution) :
    Collected (contributions ++ more) (more.foldl GrowingTree.collect growing).tree := by
  induction more generalizing contributions growing with
  | nil => rwa [List.append_nil]
  | cons contribution more inductionHypothesis =>
    have rest := inductionHypothesis (collected.collect contribution)
    rwa [List.append_assoc, List.singleton_append] at rest

end Collected

end CallTree

end JitTrace
