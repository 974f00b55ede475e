import JitTrace.Proofs.CallTree.PreOrder

/-!
# Call trees as tries

A node finds each of its children under its label, and finds nothing else. So the
children of a node have distinct labels, and nodes and the chains of labels that lead
somewhere are one and the same: following the labels above a node ends at the node, and
a followed chain is the labels above its end. Nodes are created only where a label is
not found, which keeps this so.
-/

namespace JitTrace

namespace CallTree

/-- What a node finds under a label is its child with that label. -/
structure Trie (tree : CallTree) : Prop extends Linked tree where
  findChild : ∀ {parent label child}, tree.findChild? parent label = some child ↔
    child ∈ (tree.node parent).children ∧ (tree.node child).label = label

variable {tree : CallTree}

/-! ## Chains of labels -/

@[simp] theorem callChain_root : tree.callChain 0 = [] := by
  simp [callChain]

@[simp] theorem pathLabels_root : tree.pathLabels 0 = [] := by
  simp [pathLabels]

theorem findFrom?_append (start : NodeIndex) (labels more : List String) :
    tree.findFrom? start (labels ++ more) =
      (tree.findFrom? start labels).bind (tree.findFrom? · more) := by
  induction labels generalizing start with
  | nil => rfl
  | cons label labels inductionHypothesis =>
    simp only [List.cons_append, findFrom?]
    cases tree.findChild? start label with
    | none => rfl
    | some child => exact inductionHypothesis child

theorem findFrom?_singleton (start : NodeIndex) (label : String) :
    tree.findFrom? start [label] = tree.findChild? start label := by
  simp only [findFrom?]
  cases tree.findChild? start label <;> rfl

theorem Rooted.findFrom?_lt (rooted : Rooted tree) {start last : NodeIndex}
    (inside : start < tree.size) {labels : List String}
    (found : tree.findFrom? start labels = some last) : last < tree.size := by
  induction labels generalizing start with
  | nil => exact Option.some.inj found ▸ inside
  | cons label labels inductionHypothesis =>
    simp only [findFrom?] at found
    cases isChild : tree.findChild? start label with
    | none => simp [isChild] at found
    | some child =>
      rw [isChild] at found
      exact inductionHypothesis (rooted.found_lt isChild) found

namespace Linked

/-- The root is the only node without a parent. -/
theorem parent_eq_none (linked : Linked tree) {index : NodeIndex} (inside : index < tree.size) :
    (tree.node index).parent = none ↔ index = 0 := by
  refine ⟨fun isTop => ?_, fun isRoot => isRoot ▸ linked.root⟩
  by_contra isRoot
  obtain ⟨parent, isParent, -⟩ := linked.exists_parent index (Nat.pos_of_ne_zero isRoot) inside
  rw [isTop] at isParent
  contradiction

/-- A node with a parent is one of the tree, and not its root. -/
theorem between_of_parent (linked : Linked tree) {index parent : NodeIndex}
    (isParent : (tree.node index).parent = some parent) : 0 < index ∧ index < tree.size := by
  refine ⟨Nat.zero_lt_of_lt (linked.parent_lt isParent), Nat.lt_of_not_le fun beyond => ?_⟩
  rw [node_of_size_le beyond] at isParent
  contradiction

theorem callChain_of_parent (linked : Linked tree) {index parent : NodeIndex}
    (isParent : (tree.node index).parent = some parent) :
    tree.callChain index = index :: tree.callChain parent := by
  have notRoot : index ≠ 0 := Nat.ne_of_gt (linked.between_of_parent isParent).1
  rw [callChain, linked.ancestors_of_parent isParent, List.takeWhile_cons_of_pos (by simpa)]
  rfl

theorem pathLabels_of_parent (linked : Linked tree) {index parent : NodeIndex}
    (isParent : (tree.node index).parent = some parent) :
    tree.pathLabels index = tree.pathLabels parent ++ [(tree.node index).label] := by
  rw [pathLabels, linked.callChain_of_parent isParent, List.map_cons, List.reverse_cons]
  rfl

end Linked

/-! ## Climbing -/

/-- Climbing from parent to parent ends, at the root or at the node below it. -/
inductive Climbs (tree : CallTree) : NodeIndex → Option NodeIndex → Prop
  | root {index : NodeIndex} : (tree.node index).parent = none → Climbs tree index none
  | top {index : NodeIndex} : (tree.node index).parent = some 0 → Climbs tree index (some index)
  | up {index parent : NodeIndex} {answer : Option NodeIndex} :
    (tree.node index).parent = some parent → parent ≠ 0 → Climbs tree parent answer →
      Climbs tree index answer

theorem topLevelAncestor?_eq_none {index : NodeIndex} :
    tree.topLevelAncestor? index = none ↔ index = 0 := by
  rw [topLevelAncestor?, List.getLast?_eq_none_iff]
  refine ⟨fun isEmpty => ?_, fun isRoot => isRoot ▸ callChain_root⟩
  by_contra notRoot
  simp [callChain, notRoot] at isEmpty

namespace Linked

theorem topLevelAncestor?_of_parent (linked : Linked tree) {index parent : NodeIndex}
    (isParent : (tree.node index).parent = some parent) :
    tree.topLevelAncestor? index =
      if parent = 0 then some index else tree.topLevelAncestor? parent := by
  rw [topLevelAncestor?, linked.callChain_of_parent isParent]
  split
  · rename_i isRoot
    rw [isRoot, callChain_root]
    rfl
  · rename_i notRoot
    have nonempty : tree.callChain parent ≠ [] := by simp [callChain, notRoot]
    rw [topLevelAncestor?, List.getLast?_cons_of_ne_nil nonempty]

/-- The climb ends with the ancestor below the root. -/
theorem climbs (linked : Linked tree) {index : NodeIndex} (inside : index < tree.size) :
    Climbs tree index (tree.topLevelAncestor? index) := by
  induction index using linked.induction_above with
  | top index isTop =>
    obtain rfl := (linked.parent_eq_none inside).mp isTop
    rw [topLevelAncestor?, callChain_root]
    exact .root isTop
  | step index parent isParent inductionHypothesis =>
    have climb := inductionHypothesis (Nat.lt_trans (linked.parent_lt isParent) inside)
    rw [linked.topLevelAncestor?_of_parent isParent]
    split
    · rename_i isRoot
      exact .top (isRoot ▸ isParent)
    · rename_i notRoot
      exact .up isParent notRoot climb

/-- The ancestor below the root is the one node of the lineage with the root as parent. -/
theorem topLevelAncestor?_eq_some (linked : Linked tree) {index above : NodeIndex}
    (inside : index < tree.size) :
    tree.topLevelAncestor? index = some above ↔
      above ∈ tree.lineage index ∧ (tree.node above).parent = some 0 := by
  induction index using linked.induction_above with
  | top index isTop =>
    obtain rfl := (linked.parent_eq_none inside).mp isTop
    rw [topLevelAncestor?, callChain_root, lineage_of_no_parent isTop, List.mem_singleton]
    constructor
    · intro isLast
      contradiction
    · rintro ⟨rfl, hasParent⟩
      rw [isTop] at hasParent
      contradiction
  | step index parent isParent inductionHypothesis =>
    have parentInside := Nat.lt_trans (linked.parent_lt isParent) inside
    rw [linked.topLevelAncestor?_of_parent isParent, linked.lineage_of_parent isParent,
      List.mem_cons]
    split
    · rename_i isRoot
      subst isRoot
      rw [Option.some.injEq, lineage_of_no_parent linked.root, List.mem_singleton]
      constructor
      · rintro rfl
        exact ⟨.inl rfl, isParent⟩
      · rintro ⟨rfl | rfl, hasParent⟩
        · rfl
        · rw [linked.root] at hasParent
          contradiction
    · rename_i notRoot
      rw [inductionHypothesis parentInside]
      refine and_congr_left fun hasParent => ⟨.inr, fun listed => ?_⟩
      rcases listed with rfl | listed
      · exact absurd (Option.some.inj (isParent.symm.trans hasParent)) notRoot
      · exact listed

end Linked

/-! ## Nodes and chains of labels -/

namespace Trie

theorem reweighted {after : CallTree} (trie : Trie tree) (same : Reweighted tree after) :
    Trie after where
  toLinked := trie.toLinked.reweighted same
  findChild := by
    intro parent label child
    rw [same.findChild?, same.children, same.label]
    exact trie.findChild

theorem findChild?_of_parent (trie : Trie tree) {index parent : NodeIndex}
    (isParent : (tree.node index).parent = some parent) :
    tree.findChild? parent (tree.node index).label = some index :=
  have inside := (trie.toLinked.between_of_parent isParent).2
  trie.findChild.mpr ⟨trie.mem_children.mpr ⟨inside, isParent⟩, rfl⟩

/-- The children of a node have distinct labels. -/
theorem distinct_labels (trie : Trie tree) (parent : NodeIndex) :
    ((tree.node parent).children.toList.map fun child => (tree.node child).label).Nodup := by
  refine (trie.distinct parent).map_on fun first isFirst second isSecond same => ?_
  have foundFirst := trie.findChild.mpr ⟨Array.mem_toList_iff.mp isFirst, same⟩
  have foundSecond := trie.findChild.mpr ⟨Array.mem_toList_iff.mp isSecond, rfl⟩
  exact Option.some.inj (foundFirst.symm.trans foundSecond)

/-- The labels above a node lead to it. -/
theorem findPath?_pathLabels (trie : Trie tree) {index : NodeIndex} (inside : index < tree.size) :
    tree.findPath? (tree.pathLabels index) = some index := by
  induction index using trie.toLinked.induction_above with
  | top index isTop =>
    rw [(trie.toLinked.parent_eq_none inside).mp isTop, pathLabels_root]
    rfl
  | step index parent isParent inductionHypothesis =>
    have above := inductionHypothesis (Nat.lt_trans (trie.toLinked.parent_lt isParent) inside)
    rw [findPath?] at above ⊢
    rw [trie.toLinked.pathLabels_of_parent isParent, findFrom?_append, above, Option.bind_some,
      findFrom?_singleton, trie.findChild?_of_parent isParent]

/-- A chain of labels that leads to a node is the labels above it. -/
theorem pathLabels_of_findPath? (trie : Trie tree) {labels : List String} {last : NodeIndex}
    (found : tree.findPath? labels = some last) : tree.pathLabels last = labels := by
  induction labels using List.reverseRecOn generalizing last with
  | nil =>
    rw [← Option.some.inj found]
    exact pathLabels_root
  | append_singleton labels label inductionHypothesis =>
    rw [findPath?, findFrom?_append, Option.bind_eq_some_iff] at found
    obtain ⟨parent, above, isChild⟩ := found
    rw [findFrom?_singleton, trie.findChild, trie.mem_children] at isChild
    obtain ⟨⟨-, isParent⟩, hasLabel⟩ := isChild
    rw [trie.toLinked.pathLabels_of_parent isParent, inductionHypothesis above, hasLabel]

end Trie

/-! ## Growth -/

/-- A chain of labels leads to a node of a tree that finds all that was found before. -/
structure Reached (before after : CallTree) (start : NodeIndex) (labels : List String)
    (last : NodeIndex) : Prop where
  trie : Trie after
  size_le : before.size ≤ after.size
  keeps : ∀ {parent label child}, before.findChild? parent label = some child →
    after.findChild? parent label = some child
  found : after.findFrom? start labels = some last

namespace Reached

variable {before middle after : CallTree} {start between last : NodeIndex}
  {labels more : List String}

theorem keepsFrom (reached : Reached before after start labels last) {other sought : NodeIndex}
    {chain : List String} (found : before.findFrom? other chain = some sought) :
    after.findFrom? other chain = some sought := by
  induction chain generalizing other with
  | nil => exact found
  | cons label chain inductionHypothesis =>
    simp only [findFrom?] at found ⊢
    cases isChild : before.findChild? other label with
    | none => simp [isChild] at found
    | some child =>
      rw [reached.keeps isChild]
      rw [isChild] at found
      exact inductionHypothesis found

theorem refl (trie : Trie tree) (start : NodeIndex) : Reached tree tree start [] start :=
  ⟨trie, Nat.le_refl _, fun found => found, rfl⟩

theorem trans (first : Reached before middle start labels between)
    (second : Reached middle after between more last) :
    Reached before after start (labels ++ more) last where
  trie := second.trie
  size_le := Nat.le_trans first.size_le second.size_le
  keeps found := second.keeps (first.keeps found)
  found := by
    rw [findFrom?_append, second.keepsFrom first.found, Option.bind_some, second.found]

/-- The end of the chain is a node of the tree. -/
theorem inside (reached : Reached before after start labels last) (within : start < before.size) :
    last < after.size :=
  reached.trie.toRooted.findFrom?_lt (Nat.lt_of_lt_of_le within reached.size_le) reached.found

/-- The labels above the end of a chain from the root are the chain. -/
theorem pathLabels (reached : Reached before after 0 labels last) :
    after.pathLabels last = labels :=
  reached.trie.pathLabels_of_findPath? reached.found

end Reached

end CallTree

namespace GrowingTree

open CallTree (Reached)

theorem trie_start (label : String) (entry : Option CodeId) (ids : IdSupply) :
    (start label entry ids).tree.Trie where
  toLinked := linked_start label entry ids
  findChild := by
    intro parent sought child
    have blank : ((start label entry ids).tree.node parent).byLabel = [] ∧
        ((start label entry ids).tree.node parent).children = #[] := by
      cases parent <;> exact ⟨rfl, rfl⟩
    simp [CallTree.findChild?, blank]

variable {growing : GrowingTree} {parent : NodeIndex}

/-- A child is created where its label is not found. -/
theorem reached_addChild (trie : growing.tree.Trie) (inside : parent < growing.tree.size)
    {label : String} (isNew : growing.tree.findChild? parent label = none)
    (entry : Option CodeId) :
    Reached growing.tree (growing.addChild parent label entry).2.tree parent [label]
      (growing.addChild parent label entry).1 := by
  have found := findChild?_addChild inside label entry
  have nodes := node_addChild inside label entry
  have size := size_addChild growing parent label entry
  have index : (growing.addChild parent label entry).1 = growing.tree.size := rfl
  have labels : ∀ child, ((growing.addChild parent label entry).2.tree.node child).label =
      if child = growing.tree.size then label else (growing.tree.node child).label := by
    intro child
    rw [nodes]
    grind
  have linked := linked_addChild trie.toLinked inside label entry
  refine ⟨⟨linked, ?_⟩, size ▸ Nat.le_succ _, ?_, ?_⟩
  · intro other sought child
    rw [found, linked.mem_children, labels, nodes, size]
    have old := @trie.findChild other sought child
    rw [trie.mem_children] at old
    have notYet : ¬ growing.tree.size < growing.tree.size := Nat.lt_irrefl _
    grind
  · intro other sought child known
    rw [found, if_neg, known]
    rintro ⟨rfl, rfl⟩
    rw [isNew] at known
    contradiction
  · rw [CallTree.findFrom?_singleton, found, if_pos ⟨rfl, rfl⟩, index]

theorem reached_findOrAddChild (trie : growing.tree.Trie) (inside : parent < growing.tree.size)
    (label : String) (entry : Option CodeId) :
    Reached growing.tree (growing.findOrAddChild parent label entry).2.tree parent [label]
      (growing.findOrAddChild parent label entry).1 := by
  rw [findOrAddChild]
  cases found : growing.tree.findChild? parent label with
  | some child =>
    exact ⟨trie, Nat.le_refl _, fun known => known,
      (CallTree.findFrom?_singleton parent label).trans found⟩
  | none => exact reached_addChild trie inside found entry

theorem reached_addPathFrom (trie : growing.tree.Trie) (inside : parent < growing.tree.size)
    (path : List (String × Option CodeId)) :
    Reached growing.tree (growing.addPathFrom parent path).2.tree parent (path.map Prod.fst)
      (growing.addPathFrom parent path).1 := by
  induction path generalizing growing parent with
  | nil => exact .refl trie parent
  | cons step path inductionHypothesis =>
    have first := reached_findOrAddChild trie inside step.1 step.2
    exact first.trans (inductionHypothesis first.trie (first.inside inside))

/-- A path from the root ends at the node with its labels. -/
theorem reached_addPath (trie : growing.tree.Trie) (path : List (String × Option CodeId)) :
    Reached growing.tree (growing.addPath path).2.tree 0 (path.map Prod.fst)
      (growing.addPath path).1 :=
  reached_addPathFrom trie trie.nonempty path

/-- Nothing is created along a chain of labels that leads somewhere. -/
theorem addPathFrom_of_findFrom? {last : NodeIndex} {path : List (String × Option CodeId)}
    (found : growing.tree.findFrom? parent (path.map Prod.fst) = some last) :
    growing.addPathFrom parent path = (last, growing) := by
  induction path generalizing parent with
  | nil => exact congrArg (·, growing) (Option.some.inj found)
  | cons step path inductionHypothesis =>
    simp only [List.map_cons, CallTree.findFrom?] at found
    cases isChild : growing.tree.findChild? parent step.1 with
    | none => simp [isChild] at found
    | some child =>
      rw [isChild] at found
      simp only [addPathFrom, findOrAddChild, isChild]
      exact inductionHypothesis found

end GrowingTree

end JitTrace
