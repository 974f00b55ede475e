import JitTrace.Proofs.CallTree.Totals
import Mathlib.Algebra.GroupWithZero.Nat
import Mathlib.Data.List.Sort

/-!
# Links of call trees

Nodes are linked to their parents and to their children, and both kinds of links tell the
same: a node is listed once among the children of its parent and nowhere else. Growing
keeps this so. Samples and totals leave all links, labels and ids alone.
-/

namespace JitTrace

/-- A node without what samples leave in it. -/
def CallNode.bare (node : CallNode) : CallNode :=
  { node with selfWeight := 0, totalWeight := 0, lineTicks := [] }

namespace CallTree

/-! ## Weights -/

/-- The second tree differs from the first in weights and line ticks alone. -/
structure Reweighted (before after : CallTree) : Prop where
  size : after.size = before.size
  bare : ∀ index, (after.node index).bare = (before.node index).bare

namespace Reweighted

variable {before middle after tree : CallTree}

theorem refl (tree : CallTree) : Reweighted tree tree :=
  ⟨rfl, fun _ => rfl⟩

theorem trans (first : Reweighted before middle) (second : Reweighted middle after) :
    Reweighted before after :=
  ⟨second.size.trans first.size, fun index => (second.bare index).trans (first.bare index)⟩

/-- Whatever does not depend on samples can be read in either tree. -/
theorem read {Read : Type} (same : Reweighted before after) (read : CallNode → Read)
    (ignores : ∀ node, read node.bare = read node) (index : NodeIndex) :
    read (after.node index) = read (before.node index) := by
  rw [← ignores, same.bare, ignores]

theorem id (same : Reweighted before after) (index : NodeIndex) :
    (after.node index).id = (before.node index).id :=
  same.read CallNode.id (fun _ => rfl) index

theorem label (same : Reweighted before after) (index : NodeIndex) :
    (after.node index).label = (before.node index).label :=
  same.read CallNode.label (fun _ => rfl) index

theorem parent (same : Reweighted before after) (index : NodeIndex) :
    (after.node index).parent = (before.node index).parent :=
  same.read CallNode.parent (fun _ => rfl) index

theorem children (same : Reweighted before after) (index : NodeIndex) :
    (after.node index).children = (before.node index).children :=
  same.read CallNode.children (fun _ => rfl) index

theorem byLabel (same : Reweighted before after) (index : NodeIndex) :
    (after.node index).byLabel = (before.node index).byLabel :=
  same.read CallNode.byLabel (fun _ => rfl) index

theorem findChild? (same : Reweighted before after) (parent : NodeIndex) (sought : String) :
    after.findChild? parent sought = before.findChild? parent sought :=
  congrArg (List.lookup sought) (same.byLabel parent)

theorem modifyNode (tree : CallTree) (index : NodeIndex) (change : CallNode → CallNode)
    (bare : ∀ node, (change node).bare = node.bare) :
    Reweighted tree (tree.modifyNode index change) :=
  ⟨size_modifyNode .., read_modifyNode CallNode.bare change bare tree index⟩

theorem recordSample (tree : CallTree) (index : NodeIndex) (line : Option Nat) :
    Reweighted tree (tree.recordSample index line) :=
  ⟨size_recordSample .., read_recordSample CallNode.bare (fun _ _ _ => rfl) tree index line⟩

theorem takeSample (tree : CallTree) (index : NodeIndex) (line : Option Nat) :
    Reweighted tree (tree.takeSample index line) :=
  modifyNode tree index _ fun _ => rfl

theorem moveSample (tree : CallTree) (source : NodeIndex) (sourceLine : Option Nat)
    (target : NodeIndex) (targetLine : Option Nat) :
    Reweighted tree (tree.moveSample source sourceLine target targetLine) :=
  moveSample_eq tree source sourceLine target targetLine ▸
    (takeSample tree source sourceLine).trans (recordSample _ target targetLine)

theorem computeTotals (tree : CallTree) : Reweighted tree tree.computeTotals :=
  ⟨size_computeTotals tree, read_computeTotals CallNode.bare (fun _ _ => rfl) tree⟩

theorem ancestors (same : Reweighted before after) (index : NodeIndex) :
    after.ancestors index = before.ancestors index := by
  induction index using Nat.strongRecOn with
  | ind index inductionHypothesis =>
    rw [CallTree.ancestors, CallTree.ancestors, same.parent]
    cases (before.node index).parent with
    | none => rfl
    | some above =>
      dsimp only
      split
      · rename_i below
        rw [inductionHypothesis above below]
      · rfl

/-- Outermost calls are a matter of links. -/
theorem topLevelAncestor? (same : Reweighted before after) (index : NodeIndex) :
    after.topLevelAncestor? index = before.topLevelAncestor? index := by
  simp only [CallTree.topLevelAncestor?, CallTree.callChain, same.ancestors]

theorem pathLabels (same : Reweighted before after) (index : NodeIndex) :
    after.pathLabels index = before.pathLabels index := by
  simp only [CallTree.pathLabels, CallTree.callChain, same.ancestors, same.label]

end Reweighted

/-! ## Links -/

/-- The links of a tree agree. -/
structure Linked (tree : CallTree) : Prop extends Rooted tree where
  root : (tree.node 0).parent = none
  /-- The children of a node are the nodes that have it as their parent. -/
  mem_children : ∀ {parent child}, child ∈ (tree.node parent).children ↔
    child < tree.size ∧ (tree.node child).parent = some parent
  /-- Children are listed in order of creation. -/
  ascending : ∀ parent, (tree.node parent).children.toList.Pairwise (· < ·)

variable {tree : CallTree}

/-- Behind the last node there are neither parents nor children. -/
theorem node_of_size_le {index : NodeIndex} (beyond : tree.size ≤ index) :
    tree.node index = default := by
  have outside : tree.nodes[index]? = none := Array.getElem?_eq_none beyond
  simp [node, Array.getD_eq_getD_getElem?, outside]

/-- A node with a parent is in the tree. -/
theorem lt_size_of_parent {index parent : NodeIndex}
    (isParent : (tree.node index).parent = some parent) : index < tree.size :=
  Nat.lt_of_not_le fun beyond => by
    rw [node_of_size_le beyond] at isParent
    contradiction

namespace Linked

theorem reweighted {after : CallTree} (linked : Linked tree) (same : Reweighted tree after) :
    Linked after where
  toRooted := linked.toRooted.congr same.size same.parent same.byLabel
  root := (same.parent 0).trans linked.root
  mem_children := by
    intro parent child
    rw [same.children, same.parent, same.size]
    exact linked.mem_children
  ascending parent := same.children parent ▸ linked.ascending parent

/-- No child is listed twice. -/
theorem distinct (linked : Linked tree) (parent : NodeIndex) :
    (tree.node parent).children.toList.Nodup :=
  (linked.ascending parent).imp Nat.ne_of_lt

/-- A parent was created before its child. -/
theorem parent_lt (linked : Linked tree) {index parent : NodeIndex}
    (isParent : (tree.node index).parent = some parent) : parent < index := by
  have positive : 0 < index := Nat.pos_of_ne_zero fun isRoot => by
    rw [isRoot, linked.root] at isParent
    contradiction
  obtain ⟨known, isKnown, below⟩ :=
    linked.exists_parent index positive (lt_size_of_parent isParent)
  rw [isParent, Option.some.injEq] at isKnown
  exact isKnown ▸ below

/-- A child was created after its parent. -/
theorem child_between (linked : Linked tree) {parent child : NodeIndex}
    (isChild : child ∈ (tree.node parent).children) : parent < child ∧ child < tree.size :=
  have ⟨inside, isParent⟩ := linked.mem_children.mp isChild
  ⟨linked.parent_lt isParent, inside⟩

/-- The children of a node are the nodes with it as their parent, in order of creation. -/
theorem children_eq (linked : Linked tree) (parent : NodeIndex) :
    (tree.node parent).children.toList =
      (List.range tree.size).filter fun child => (tree.node child).parent = some parent := by
  refine List.Pairwise.eq_of_mem_iff (linked.ascending parent)
    (List.pairwise_lt_range.filter _) fun child => ?_
  rw [Array.mem_toList_iff, linked.mem_children, List.mem_filter, List.mem_range,
    decide_eq_true_iff]

/-- What holds of a node when it holds of its children holds of all nodes. -/
theorem induction_below {motive : NodeIndex → Prop} (linked : Linked tree)
    (step : ∀ index, (∀ child ∈ (tree.node index).children, motive child) → motive index)
    (index : NodeIndex) : motive index := by
  induction remaining : tree.size - index using Nat.strongRecOn generalizing index with
  | ind remaining inductionHypothesis =>
    refine step index fun child isChild => ?_
    obtain ⟨after, inside⟩ := linked.child_between isChild
    have fewer : tree.size - child < tree.size - index :=
      Nat.sub_lt_sub_left (Nat.lt_trans after inside) after
    exact inductionHypothesis _ (remaining ▸ fewer) child rfl

/-- What the nodes with a given parent add up to is what its children add up to. -/
theorem sum_children (linked : Linked tree) (parent : NodeIndex) (weight : NodeIndex → Nat) :
    (∑ child ∈ Finset.range (tree.size - 1),
      if (tree.node (child + 1)).parent = some parent then weight (child + 1) else 0) =
      ((tree.node parent).children.toList.map weight).sum := by
  have notRoot : ¬ (tree.node 0).parent = some parent := by simp [linked.root]
  have children : (Finset.range tree.size).filter
      (fun child => (tree.node child).parent = some parent) =
        (tree.node parent).children.toList.toFinset := by
    ext child
    simp [linked.mem_children]
  calc ∑ child ∈ Finset.range (tree.size - 1),
        (if (tree.node (child + 1)).parent = some parent then weight (child + 1) else 0)
    _ = ∑ child ∈ Finset.range (tree.size - 1 + 1),
        (if (tree.node child).parent = some parent then weight child else 0) := by
      rw [Finset.sum_range_succ', if_neg notRoot, Nat.add_zero]
    _ = ∑ child ∈ (tree.node parent).children.toList.toFinset, weight child := by
      rw [Nat.sub_add_cancel linked.nonempty, ← Finset.sum_filter, children]
    _ = ((tree.node parent).children.toList.map weight).sum :=
      List.sum_toFinset weight (linked.distinct parent)

end Linked

end CallTree

namespace GrowingTree

/-- A tree of a root alone. -/
theorem linked_start (label : String) (entry : Option CodeId) (ids : IdSupply) :
    (start label entry ids).tree.Linked := by
  have blank : ∀ index, ((start label entry ids).tree.node index).children = #[] ∧
      ((start label entry ids).tree.node index).parent = none := by
    intro index
    cases index <;> exact ⟨rfl, rfl⟩
  refine ⟨rooted_start label entry ids, (blank 0).2, ?_, ?_⟩
  · intro parent child
    rw [(blank parent).1, (blank child).2]
    simp
  · intro parent
    rw [(blank parent).1]
    exact List.Pairwise.nil

variable {growing : GrowingTree} {parent : NodeIndex}

/-- A new child is linked to its parent. -/
theorem linked_addChild (linked : growing.tree.Linked) (inside : parent < growing.tree.size)
    (label : String) (entry : Option CodeId) :
    (growing.addChild parent label entry).2.tree.Linked := by
  have nodes := node_addChild inside label entry
  have size := size_addChild growing parent label entry
  have parents : ∀ other, ((growing.addChild parent label entry).2.tree.node other).parent =
      if other = growing.tree.size then some parent else (growing.tree.node other).parent := by
    intro other
    rw [nodes]
    grind
  have nothing : (growing.tree.node growing.tree.size).children = #[] := by
    rw [CallTree.node_of_size_le (Nat.le_refl _)]
    rfl
  have childrenOf : ∀ other, ((growing.addChild parent label entry).2.tree.node other).children =
      if other = parent then (growing.tree.node parent).children.push growing.tree.size
      else (growing.tree.node other).children := by
    intro other
    rw [nodes]
    grind
  refine ⟨(grown_addChild linked.toRooted inside label entry).2.rooted, ?_, ?_, ?_⟩
  · rw [parents, if_neg (Nat.ne_of_lt linked.nonempty), linked.root]
  · intro reader child
    rw [childrenOf, parents, size]
    have old := @linked.mem_children reader child
    have notYet : growing.tree.size ∉ (growing.tree.node reader).children := fun isChild =>
      Nat.lt_irrefl _ (linked.child_between isChild).2
    by_cases isNew : child = growing.tree.size
    · subst isNew
      by_cases isParent : reader = parent
      · simp [isParent]
      · simp [isParent, notYet, Ne.symm isParent]
    · have older : child < growing.tree.size + 1 ↔ child < growing.tree.size :=
        ⟨fun within => Nat.lt_of_le_of_ne (Nat.le_of_lt_succ within) isNew, Nat.lt_succ_of_lt⟩
      rw [if_neg isNew, older, ← old]
      by_cases isParent : reader = parent
      · simp [isParent, isNew]
      · simp [isParent]
  · intro reader
    rw [childrenOf]
    split
    · rw [Array.toList_push, List.pairwise_append]
      refine ⟨linked.ascending parent, List.pairwise_singleton ..,
        fun older isChild newer isNew => ?_⟩
      rw [List.mem_singleton.mp isNew]
      exact (linked.child_between (Array.mem_toList_iff.mp isChild)).2
    · exact linked.ascending reader

/-- What new children keep is kept by following a path, and so are links. -/
theorem addPath_induction {motive : GrowingTree → Prop}
    (keeps : ∀ {growing : GrowingTree} {parent : NodeIndex} (label : String)
      (entry : Option CodeId), growing.tree.Linked → parent < growing.tree.size →
        motive growing → motive (growing.addChild parent label entry).2)
    (linked : growing.tree.Linked) (holds : motive growing)
    (path : List (String × Option CodeId)) :
    (growing.addPath path).2.tree.Linked ∧ motive (growing.addPath path).2 := by
  suffices ∀ start, start < growing.tree.size →
      (growing.addPathFrom start path).2.tree.Linked ∧
        motive (growing.addPathFrom start path).2
    from this 0 linked.nonempty
  induction path generalizing growing with
  | nil => exact fun _ _ => ⟨linked, holds⟩
  | cons step path inductionHypothesis =>
    intro start inside
    simp only [addPathFrom, findOrAddChild]
    cases found : growing.tree.findChild? start step.1 with
    | some child =>
      exact inductionHypothesis linked holds child (linked.found_lt found)
    | none =>
      have grownLinked := linked_addChild linked inside step.1 step.2
      have last := (grown_addChild linked.toRooted inside step.1 step.2).1
      exact inductionHypothesis grownLinked (keeps step.1 step.2 linked inside holds) _ last

end GrowingTree

end JitTrace
