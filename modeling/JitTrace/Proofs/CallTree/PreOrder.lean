import JitTrace.CallTree.Walk
import JitTrace.Proofs.CallTree.Links
import Mathlib.Data.List.Nodup
import Mathlib.Data.List.Perm.Basic

/-!
# Depth-first walks

A depth-first walk keeps a stack of what it still has to enter and to leave. Over a tree
whose links agree it makes the steps of the recursive walk, which visits a node, then the
subtrees of its children one after the other, and then leaves the node. That every node is
entered once is a fact about links alone: the nodes below a node are those that have it as
an ancestor, and no node has two ancestors with one parent.
-/

namespace JitTrace.CallTree

open scoped List

/-- The node that a step of a walk enters. -/
def Visit.entered? : Visit → Option NodeIndex
  | .enter index => some index
  | .leave _ => none

/-- The recursive walk over the subtree below a node. A child is always created after its
parent, so the walk ends. -/
def visits (tree : CallTree) (index : NodeIndex) : List Visit :=
  .enter index :: (((tree.node index).children.toList.flatMap fun child =>
    if index < child ∧ child < tree.size then tree.visits child else []) ++ [.leave index])
termination_by tree.size - index
decreasing_by
  rename_i between
  exact Nat.sub_lt_sub_left (Nat.lt_trans between.1 between.2) between.1

/-- The nodes of the subtree below a node in pre-order. -/
def below (tree : CallTree) (index : NodeIndex) : List NodeIndex :=
  (tree.visits index).filterMap Visit.entered?

theorem count_enter (visits : List Visit) (index : NodeIndex) :
    visits.count (.enter index) = (visits.filterMap Visit.entered?).count index := by
  rw [List.count_filterMap, List.count]
  refine List.countP_congr fun visit _ => ?_
  cases visit <;> simp [Visit.entered?]

variable {tree : CallTree}

namespace Linked

theorem visits_eq (linked : Linked tree) (index : NodeIndex) :
    tree.visits index = .enter index ::
      ((tree.node index).children.toList.flatMap tree.visits ++ [.leave index]) := by
  rw [visits]
  congr 2
  exact List.flatMap_congr fun child isChild =>
    if_pos (linked.child_between (Array.mem_toList_iff.mp isChild))

/-- Pre-order: a node, and then the subtrees of its children in their order. -/
theorem below_eq (linked : Linked tree) (index : NodeIndex) :
    tree.below index = index :: (tree.node index).children.toList.flatMap tree.below := by
  rw [below, linked.visits_eq]
  simp only [List.filterMap_cons, List.filterMap_append, List.filterMap_flatMap, Visit.entered?,
    List.filterMap_nil, List.append_nil]
  rfl

/-- Every node is entered once and left once. -/
theorem length_visits (linked : Linked tree) (index : NodeIndex) :
    (tree.visits index).length = 2 * (tree.below index).length := by
  induction index using linked.induction_below with
  | step index inductionHypothesis =>
    have subtrees : ∀ children : List NodeIndex, (∀ child ∈ children,
        (tree.visits child).length = 2 * (tree.below child).length) →
        (children.flatMap tree.visits).length = 2 * (children.flatMap tree.below).length := by
      intro children each
      induction children with
      | nil => rfl
      | cons child children rest =>
        have first := each child List.mem_cons_self
        have others := rest fun other inside => each other (List.mem_cons_of_mem child inside)
        simp only [List.flatMap_cons, List.length_append]
        omega
    have ofChildren := subtrees (tree.node index).children.toList fun child isChild =>
      inductionHypothesis child (Array.mem_toList_iff.mp isChild)
    rw [linked.visits_eq, linked.below_eq, List.length_cons, List.length_append, ofChildren,
      List.length_singleton, List.length_cons]
    omega

end Linked

/-! ## The stack -/

/-- A stack is worked off, with these steps. Nothing bounds their number, so a stack that is
refilled forever is not worked off. -/
inductive Unwinds (tree : CallTree) : List Visit → List Visit → Prop
  | done : Unwinds tree [] []
  | leave {index : NodeIndex} {pending made : List Visit} : Unwinds tree pending made →
    Unwinds tree (.leave index :: pending) (.leave index :: made)
  | enter {index : NodeIndex} {pending made : List Visit} :
    Unwinds tree ((tree.node index).children.toList.map .enter ++ .leave index :: pending) made →
      Unwinds tree (.enter index :: pending) (.enter index :: made)

/-- A bound that leaves room for all steps is never reached. -/
theorem Unwinds.runVisits_eq {pending made : List Visit} (unwinds : Unwinds tree pending made)
    {steps : Nat} (enough : made.length ≤ steps) : tree.runVisits steps pending = made := by
  induction unwinds generalizing steps with
  | done => cases steps <;> rfl
  | leave _ inductionHypothesis | enter _ inductionHypothesis =>
    obtain ⟨steps, rfl⟩ := Nat.exists_eq_add_of_lt enough
    rw [runVisits, inductionHypothesis (by omega)]

/-- What a stack does with one node on top after the other it does with all of them on top. -/
theorem Unwinds.children {children : List NodeIndex} (each : ∀ child ∈ children,
      ∀ {pending made}, Unwinds tree pending made →
        Unwinds tree (.enter child :: pending) (tree.visits child ++ made))
    {pending made : List Visit} (rest : Unwinds tree pending made) :
    Unwinds tree (children.map .enter ++ pending) (children.flatMap tree.visits ++ made) := by
  induction children with
  | nil => exact rest
  | cons child children inductionHypothesis =>
    have onward := inductionHypothesis fun other inside =>
      each other (List.mem_cons_of_mem _ inside)
    rw [List.flatMap_cons, List.append_assoc]
    exact each child List.mem_cons_self onward

/-- A stack with a node to enter on top makes the steps of the recursive walk over its
subtree before it goes on with the rest. -/
theorem Linked.unwinds_visits (linked : Linked tree) (index : NodeIndex)
    {pending made : List Visit} (rest : Unwinds tree pending made) :
    Unwinds tree (.enter index :: pending) (tree.visits index ++ made) := by
  induction index using linked.induction_below generalizing pending made with
  | step index inductionHypothesis =>
    rw [linked.visits_eq, List.cons_append, List.append_assoc]
    exact .enter (.children (fun child isChild =>
      inductionHypothesis child (Array.mem_toList_iff.mp isChild)) (.leave rest))

/-- Steps are nested when nodes are left in the reverse order of entering, each after all that
was entered from it. The nodes that are still to be left are given, innermost first. -/
inductive Nested (tree : CallTree) : List NodeIndex → List Visit → Prop
  | done : Nested tree [] []
  | enter {index : NodeIndex} {opened : List NodeIndex} {visits : List Visit} :
    (tree.node index).parent = opened.head? → Nested tree (index :: opened) visits →
      Nested tree opened (.enter index :: visits)
  | leave {index : NodeIndex} {opened : List NodeIndex} {visits : List Visit} :
    Nested tree opened visits → Nested tree (index :: opened) (.leave index :: visits)

/-- What is entered is left, and what was to be left before. -/
theorem Nested.count_leave {opened : List NodeIndex} {visits : List Visit}
    (nested : Nested tree opened visits) (index : NodeIndex) :
    visits.count (.leave index) = visits.count (.enter index) + opened.count index := by
  induction nested with
  | done => rfl
  | enter _ _ inductionHypothesis =>
    simp only [List.count_cons, beq_iff_eq, Visit.enter.injEq, reduceCtorEq, if_false] at *
    omega
  | leave _ inductionHypothesis =>
    simp only [List.count_cons, beq_iff_eq, Visit.leave.injEq, reduceCtorEq, if_false] at *
    omega

/-- What nests when it is made for one node nests when it is made for one after the other. -/
theorem Nested.children {opened : List NodeIndex} {children : List NodeIndex}
    (each : ∀ child ∈ children, ∀ {visits}, Nested tree opened visits →
      Nested tree opened (tree.visits child ++ visits))
    {visits : List Visit} (goesOn : Nested tree opened visits) :
    Nested tree opened (children.flatMap tree.visits ++ visits) := by
  induction children with
  | nil => exact goesOn
  | cons child children inductionHypothesis =>
    have onward := inductionHypothesis fun other inside =>
      each other (List.mem_cons_of_mem _ inside)
    rw [List.flatMap_cons, List.append_assoc]
    exact each child List.mem_cons_self onward

/-- The recursive walk over a subtree is nested in the parent of its top. -/
theorem Linked.nested_visits (linked : Linked tree) (index : NodeIndex) {opened : List NodeIndex}
    {visits : List Visit} (isParent : (tree.node index).parent = opened.head?)
    (goesOn : Nested tree opened visits) : Nested tree opened (tree.visits index ++ visits) := by
  induction index using linked.induction_below generalizing opened visits with
  | step index inductionHypothesis =>
    rw [linked.visits_eq, List.cons_append, List.append_assoc]
    refine .enter isParent (.children (fun child isChild visits onward => ?_) (.leave goesOn))
    have known := Array.mem_toList_iff.mp isChild
    have isBelow : (tree.node child).parent = (index :: opened).head? :=
      (linked.mem_children.mp known).2
    exact inductionHypothesis child known isBelow onward

/-! ## Nodes below a node -/

/-- A node and the nodes above it, nearest first. -/
def lineage (tree : CallTree) (index : NodeIndex) : List NodeIndex :=
  index :: tree.ancestors index

namespace Linked

theorem ancestors_of_parent (linked : Linked tree) {index parent : NodeIndex}
    (isParent : (tree.node index).parent = some parent) :
    tree.ancestors index = tree.lineage parent := by
  rw [ancestors, isParent]
  exact if_pos (linked.parent_lt isParent)

theorem lineage_of_parent (linked : Linked tree) {index parent : NodeIndex}
    (isParent : (tree.node index).parent = some parent) :
    tree.lineage index = index :: tree.lineage parent := by
  rw [lineage, linked.ancestors_of_parent isParent]

theorem lineage_of_no_parent {index : NodeIndex} (isTop : (tree.node index).parent = none) :
    tree.lineage index = [index] := by
  rw [lineage, ancestors, isTop]

/-- What holds of a node when it holds of its parent holds of all nodes. -/
theorem induction_above {motive : NodeIndex → Prop} (linked : Linked tree)
    (top : ∀ index, (tree.node index).parent = none → motive index)
    (step : ∀ index parent, (tree.node index).parent = some parent → motive parent → motive index)
    (index : NodeIndex) : motive index := by
  induction index using Nat.strongRecOn with
  | ind index inductionHypothesis =>
    cases isParent : (tree.node index).parent with
    | none => exact top index isParent
    | some parent =>
      exact step index parent isParent (inductionHypothesis parent (linked.parent_lt isParent))

theorem le_of_mem_lineage (linked : Linked tree) {index above : NodeIndex}
    (inside : above ∈ tree.lineage index) : above ≤ index := by
  induction index using linked.induction_above with
  | top index isTop =>
    rw [lineage_of_no_parent isTop, List.mem_singleton] at inside
    exact Nat.le_of_eq inside
  | step index parent isParent inductionHypothesis =>
    rw [linked.lineage_of_parent isParent, List.mem_cons] at inside
    rcases inside with rfl | further
    · exact Nat.le_refl _
    · exact Nat.le_trans (inductionHypothesis further) (Nat.le_of_lt (linked.parent_lt isParent))

/-- Every node has the root above it. -/
theorem root_mem_lineage (linked : Linked tree) {index : NodeIndex} (inside : index < tree.size) :
    0 ∈ tree.lineage index := by
  induction index using linked.induction_above with
  | top index isTop =>
    obtain rfl : index = 0 := by
      by_contra isRoot
      obtain ⟨parent, isParent, -⟩ :=
        linked.exists_parent index (Nat.pos_of_ne_zero isRoot) inside
      rw [isTop] at isParent
      contradiction
    exact List.mem_cons_self
  | step index parent isParent inductionHypothesis =>
    rw [linked.lineage_of_parent isParent]
    have parentInside := Nat.lt_trans (linked.parent_lt isParent) inside
    exact List.mem_cons_of_mem _ (inductionHypothesis parentInside)

/-- A node is strictly above another when it is the parent of one in the lineage. -/
theorem mem_ancestors_iff (linked : Linked tree) {index above : NodeIndex} :
    above ∈ tree.ancestors index ↔
      ∃ child ∈ tree.lineage index, (tree.node child).parent = some above := by
  induction index using linked.induction_above with
  | top index isTop =>
    rw [lineage_of_no_parent isTop, ancestors, isTop]
    simp [isTop]
  | step index parent isParent inductionHypothesis =>
    have onLineage : above ∈ tree.lineage parent ↔
        parent = above ∨ above ∈ tree.ancestors parent := by
      rw [lineage, List.mem_cons, eq_comm]
    rw [linked.ancestors_of_parent isParent, linked.lineage_of_parent isParent, onLineage,
      inductionHypothesis, List.exists_mem_cons_iff, isParent, Option.some.injEq]

/-- No two nodes in a lineage have one parent. -/
theorem eq_of_parent (linked : Linked tree) {index parent first second : NodeIndex}
    (inFirst : first ∈ tree.lineage index) (inSecond : second ∈ tree.lineage index)
    (ofFirst : (tree.node first).parent = some parent)
    (ofSecond : (tree.node second).parent = some parent) : first = second := by
  -- A child of the parent of a node is not in the lineage of that parent.
  have apart : ∀ {child other}, (tree.node child).parent = some parent →
      (tree.node other).parent = some parent → child ∉ tree.lineage parent := by
    intro child other isParent _ inside
    exact Nat.not_le_of_lt (linked.parent_lt isParent) (linked.le_of_mem_lineage inside)
  induction index using linked.induction_above with
  | top index isTop =>
    rw [lineage_of_no_parent isTop, List.mem_singleton] at inFirst inSecond
    exact inFirst.trans inSecond.symm
  | step index known isParent inductionHypothesis =>
    rw [linked.lineage_of_parent isParent, List.mem_cons] at inFirst inSecond
    rcases inFirst with rfl | inFirst <;> rcases inSecond with rfl | inSecond
    · rfl
    · obtain rfl : known = parent := Option.some.inj (isParent.symm.trans ofFirst)
      exact absurd inSecond (apart ofSecond ofFirst)
    · obtain rfl : known = parent := Option.some.inj (isParent.symm.trans ofSecond)
      exact absurd inFirst (apart ofFirst ofSecond)
    · exact inductionHypothesis inFirst inSecond

/-- The nodes below a node are those with it in their lineage. -/
theorem mem_below_iff (linked : Linked tree) {index other : NodeIndex}
    (inside : index < tree.size) :
    other ∈ tree.below index ↔ other < tree.size ∧ index ∈ tree.lineage other := by
  induction index using linked.induction_below with
  | step index inductionHypothesis =>
    rw [linked.below_eq, List.mem_cons, List.mem_flatMap, lineage, List.mem_cons,
      linked.mem_ancestors_iff]
    have children : (∃ child ∈ (tree.node index).children.toList, other ∈ tree.below child) ↔
        other < tree.size ∧
          ∃ child ∈ tree.lineage other, (tree.node child).parent = some index := by
      constructor
      · rintro ⟨child, isChild, isBelow⟩
        have known := Array.mem_toList_iff.mp isChild
        obtain ⟨childInside, isParent⟩ := linked.mem_children.mp known
        obtain ⟨otherInside, above⟩ := (inductionHypothesis child known childInside).mp isBelow
        exact ⟨otherInside, child, above, isParent⟩
      · rintro ⟨otherInside, child, above, isParent⟩
        have childInside := Nat.lt_of_le_of_lt (linked.le_of_mem_lineage above) otherInside
        have known := linked.mem_children.mpr ⟨childInside, isParent⟩
        exact ⟨child, Array.mem_toList_iff.mpr known,
          (inductionHypothesis child known childInside).mpr ⟨otherInside, above⟩⟩
    rw [children, and_or_left]
    refine or_congr_left ⟨fun same => ⟨same ▸ inside, same.symm⟩, fun same => same.2.symm⟩

/-- No node is listed twice below a node. -/
theorem nodup_below (linked : Linked tree) {index : NodeIndex} (inside : index < tree.size) :
    (tree.below index).Nodup := by
  induction index using linked.induction_below with
  | step index inductionHypothesis =>
    have between : ∀ child ∈ (tree.node index).children.toList,
        index < child ∧ child < tree.size := fun child isChild =>
      linked.child_between (Array.mem_toList_iff.mp isChild)
    rw [linked.below_eq, List.nodup_cons, List.nodup_flatMap]
    refine ⟨?_, fun child isChild =>
      inductionHypothesis child (Array.mem_toList_iff.mp isChild) (between child isChild).2, ?_⟩
    · rw [List.mem_flatMap]
      rintro ⟨child, isChild, isBelow⟩
      have above := ((linked.mem_below_iff (between child isChild).2).mp isBelow).2
      exact Nat.not_le_of_lt (between child isChild).1 (linked.le_of_mem_lineage above)
    · refine (linked.distinct index).imp_of_mem fun {first second} inFirst inSecond different => ?_
      intro other belowFirst belowSecond
      obtain ⟨-, aboveFirst⟩ := (linked.mem_below_iff (between first inFirst).2).mp belowFirst
      obtain ⟨-, aboveSecond⟩ := (linked.mem_below_iff (between second inSecond).2).mp belowSecond
      exact different (linked.eq_of_parent aboveFirst aboveSecond
        (linked.mem_children.mp (Array.mem_toList_iff.mp inFirst)).2
        (linked.mem_children.mp (Array.mem_toList_iff.mp inSecond)).2)

/-- Pre-order from the root lists every node once. -/
theorem below_root_perm (linked : Linked tree) : (tree.below 0).Perm (List.range tree.size) := by
  rw [List.perm_ext_iff_of_nodup (linked.nodup_below linked.nonempty) List.nodup_range]
  intro index
  rw [linked.mem_below_iff linked.nonempty, List.mem_range, and_iff_left_iff_imp]
  exact linked.root_mem_lineage

/-- The lists of children below a node name every node there but itself once. -/
theorem flatMap_children_perm (linked : Linked tree) (index : NodeIndex) :
    ((tree.below index).flatMap fun node => (tree.node node).children.toList).Perm
      (tree.below index).tail := by
  induction index using linked.induction_below with
  | step index inductionHypothesis =>
    let children := (tree.node index).children.toList
    have each : ∀ child, tree.below child = child :: (tree.below child).tail := fun child => by
      rw [linked.below_eq, List.tail_cons]
    rw [linked.below_eq, List.flatMap_cons, List.tail_cons, List.flatMap_assoc]
    calc
      children ++ children.flatMap (fun child =>
          (tree.below child).flatMap fun node => (tree.node node).children.toList)
      _ ~ children ++ children.flatMap (fun child => (tree.below child).tail) :=
        .append_left _ (.flatMap_left _ fun child isChild =>
          inductionHypothesis child (Array.mem_toList_iff.mp isChild))
      _ ~ children.flatMap (fun child => child :: (tree.below child).tail) := by
        simpa using children.map_append_flatMap_perm id fun child => (tree.below child).tail
      _ = children.flatMap tree.below := List.flatMap_congr fun child _ => (each child).symm

theorem unwinds_root (linked : Linked tree) : Unwinds tree [.enter 0] (tree.visits 0) := by
  simpa using linked.unwinds_visits 0 .done

/-- The stack of the walk never runs out of steps, and the walk is the recursive one. -/
theorem depthFirst_eq (linked : Linked tree) : tree.depthFirst = tree.visits 0 := by
  have length : (tree.below 0).length = tree.size := by
    rw [linked.below_root_perm.length_eq, List.length_range]
  refine linked.unwinds_root.runVisits_eq ?_
  rw [linked.length_visits, length]

/-- The walk ends with an empty stack. -/
theorem unwinds_depthFirst (linked : Linked tree) : Unwinds tree [.enter 0] tree.depthFirst :=
  linked.depthFirst_eq ▸ linked.unwinds_root

/-- The walk leaves open nothing that it enters. -/
theorem nested_depthFirst (linked : Linked tree) : Nested tree [] tree.depthFirst := by
  have nested : Nested tree [] (tree.visits 0 ++ []) := linked.nested_visits 0 linked.root .done
  rwa [List.append_nil, ← linked.depthFirst_eq] at nested

theorem count_enter_depthFirst (linked : Linked tree) (index : NodeIndex) :
    tree.depthFirst.count (.enter index) = if index < tree.size then 1 else 0 := by
  rw [count_enter, linked.depthFirst_eq]
  refine (linked.below_root_perm.count_eq index).trans ?_
  simp only [List.nodup_range.count, List.mem_range]

theorem count_leave_depthFirst (linked : Linked tree) (index : NodeIndex) :
    tree.depthFirst.count (.leave index) = if index < tree.size then 1 else 0 := by
  rw [linked.nested_depthFirst.count_leave, linked.count_enter_depthFirst, List.count_nil,
    Nat.add_zero]

theorem preOrder_eq (linked : Linked tree) : tree.preOrder = tree.below 0 := by
  rw [preOrder, linked.depthFirst_eq]
  rfl

end Linked

end JitTrace.CallTree
