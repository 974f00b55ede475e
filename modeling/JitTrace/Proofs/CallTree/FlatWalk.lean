import JitTrace.Proofs.CallTree.Collecting
import JitTrace.Proofs.Tally

/-!
# The walk that fills a flat tree

The walk keeps a depth for every label. It is raised when a node is entered and lowered when
it is left, if the node is counted, and whether it is counted is decided anew each time from
the depths. What the depths are on entering a node can be told from the labels above it alone,
and the subtree below the node leaves them as they were. So each node contributes what the
labels above it say.
-/

namespace JitTrace

namespace CallTree

/-! ## Labels above a node -/

/-- How often a label stands among the labels above a node, nearest first, from the outermost
one that is the region on. -/
def nesting (region label : String) : List String → Nat
  | [] => 0
  | above :: outer => nesting region label outer +
      if label = above ∧ (above = region ∨ region ∈ outer) then 1 else 0

theorem nesting_region_pos {region : String} {above : List String} :
    0 < nesting region region above ↔ region ∈ above := by
  induction above with
  | nil => simp [nesting]
  | cons label outer inductionHypothesis =>
    rw [nesting, List.mem_cons, Nat.add_pos_iff_pos_or_pos, inductionHypothesis]
    by_cases isRegion : region = label <;> simp [isRegion]

/-- The labels above a node, nearest first. -/
def labelsAbove (tree : CallTree) (index : NodeIndex) : List String :=
  (tree.ancestors index).map fun above => (tree.node above).label

/-- What a node contributes to the flat tree of a region: inside the region to the row of its
label, and where it starts the region to the root. -/
def share (tree : CallTree) (total : NodeIndex → Nat) (region : String) (index : NodeIndex) :
    Option Contribution :=
  let node := tree.node index
  let above := tree.labelsAbove index
  if region ∈ above then
    some {
      path := [(node.label, node.entry)]
      own := node.selfWeight
      total :=
        if node.label = region ∨ nesting region node.label above = 0 then total index else 0 }
  else if node.label = region then some { path := [], own := node.selfWeight, total := total index }
  else none

variable {tree : CallTree}

theorem Linked.labelsAbove_of_parent (linked : Linked tree) {index parent : NodeIndex}
    (isParent : (tree.node index).parent = some parent) :
    tree.labelsAbove index = (tree.node parent).label :: tree.labelsAbove parent := by
  rw [labelsAbove, linked.ancestors_of_parent isParent]
  rfl

/-! ## The walk -/

namespace FlatWalk

variable {walk : FlatWalk} {region : String} {above : List String} {node : CallNode}

/-- The depths of a walk are those of a place below the given labels. -/
def StandsBelow (walk : FlatWalk) (region : String) (above : List String) : Prop :=
  ∀ label, Tally.count walk.depths label = nesting region label above

theorem StandsBelow.inside (stands : walk.StandsBelow region above) :
    walk.inside region = decide (region ∈ above) := by
  rw [FlatWalk.inside, decide_eq_decide, stands, nesting_region_pos]

/-- A node is counted when it carries the region's label or stands inside the region. -/
theorem StandsBelow.enter (stands : walk.StandsBelow region above) (node : CallNode) :
    (walk.enter region node).StandsBelow region (node.label :: above) := by
  intro label
  have known := stands label
  rw [FlatWalk.enter, stands.inside, nesting]
  by_cases counted : node.label = region ∨ region ∈ above
  · simp only [Bool.or_eq_true, beq_iff_eq, decide_eq_true_eq, counted, if_true, and_true,
      Tally.count_bump, known]
  · simp only [Bool.or_eq_true, beq_iff_eq, decide_eq_true_eq, counted, if_false, and_false,
      known, Nat.add_zero]

/-- On the way out the same is decided as on the way in, so the depth that was raised is
lowered. -/
theorem StandsBelow.leave (stands : walk.StandsBelow region (node.label :: above)) :
    (walk.leave region node).StandsBelow region above := by
  intro label
  have known := stands label
  rw [nesting] at known
  have same : (node.label = region ∨ region ∈ node.label :: above) ↔
      node.label = region ∨ region ∈ above := by
    rw [List.mem_cons, eq_comm (a := region)]
    tauto
  rw [FlatWalk.leave, stands.inside]
  by_cases counted : node.label = region ∨ region ∈ above
  · simp only [Bool.or_eq_true, beq_iff_eq, decide_eq_true_eq, same, counted, if_true,
      Tally.count_lower]
    simp only [counted, and_true] at known
    rw [known, Nat.add_sub_cancel]
  · simp only [Bool.or_eq_true, beq_iff_eq, decide_eq_true_eq, same, counted, if_false]
    simpa only [counted, and_false, if_false, Nat.add_zero] using known

theorem growing_leave (walk : FlatWalk) (region : String) (node : CallNode) :
    (walk.leave region node).growing = walk.growing := by
  rw [FlatWalk.leave]
  split <;> rfl

theorem addToRow_eq (growing : GrowingTree) (node : CallNode) (outermost : Bool) :
    addToRow growing node outermost = growing.collect {
      path := [(node.label, node.entry)]
      own := node.selfWeight
      total := if outermost then node.totalWeight else 0 } :=
  rfl

theorem addToRoot_eq (growing : GrowingTree) (node : CallNode) :
    addToRoot growing node =
      growing.collect { path := [], own := node.selfWeight, total := node.totalWeight } :=
  rfl

/-- Entering a node takes its share. -/
theorem growing_enter {index : NodeIndex}
    (stands : walk.StandsBelow region (tree.labelsAbove index)) :
    (walk.enter region (tree.node index)).growing =
      (tree.share (fun index => (tree.node index).totalWeight) region index).toList.foldl
        GrowingTree.collect walk.growing := by
  rw [FlatWalk.enter, stands.inside, stands, share, addToRow_eq, addToRoot_eq]
  by_cases inside : region ∈ tree.labelsAbove index
  · simp [inside]
  · by_cases isRegion : (tree.node index).label = region <;> simp [inside, isRegion]

end FlatWalk

/-- The walk over the subtree below a node takes the shares of the nodes there and ends where
it began. -/
theorem Linked.foldl_visits (linked : Linked tree) {region : String} (index : NodeIndex)
    {walk : FlatWalk} (stands : walk.StandsBelow region (tree.labelsAbove index)) :
    let after := (tree.visits index).foldl (FlatWalk.visit tree region) walk
    after.StandsBelow region (tree.labelsAbove index) ∧
      after.growing = ((tree.below index).filterMap
        (tree.share (fun index => (tree.node index).totalWeight) region)).foldl
          GrowingTree.collect walk.growing := by
  let take := tree.share (fun index => (tree.node index).totalWeight) region
  induction index using linked.induction_below generalizing walk with
  | step index inductionHypothesis =>
    -- For the children the node's own label is one of those above. Each subtree leaves the
    -- depths to the next as it found them.
    have subtrees : ∀ children : List NodeIndex,
        (∀ child ∈ children, child ∈ (tree.node index).children) → ∀ {walk : FlatWalk},
        walk.StandsBelow region ((tree.node index).label :: tree.labelsAbove index) →
        let after := (children.flatMap tree.visits).foldl (FlatWalk.visit tree region) walk
        after.StandsBelow region ((tree.node index).label :: tree.labelsAbove index) ∧
          after.growing = ((children.flatMap tree.below).filterMap take).foldl
            GrowingTree.collect walk.growing := by
      intro children each
      induction children with
      | nil => exact fun stands => ⟨stands, rfl⟩
      | cons child children rest =>
        intro walk stands
        have known := each child List.mem_cons_self
        have labels := linked.labelsAbove_of_parent (linked.mem_children.mp known).2
        rw [← labels] at stands
        have first := inductionHypothesis child known stands
        rw [labels] at first
        have others := rest (fun other inside => each other (List.mem_cons_of_mem child inside))
          first.1
        rw [List.flatMap_cons, List.flatMap_cons, List.foldl_append, List.filterMap_append,
          List.foldl_append, ← first.2]
        exact others
    have ofChildren := subtrees (tree.node index).children.toList
      (fun child isChild => Array.mem_toList_iff.mp isChild) (stands.enter (tree.node index))
    have own : (tree.below index).filterMap take =
        (take index).toList ++
          ((tree.node index).children.toList.flatMap tree.below).filterMap take := by
      rw [linked.below_eq, List.filterMap_cons]
      cases take index <;> rfl
    rw [linked.visits_eq, List.foldl_cons, List.foldl_append, own, List.foldl_append,
      ← FlatWalk.growing_enter stands]
    exact ⟨ofChildren.1.leave, (FlatWalk.growing_leave _ _ _).trans ofChildren.2⟩

end CallTree

end JitTrace
