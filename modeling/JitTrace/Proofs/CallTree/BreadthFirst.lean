import JitTrace.Proofs.CallTree.Run

/-!
# Breadth-first walks

A breadth-first walk keeps a queue of the nodes it has seen and still has to visit. Over a tree
whose links agree, what it has left to visit is the subtrees below the queued nodes: a visited
node leaves the queue, and its children enter it. So the walk ends. It goes from level to level,
visits every node once, and hands each the value that the visit of its parent has returned.
-/

namespace JitTrace

namespace CallTree

open scoped List

variable {tree : CallTree} {State Passed : Type}

/-! ## The queue -/

/-- The nodes that are left to visit when these are queued. -/
def leftToVisit (tree : CallTree) (pending : List (NodeIndex × Option Passed)) : List NodeIndex :=
  pending.flatMap fun next => tree.below next.1

/-- A visited node is the one that is not left any more. -/
theorem Linked.leftToVisit_cons (linked : Linked tree) (index : NodeIndex)
    (passed next : Option Passed) (pending : List (NodeIndex × Option Passed)) :
    tree.leftToVisit ((index, passed) :: pending) ~ index :: tree.leftToVisit
      (pending ++ (tree.node index).children.toList.map fun child => (child, next)) := by
  let waiting := tree.leftToVisit pending
  let children := (tree.node index).children.toList.flatMap tree.below
  have onward : tree.leftToVisit
      (pending ++ (tree.node index).children.toList.map fun child => (child, next)) =
        waiting ++ children := by
    rw [leftToVisit, List.flatMap_append, List.flatMap_map]
    rfl
  calc tree.leftToVisit ((index, passed) :: pending)
    _ = index :: (children ++ waiting) := by
      rw [leftToVisit, List.flatMap_cons, linked.below_eq]
      rfl
    _ ~ index :: (waiting ++ children) := .cons index List.perm_append_comm
    _ = _ := by rw [onward]

/-- A queue is worked off: the nodes in the order of their visits, and the state in the end.
Nothing bounds the number of visits, so a queue that is refilled forever is not worked off. -/
inductive Drains (tree : CallTree)
    (visit : State → NodeIndex → Option Passed → State × Option Passed) :
    List (NodeIndex × Option Passed) → State → List NodeIndex → State → Prop
  | done (state : State) : Drains tree visit [] state [] state
  | visit {index : NodeIndex} {passed : Option Passed} {pending : List (NodeIndex × Option Passed)}
    {state last : State} {order : List NodeIndex} :
    Drains tree visit
      (pending ++ (tree.node index).children.toList.map fun child =>
        (child, (visit state index passed).2))
      (visit state index passed).1 order last →
    Drains tree visit ((index, passed) :: pending) state (index :: order) last

variable {visit : State → NodeIndex → Option Passed → State × Option Passed}
  {pending : List (NodeIndex × Option Passed)} {state last : State} {order : List NodeIndex}

/-- A bound that leaves room for all visits is never reached. -/
theorem Drains.runQueue_eq (drains : Drains tree visit pending state order last) {steps : Nat}
    (enough : order.length ≤ steps) : tree.runQueue visit steps pending state = last := by
  induction drains generalizing steps with
  | done => cases steps <;> rfl
  | visit _ inductionHypothesis =>
    obtain ⟨steps, rfl⟩ := Nat.exists_eq_add_of_lt enough
    exact inductionHypothesis (by omega)

/-- Every queue is worked off in the end. -/
theorem Linked.exists_drains (linked : Linked tree)
    (visit : State → NodeIndex → Option Passed → State × Option Passed)
    (pending : List (NodeIndex × Option Passed)) (state : State) :
    ∃ order last, Drains tree visit pending state order last := by
  induction left : (tree.leftToVisit pending).length generalizing pending state with
  | zero =>
    match pending with
    | [] => exact ⟨[], state, .done state⟩
    | (index, passed) :: pending =>
      rw [(linked.leftToVisit_cons index passed none pending).length_eq] at left
      contradiction
  | succ fewer inductionHypothesis =>
    match pending with
    | [] => contradiction
    | (index, passed) :: pending =>
      rw [(linked.leftToVisit_cons index passed (visit state index passed).2 pending).length_eq,
        List.length_cons, Nat.add_right_cancel_iff] at left
      obtain ⟨order, last, drains⟩ := inductionHypothesis _ (visit state index passed).1 left
      exact ⟨index :: order, last, .visit drains⟩

/-! ## Levels -/

/-- The nodes that are this far below the root, from left to right. -/
def level (tree : CallTree) : Nat → List NodeIndex
  | 0 => [0]
  | depth + 1 => (tree.level depth).flatMap fun index => (tree.node index).children.toList

/-- All nodes, one level after the other. -/
def byLevel (tree : CallTree) : List NodeIndex :=
  (List.range tree.size).flatMap tree.level

namespace Linked

/-- A node has fewer nodes above it than there are before it. -/
theorem length_ancestors_le (linked : Linked tree) (index : NodeIndex) :
    (tree.ancestors index).length ≤ index := by
  induction index using linked.induction_above with
  | top index isTop => simp [ancestors, isTop]
  | step index parent isParent inductionHypothesis =>
    rw [linked.ancestors_of_parent isParent, lineage, List.length_cons]
    exact Nat.lt_of_le_of_lt inductionHypothesis (linked.parent_lt isParent)

/-- The level of a node is the number of nodes above it. -/
theorem mem_level (linked : Linked tree) {depth : Nat} {index : NodeIndex} :
    index ∈ tree.level depth ↔ index < tree.size ∧ (tree.ancestors index).length = depth := by
  induction depth generalizing index with
  | zero =>
    rw [level, List.mem_singleton, List.length_eq_zero_iff]
    constructor
    · rintro rfl
      exact ⟨linked.nonempty, by rw [ancestors, linked.root]⟩
    · rintro ⟨inside, isTop⟩
      refine (linked.parent_eq_none inside).mp ?_
      cases isParent : (tree.node index).parent with
      | none => rfl
      | some parent =>
        rw [linked.ancestors_of_parent isParent] at isTop
        contradiction
  | succ depth inductionHypothesis =>
    rw [level, List.mem_flatMap]
    simp only [Array.mem_toList_iff, linked.mem_children, inductionHypothesis]
    constructor
    · rintro ⟨parent, ⟨-, above⟩, inside, isParent⟩
      refine ⟨inside, ?_⟩
      rw [linked.ancestors_of_parent isParent, lineage, List.length_cons, above]
    · rintro ⟨inside, above⟩
      cases isParent : (tree.node index).parent with
      | none =>
        rw [ancestors, isParent] at above
        contradiction
      | some parent =>
        rw [linked.ancestors_of_parent isParent, lineage, List.length_cons,
          Nat.add_right_cancel_iff] at above
        exact ⟨parent, ⟨Nat.lt_trans (linked.parent_lt isParent) inside, above⟩, inside, rfl⟩

theorem nodup_level (linked : Linked tree) (depth : Nat) : (tree.level depth).Nodup := by
  induction depth with
  | zero => exact List.nodup_singleton 0
  | succ depth inductionHypothesis =>
    refine List.nodup_flatMap.mpr ⟨fun index _ => linked.distinct index, ?_⟩
    refine inductionHypothesis.imp fun {first second} different => ?_
    intro child ofFirst ofSecond
    have isFirst := (linked.mem_children.mp (Array.mem_toList_iff.mp ofFirst)).2
    have isSecond := (linked.mem_children.mp (Array.mem_toList_iff.mp ofSecond)).2
    exact different (Option.some.inj (isFirst.symm.trans isSecond))

/-- Every node is on one level. -/
theorem byLevel_perm (linked : Linked tree) : tree.byLevel ~ List.range tree.size := by
  refine (List.perm_ext_iff_of_nodup ?_ List.nodup_range).mpr fun index => ?_
  · refine List.nodup_flatMap.mpr ⟨fun depth _ => linked.nodup_level depth, ?_⟩
    refine List.nodup_range.imp fun {first second} different index onFirst onSecond => ?_
    exact different ((linked.mem_level.mp onFirst).2.symm.trans (linked.mem_level.mp onSecond).2)
  · rw [byLevel, List.mem_flatMap, List.mem_range]
    constructor
    · rintro ⟨depth, -, onLevel⟩
      exact (linked.mem_level.mp onLevel).1
    · intro inside
      have shallow := Nat.lt_of_le_of_lt (linked.length_ancestors_le index) inside
      exact ⟨_, List.mem_range.mpr shallow, linked.mem_level.mpr ⟨inside, rfl⟩⟩

/-- No level comes before one above it. -/
theorem byLevel_outward (linked : Linked tree) : tree.byLevel.Pairwise fun first second =>
    (tree.ancestors first).length ≤ (tree.ancestors second).length := by
  refine List.pairwise_flatMap.mpr ⟨fun depth _ => ?_, List.pairwise_lt_range.imp ?_⟩
  · refine List.pairwise_of_forall_mem_list fun first onFirst second onSecond => ?_
    rw [(linked.mem_level.mp onFirst).2, (linked.mem_level.mp onSecond).2]
  · intro above below further first onFirst second onSecond
    rw [(linked.mem_level.mp onFirst).2, (linked.mem_level.mp onSecond).2]
    exact Nat.le_of_lt further

/-- A node comes after its parent. -/
theorem parent_before (linked : Linked tree) {before after : List NodeIndex}
    {index parent : NodeIndex} (inOrder : tree.byLevel = before ++ index :: after)
    (isParent : (tree.node index).parent = some parent) : parent ∈ before := by
  have parentInside := Nat.lt_trans (linked.parent_lt isParent) (lt_size_of_parent isParent)
  have outward := linked.byLevel_outward
  have isListed := linked.byLevel_perm.mem_iff.mpr (List.mem_range.mpr parentInside)
  rw [inOrder, List.mem_append, List.mem_cons] at isListed
  rw [inOrder, List.pairwise_append, List.pairwise_cons] at outward
  rcases isListed with earlier | rfl | later
  · exact earlier
  · exact absurd (linked.parent_lt isParent) (Nat.lt_irrefl _)
  · have further := outward.2.1.1 parent later
    rw [linked.ancestors_of_parent isParent, lineage, List.length_cons] at further
    exact absurd further (Nat.not_succ_le_self _)

end Linked

/-- The first nodes of a queue are visited first, and leave their children behind those that
wait for longer. -/
theorem Drains.exists_front (drains : Drains tree visit pending state order last)
    {front back : List NodeIndex} (queued : pending.map Prod.fst = front ++ back) :
    ∃ pending' state' order', order = front ++ order' ∧
      pending'.map Prod.fst =
        back ++ front.flatMap (fun index => (tree.node index).children.toList) ∧
      Drains tree visit pending' state' order' last := by
  induction front generalizing pending state order back with
  | nil => exact ⟨pending, state, order, rfl, by simpa using queued, drains⟩
  | cons index front inductionHypothesis =>
    cases drains with
    | done => contradiction
    | @visit other passed pending _ _ order drains =>
      obtain ⟨rfl, waiting⟩ := List.cons.inj queued
      have queued' : (pending ++ (tree.node other).children.toList.map fun child =>
          (child, (visit state other passed).2)).map Prod.fst =
            front ++ (back ++ (tree.node other).children.toList) := by
        simp [waiting, Function.comp_def]
      obtain ⟨pending', state', order', rfl, behind, drains'⟩ :=
        inductionHypothesis drains queued'
      exact ⟨pending', state', order', rfl, by simp [behind], drains'⟩

/-- With the root in the queue, all levels above one are visited before it. -/
theorem Drains.exists_level {passed : Option Passed}
    (drains : Drains tree visit [(0, passed)] state order last) (depth : Nat) :
    ∃ pending' state' order', order = (List.range depth).flatMap tree.level ++ order' ∧
      pending'.map Prod.fst = tree.level depth ∧
      Drains tree visit pending' state' order' last := by
  induction depth with
  | zero => exact ⟨_, _, _, rfl, rfl, drains⟩
  | succ depth inductionHypothesis =>
    obtain ⟨pending, state, order, rfl, queued, onward⟩ := inductionHypothesis
    obtain ⟨pending', state', order', rfl, behind, onward'⟩ :=
      onward.exists_front (queued.trans (List.append_nil _).symm)
    refine ⟨pending', state', order', ?_, behind, onward'⟩
    simp [List.range_succ]

/-- With the root in the queue, nodes are visited level by level. -/
theorem Linked.order_eq_byLevel (linked : Linked tree) {passed : Option Passed}
    (drains : Drains tree visit [(0, passed)] state order last) : order = tree.byLevel := by
  obtain ⟨pending, state', order', rfl, queued, onward⟩ := drains.exists_level tree.size
  have noLevel : tree.level tree.size = [] := by
    refine List.eq_nil_iff_forall_not_mem.mpr fun index onLevel => ?_
    obtain ⟨inside, above⟩ := linked.mem_level.mp onLevel
    exact Nat.not_lt_of_le (above ▸ linked.length_ancestors_le index) inside
  obtain rfl : pending = [] := List.map_eq_nil_iff.mp (queued.trans noLevel)
  cases onward
  exact List.append_nil _

/-- The walk ends, having gone from level to level. -/
theorem Linked.drains_breadthFirst (linked : Linked tree)
    (visit : State → NodeIndex → Option Passed → State × Option Passed) (state : State) :
    Drains tree visit [(0, none)] state tree.byLevel (tree.breadthFirst visit state) := by
  obtain ⟨order, last, drains⟩ := linked.exists_drains visit [(0, none)] state
  obtain rfl := linked.order_eq_byLevel drains
  have length : tree.byLevel.length = tree.size := by
    rw [linked.byLevel_perm.length_eq, List.length_range]
  rwa [breadthFirst, drains.runQueue_eq length.le]

/-! ## What visits keep -/

/-- What every visit keeps: `holds` speaks of the nodes visited so far, and `fits` of what is
passed to a node. -/
structure Kept (tree : CallTree)
    (visit : State → NodeIndex → Option Passed → State × Option Passed)
    (holds : List NodeIndex → State → Prop) (fits : State → NodeIndex → Option Passed → Prop) :
    Prop where
  step : ∀ {visited state index passed}, holds visited state → fits state index passed →
    holds (visited ++ [index]) (visit state index passed).1
  /-- What the visit passes on fits the children. -/
  children : ∀ {visited state index passed}, holds visited state → fits state index passed →
    ∀ child ∈ (tree.node index).children,
      fits (visit state index passed).1 child (visit state index passed).2
  /-- What waits for other nodes goes on fitting them. -/
  others : ∀ {visited state index passed other value}, holds visited state →
    fits state index passed → fits state other value →
      fits (visit state index passed).1 other value

variable {holds : List NodeIndex → State → Prop} {fits : State → NodeIndex → Option Passed → Prop}

/-- What every visit keeps is kept until the queue is worked off. -/
theorem Drains.keeps (drains : Drains tree visit pending state order last)
    (kept : Kept tree visit holds fits) {visited : List NodeIndex} (held : holds visited state)
    (fitting : ∀ next ∈ pending, fits state next.1 next.2) : holds (visited ++ order) last := by
  induction drains generalizing visited with
  | done => rwa [List.append_nil]
  | visit _ inductionHypothesis =>
    have fitsHere := fitting _ List.mem_cons_self
    have holdsThen := inductionHypothesis (kept.step held fitsHere) fun next queued => by
      rcases List.mem_append.mp queued with waiting | isChild
      · exact kept.others held fitsHere (fitting next (List.mem_cons_of_mem _ waiting))
      · obtain ⟨child, listed, rfl⟩ := List.mem_map.mp isChild
        exact kept.children held fitsHere child (Array.mem_toList_iff.mp listed)
    rwa [List.append_assoc] at holdsThen

/-- The walk visits every node once. -/
theorem Linked.breadthFirst_visits (linked : Linked tree) (kept : Kept tree visit holds fits)
    (held : holds [] state) (fitting : fits state 0 none) :
    ∃ order, order ~ List.range tree.size ∧ holds order (tree.breadthFirst visit state) := by
  have drains := linked.drains_breadthFirst visit state
  exact ⟨tree.byLevel, linked.byLevel_perm,
    drains.keeps kept held (List.forall_mem_singleton.mpr fitting)⟩

/-! ## Values from parents -/

/-- A visit of a node, which gets what the visit of its parent has returned. It is on record what
was returned so far. -/
def visitInTurn (tree : CallTree)
    (visit : State → NodeIndex → Option Passed → State × Option Passed) :
    State × (NodeIndex → Option Passed) → NodeIndex → State × (NodeIndex → Option Passed)
  | (state, returned), index =>
    let (state, value) := visit state index ((tree.node index).parent.bind returned)
    (state, Function.update returned index value)

/-- While a node is visited, no child of it waits in the queue. -/
theorem Linked.not_child_of_waiting (linked : Linked tree) {index : NodeIndex}
    {passed : Option Passed} (once : (tree.leftToVisit ((index, passed) :: pending)).Nodup) :
    ∀ next ∈ pending, (tree.node next.1).parent ≠ some index := by
  intro next waiting isParent
  have isChild := linked.mem_children.mpr ⟨lt_size_of_parent isParent, isParent⟩
  have isBelow : next.1 ∈ tree.below next.1 := by
    rw [linked.below_eq]
    exact List.mem_cons_self
  rw [leftToVisit, List.flatMap_cons, linked.below_eq, List.nodup_append] at once
  refine once.2.2 next.1 (List.mem_cons_of_mem _ ?_) next.1 ?_ rfl
  · exact List.mem_flatMap.mpr ⟨next.1, Array.mem_toList_iff.mpr isChild, isBelow⟩
  · exact List.mem_flatMap.mpr ⟨next, waiting, isBelow⟩

/-- What is in the queue with a node is what the visit of its parent has returned. -/
theorem Linked.eq_foldl_visitInTurn (linked : Linked tree)
    (drains : Drains tree visit pending state order last) {returned : NodeIndex → Option Passed}
    (once : (tree.leftToVisit pending).Nodup)
    (onRecord : ∀ next ∈ pending, next.2 = (tree.node next.1).parent.bind returned) :
    last = (order.foldl (tree.visitInTurn visit) (state, returned)).1 := by
  induction drains generalizing returned with
  | done => rfl
  | @visit index passed pending state last order _ inductionHypothesis =>
    have apart := linked.not_child_of_waiting once
    obtain rfl : passed = (tree.node index).parent.bind returned :=
      onRecord _ List.mem_cons_self
    rw [(linked.leftToVisit_cons ..).nodup_iff, List.nodup_cons] at once
    rw [List.foldl_cons, visitInTurn]
    refine inductionHypothesis once.2 fun next queued => ?_
    rcases List.mem_append.mp queued with waiting | isChild
    · rw [onRecord next (List.mem_cons_of_mem _ waiting)]
      refine Option.bind_congr fun parent isParent => ?_
      rw [Function.update_of_ne]
      rintro rfl
      exact apart next waiting isParent
    · obtain ⟨child, listed, rfl⟩ := List.mem_map.mp isChild
      have isParent := (linked.mem_children.mp (Array.mem_toList_iff.mp listed)).2
      rw [isParent, Option.bind_some, Function.update_self]

/-- The walk passes to every node what the visit of its parent has returned. -/
theorem Linked.breadthFirst_eq_foldl (linked : Linked tree)
    (visit : State → NodeIndex → Option Passed → State × Option Passed) (state : State) :
    tree.breadthFirst visit state =
      (tree.byLevel.foldl (tree.visitInTurn visit) (state, fun _ => none)).1 := by
  refine linked.eq_foldl_visitInTurn (linked.drains_breadthFirst visit state) ?_ ?_
  · rw [leftToVisit, List.flatMap_singleton]
    exact linked.nodup_below linked.nonempty
  · rw [List.forall_mem_singleton, linked.root, Option.bind_none]

end CallTree

/-! ## Trees that arise -/

open CallTree (Unwinds Nested Drains)

/-- What the two walks over a tree are. -/
structure CallTree.Walked (tree : CallTree) : Prop where
  /-- Children are listed in order of creation. -/
  children : ∀ index, (tree.node index).children.toList =
    (List.range tree.size).filter fun child => (tree.node child).parent = some index
  /-- The depth-first walk ends. -/
  unwinds : Unwinds tree [.enter 0] tree.depthFirst
  /-- It is the recursive walk from the root. -/
  recursive : tree.depthFirst = tree.visits 0
  visits : ∀ index, tree.visits index = .enter index ::
    ((tree.node index).children.toList.flatMap tree.visits ++ [.leave index])
  entered_once : ∀ index,
    tree.depthFirst.count (.enter index) = if index < tree.size then 1 else 0
  left_once : ∀ index,
    tree.depthFirst.count (.leave index) = if index < tree.size then 1 else 0
  nested : Nested tree [] tree.depthFirst
  /-- The breadth-first walk visits every node once, level by level. -/
  visited_once : tree.byLevel.Perm (List.range tree.size)
  levels : ∀ depth index, index ∈ tree.level depth ↔
    index < tree.size ∧ (tree.ancestors index).length = depth
  parent_first : ∀ before index after, tree.byLevel = before ++ index :: after →
    ∀ parent, (tree.node index).parent = some parent → parent ∈ before
  /-- It ends, whatever the visits do. -/
  drains : ∀ {State Passed : Type}
    (visit : State → NodeIndex → Option Passed → State × Option Passed) (state : State),
    Drains tree visit [(0, none)] state tree.byLevel (tree.breadthFirst visit state)
  /-- A node gets what the visit of its parent has returned, and the root gets nothing. -/
  passes : ∀ {State Passed : Type}
    (visit : State → NodeIndex → Option Passed → State × Option Passed) (state : State),
    tree.breadthFirst visit state =
      (tree.byLevel.foldl (tree.visitInTurn visit) (state, fun _ => none)).1

namespace GrowingTree

/-- Both walks over a tree that arises visit all of it, in their order. -/
theorem walked_of_arises {layout : Layout} {growing : GrowingTree}
    (arises : Arises layout growing) : growing.tree.Walked := by
  have linked := arises.trie.toLinked
  exact {
    children := linked.children_eq
    unwinds := linked.unwinds_depthFirst
    recursive := linked.depthFirst_eq
    visits := linked.visits_eq
    entered_once := linked.count_enter_depthFirst
    left_once := linked.count_leave_depthFirst
    nested := linked.nested_depthFirst
    visited_once := linked.byLevel_perm
    levels := fun _ _ => linked.mem_level
    parent_first := fun _ _ _ inOrder _ => linked.parent_before inOrder
    drains := linked.drains_breadthFirst
    passes := linked.breadthFirst_eq_foldl }

theorem walked_sampledTwice : Arises .nested sampledTwice ∧ sampledTwice.tree.Walked :=
  ⟨arises_sampledTwice, walked_of_arises arises_sampledTwice⟩

end GrowingTree

end JitTrace
