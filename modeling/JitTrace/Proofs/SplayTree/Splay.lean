import JitTrace.Proofs.SplayTree.Spine
import Mathlib.Logic.Function.Basic

/-!
# Splaying

What a splay does to linked slots that spell out a shape: it never meets a vacated
slot, it ends within as many turns as there are nodes, it keeps the nodes in order,
and it leaves at the root a node that separates the smaller keys from the greater
ones. `Descending` is the invariant of its loop.
-/

namespace JitTrace.SplayTree

@[simp] theorem Descent.spine_withSpine (descent : Descent) (side : Side) (spine : Spine)
    (other : Side) :
    (descent.withSpine side spine).spine other =
      if other = side then spine else descent.spine other := by
  cases side <;> cases other <;> rfl

@[simp] theorem Descent.spine_current (descent : Descent) (current : Handle) (side : Side) :
    ({ descent with current } : Descent).spine side = descent.spine side := by
  cases side <;> rfl

variable {Key Value : Type}

section Direction

variable [Ord Key]

/-- On which side of a node a key lies. -/
def direction (tree : SplayTree Key Value) (key : Key) (handle : Handle) : Ordering :=
  match tree.key? handle with
  | some stored => compare key stored
  | none => .eq

theorem direction_of_slot {tree : SplayTree Key Value} {key : Key} {handle : Handle}
    {slot : Slot Key Value} (found : tree.slot? handle = some slot) :
    tree.direction key handle = compare key slot.key := by
  simp [direction, SplayTree.key?, found]

theorem Rearranged.direction {before after : SplayTree Key Value}
    (same : Rearranged before after) (key : Key) : after.direction key = before.direction key := by
  funext handle
  simp [SplayTree.direction, same.key?]

/-- A shape whose nodes are live and in order as far as a key can tell: of any two
nodes, the key lies behind the first or before the second. -/
structure Searchable (tree : SplayTree Key Value) (key : Key) (handles : List Handle) : Prop where
  live : ∀ handle ∈ handles, (tree.slot? handle).isSome
  distinct : handles.Nodup
  ordered : handles.Pairwise fun first second =>
    tree.direction key first = .gt ∨ tree.direction key second = .lt

end Direction

/-- The invariant of a descent that began at `start` over the nodes `handles`. The
pieces cut off so far and the shape still ahead hold the nodes in order. -/
structure Descending (start : SplayTree Key Value) (handles : List Handle)
    (tree : SplayTree Key Value) (descent : Descent) (pieces : Side → Pieces) (shape : Shape) :
    Prop where
  rearranged : Rearranged start tree
  current : Linked tree.child? shape (some descent.current)
  hanging : ∀ side, Hanging tree.child? side (pieces side) (descent.spine side)
  inOrder : Pieces.handles .left (pieces .left) ++ shape.handles ++
    Pieces.handles .right (pieces .right) = handles
  outside : ∀ handle ∉ handles, ∀ side, tree.child? side handle = start.child? side handle

namespace Descending

variable {start tree : SplayTree Key Value} {key : Key} {handles : List Handle}
  {descent : Descent} {pieces : Side → Pieces} {shape : Shape}

/-- The order of the nodes, read from either side. -/
theorem join_eq (state : Descending start handles tree descent pieces shape) (side : Side) :
    side.join (Pieces.handles side (pieces side))
      (side.join shape.handles (Pieces.handles side.opposite (pieces side.opposite))) =
        handles := by
  rw [← state.inOrder]
  cases side <;> simp [Side.join, Side.opposite]

/-- The parts of a descent share no node. -/
theorem apart (state : Descending start handles tree descent pieces shape)
    (distinct : handles.Nodup) (side : Side) :
    (Pieces.handles side (pieces side)).Nodup ∧ shape.handles.Nodup ∧
      (Pieces.handles side.opposite (pieces side.opposite)).Nodup ∧
      (∀ handle ∈ Pieces.handles side (pieces side), handle ∉ shape.handles ∧
        handle ∉ Pieces.handles side.opposite (pieces side.opposite)) ∧
      ∀ handle ∈ shape.handles,
        handle ∉ Pieces.handles side.opposite (pieces side.opposite) := by
  have order := state.join_eq side ▸ distinct
  simp only [Side.nodup_join, Side.mem_join, not_or] at order
  obtain ⟨onSide, ⟨inShape, onOther, apartFromOther⟩, apartFromSide⟩ := order
  exact ⟨onSide, inShape, onOther, apartFromSide, apartFromOther⟩

/-- Every node ahead is one of the nodes. -/
theorem mem_of_shape (state : Descending start handles tree descent pieces shape)
    {handle : Handle} (inside : handle ∈ shape.handles) : handle ∈ handles := by
  rw [← state.inOrder]
  simp [inside]

/-- Every node cut off is one of the nodes. -/
theorem mem_of_pieces (state : Descending start handles tree descent pieces shape) {side : Side}
    {handle : Handle} (inside : handle ∈ Pieces.handles side (pieces side)) :
    handle ∈ handles := by
  rw [← state.join_eq side]
  simp [inside]

/-- A changed child link of one of the nodes leaves the other links alone. -/
theorem outside_relink (state : Descending start handles tree descent pieces shape)
    {changed : Handle} (inside : changed ∈ handles) (on : Side) (target : Option Handle) :
    ∀ handle ∉ handles, ∀ side,
      ChildLinks.relink tree.child? changed on target side handle = start.child? side handle := by
  intro handle notInside side
  rw [ChildLinks.relink_of_ne _ _ _ (ne_of_mem_of_not_mem inside notInside).symm]
  exact state.outside handle notInside side

variable [Ord Key] {key : Key}

/-- The nodes stay live. -/
theorem live (state : Descending start handles tree descent pieces shape)
    (searchable : Searchable start key handles) {handle : Handle} (inside : handle ∈ handles) :
    (tree.slot? handle).isSome := by
  rw [state.rearranged.live]
  exact searchable.live handle inside

/-- Cutting the current node off keeps the invariant, with the far subtree hung on
the far spine and the near subtree ahead. -/
theorem exists_tryCut {side : Side} {near far : Shape} {root next : Handle}
    (state : Descending start handles tree descent pieces (.onSide side near root far))
    (searchable : Searchable start key handles)
    (link : tree.child? side descent.current = some next) :
    ∃ cut onward, tree.tryCut descent side next = some (cut, onward) ∧
      Descending start handles cut onward
        (Function.update pieces side.opposite ((far, root) :: pieces side.opposite)) near := by
  obtain ⟨same, onNear, onFar⟩ := Linked.onSide_iff.mp state.current
  obtain rfl := Option.some.inj same
  rw [link] at onNear
  obtain ⟨-, inShape, onOther, apartFromSide, apartFromOther⟩ :=
    state.apart searchable.distinct side
  have inOrder : Pieces.handles .left
        (Function.update pieces side.opposite
          ((far, descent.current) :: pieces side.opposite) .left) ++ near.handles ++
      Pieces.handles .right (Function.update pieces side.opposite
          ((far, descent.current) :: pieces side.opposite) .right) = handles := by
    rw [← state.inOrder]
    cases side <;> simp [Pieces.handles, Side.join, Side.opposite, Shape.onSide, Shape.handles]
  obtain ⟨⟨head, tail⟩, spine⟩ : ∃ spine, descent.spine side.opposite = spine := ⟨_, rfl⟩
  have chain := state.hanging side.opposite
  rw [spine] at chain
  cases tail with
  | none =>
    have nothing := chain.eq_nil
    refine ⟨tree, { descent.withSpine side.opposite
      ⟨some descent.current, some descent.current⟩ with current := next },
      by simp [tryCut, spine], state.rearranged, onNear, fun other => ?_, inOrder, state.outside⟩
    by_cases isFar : other = side.opposite
    · subst isFar
      simpa [nothing] using Hanging.outermost onFar
    · simpa [isFar] using state.hanging other
  | some tail =>
    have tailInside : tail ∈ handles := state.mem_of_pieces chain.tail_mem
    have tailLive := state.live searchable tailInside
    have notInShape : tail ∉ (Shape.onSide side near descent.current far).handles :=
      fun inside => apartFromOther tail inside chain.tail_mem
    simp only [Shape.handles_onSide, Side.mem_join, not_or] at notInShape
    refine ⟨tree.modifySlot tail (·.withChild side (some descent.current)),
      { descent.withSpine side.opposite ⟨head, some descent.current⟩ with current := next },
      by simp [tryCut, spine, tryModify_of_live tailLive], ?_, ?_, ?_, inOrder, ?_⟩
    · exact state.rearranged.trans (.withChild ..)
    · rw [child?_withChild tailLive]
      exact onNear.relink _ _ notInShape.1
    · intro other
      rw [child?_withChild tailLive]
      by_cases isFar : other = side.opposite
      · subst isFar
        have filled := chain.relink_tail onOther (some descent.current)
        rw [Side.opposite_opposite] at filled
        have farFilled := onFar.relink side (some descent.current) notInShape.2.2
        rw [← ChildLinks.relink_of_ne tree.child? side (some descent.current)
          (Ne.symm (List.ne_of_not_mem_cons notInShape.2.1))] at farFilled
        simpa using Hanging.inner filled (by simp) farFilled
      · obtain rfl : other = side := by
          simpa using Side.eq_opposite_of_ne isFar
        have apartFromTail : tail ∉ Pieces.handles other (pieces other) :=
          fun inside => (apartFromSide tail inside).2 chain.tail_mem
        simpa using (state.hanging other).relink
          (state.apart searchable.distinct other).1 other _ apartFromTail
    · rw [child?_withChild tailLive]
      exact state.outside_relink tailInside _ _

/-- Rotating the near child above the current node keeps the invariant. -/
theorem exists_tryRotate {side : Side} {outer inner far : Shape} {child root : Handle}
    (state : Descending start handles tree descent pieces
      (.onSide side (.onSide side outer child inner) root far))
    (searchable : Searchable start key handles) :
    ∃ rotated, tree.tryRotate descent.current side child (tree.child? side.opposite child) =
        some rotated ∧
      rotated.child? side child = tree.child? side child ∧
      Descending start handles rotated { descent with current := child } pieces
        (.onSide side outer child (.onSide side inner root far)) := by
  obtain ⟨same, onNear, onFar⟩ := Linked.onSide_iff.mp state.current
  obtain rfl := Option.some.inj same
  obtain ⟨childLink, onOuter, onInner⟩ := Linked.onSide_iff.mp onNear
  obtain ⟨-, inShape, -, apartFromSide, apartFromOther⟩ := state.apart searchable.distinct side
  have inOrder : Pieces.handles .left (pieces .left) ++
      (Shape.onSide side outer child (.onSide side inner descent.current far)).handles ++
        Pieces.handles .right (pieces .right) = handles := by
    rw [← state.inOrder]
    cases side <;> simp [Shape.onSide, Shape.handles]
  have currentInside : descent.current ∈ handles :=
    state.mem_of_shape (by simp [Shape.handles_onSide])
  have childInside : child ∈ handles := state.mem_of_shape (by simp [Shape.handles_onSide])
  have currentLive := state.live searchable currentInside
  simp only [Shape.handles_onSide, Side.nodup_join, Side.mem_join, List.mem_singleton] at inShape
  have different : child ≠ descent.current := by grind
  let lowered := tree.modifySlot descent.current
    (·.withChild side (tree.child? side.opposite child))
  have childLive : (lowered.slot? child).isSome := by
    have live := state.live searchable childInside
    simp [lowered, different, live]
  let rotated := lowered.modifySlot child (·.withChild side.opposite (some descent.current))
  have links : rotated.child? = (ChildLinks.relink tree.child? descent.current side
      (tree.child? side.opposite child)).relink child side.opposite (some descent.current) := by
    rw [child?_withChild childLive, child?_withChild currentLive]
  have elsewhere : ∀ handle, handle ≠ child → handle ≠ descent.current → ∀ on,
      rotated.child? on handle = tree.child? on handle := by
    intro handle notChild notCurrent on
    rw [links, ChildLinks.relink_of_ne _ _ _ notChild, ChildLinks.relink_of_ne _ _ _ notCurrent]
  have outerLink : rotated.child? side child = tree.child? side child := by
    rw [links]
    simp [ChildLinks.relink, different]
  have onPieces : ∀ other, Hanging rotated.child? other (pieces other) (descent.spine other) := by
    intro other
    refine (state.hanging other).congr (state.apart searchable.distinct other).1 ?_
    intro handle inside on _
    have outside := ((state.apart searchable.distinct other).2.2.2.1 handle inside).1
    simp only [Shape.handles_onSide, Side.mem_join, List.mem_singleton, not_or] at outside
    exact elsewhere handle outside.1.2.1 outside.2.1 on
  refine ⟨rotated, ?_, outerLink, ?_, ?_, ?_, inOrder, ?_⟩
  · simp [tryRotate, tryModify_of_live currentLive, lowered,
      tryModify_of_live childLive, rotated]
  · exact state.rearranged.trans (.trans (.withChild ..) (.withChild ..))
  · refine Linked.onSide_iff.mpr ⟨rfl, ?_, Linked.onSide_iff.mpr ⟨?_, ?_, ?_⟩⟩
    · rw [outerLink]
      exact onOuter.congr fun handle inside on => elsewhere handle (by grind) (by grind) on
    · simp [links]
    · have : rotated.child? side descent.current = tree.child? side.opposite child := by
        rw [links, ChildLinks.relink_of_ne _ _ _ different.symm]
        simp
      rw [this]
      exact onInner.congr fun handle inside on => elsewhere handle (by grind) (by grind) on
    · have : rotated.child? side.opposite descent.current =
          tree.child? side.opposite descent.current := by
        rw [links, ChildLinks.relink_of_ne _ _ _ different.symm]
        simp
      rw [this]
      exact onFar.congr fun handle inside on => elsewhere handle (by grind) (by grind) on
  · intro other
    simpa using onPieces other
  · intro handle notInside on
    rw [elsewhere handle (ne_of_mem_of_not_mem childInside notInside).symm
      (ne_of_mem_of_not_mem currentInside notInside).symm]
    exact state.outside handle notInside on

/-- The nodes ahead are in order as far as the key can tell. -/
theorem ordered (state : Descending start handles tree descent pieces shape)
    (searchable : Searchable start key handles) :
    shape.handles.Pairwise fun first second =>
      start.direction key first = .gt ∨ start.direction key second = .lt := by
  have ordered := searchable.ordered
  rw [← state.inOrder] at ordered
  exact (List.pairwise_append.mp (List.pairwise_append.mp ordered).1).2.1

/-- Whatever lies behind a node, seen from the key, is on the same side of the key. -/
theorem direction_far {side : Side} {near far : Shape} {root : Handle}
    (state : Descending start handles tree descent pieces (.onSide side near root far))
    (searchable : Searchable start key handles)
    (notFar : start.direction key root ≠ side.opposite.ordering) :
    ∀ handle ∈ far.handles, start.direction key handle = side.ordering := by
  intro handle inside
  have ordered := state.ordered searchable
  cases side with
  | left =>
    simp only [Shape.onSide, Shape.handles, List.pairwise_append, List.pairwise_cons] at ordered
    exact (ordered.2.1.1 handle inside).resolve_left notFar
  | right =>
    simp only [Shape.onSide, Shape.handles, List.pairwise_append, List.mem_cons] at ordered
    exact (ordered.2.2 handle inside root (.inl rfl)).resolve_right notFar

end Descending

/-- A key separates two shapes: it lies behind the nodes of the first and before those
of the second. -/
structure Separates [Ord Key] (tree : SplayTree Key Value) (key : Key) (left right : Shape) :
    Prop where
  left : ∀ handle ∈ left.handles, tree.direction key handle = .gt
  right : ∀ handle ∈ right.handles, tree.direction key handle = .lt

/-- A key separates the pieces cut off: those on a side lie on that side of it. -/
def Sided [Ord Key] (tree : SplayTree Key Value) (key : Key) (pieces : Side → Pieces) : Prop :=
  ∀ side, ∀ handle ∈ Pieces.handles side (pieces side),
    tree.direction key handle = side.opposite.ordering

variable [Ord Key] {start tree : SplayTree Key Value} {key : Key} {handles : List Handle}
  {descent : Descent} {pieces : Side → Pieces} {shape : Shape}

/-- Cutting a node off towards the side of the key keeps the pieces separated. -/
theorem Sided.cut (sided : Sided tree key pieces) {side : Side} {far : Shape} {root : Handle}
    (towards : tree.direction key root = side.ordering)
    (onFar : ∀ handle ∈ far.handles, tree.direction key handle = side.ordering) :
    Sided tree key
      (Function.update pieces side.opposite ((far, root) :: pieces side.opposite)) := by
  intro other handle inside
  by_cases isFar : other = side.opposite
  · subst isFar
    simp only [Function.update_self, Pieces.handles, Side.mem_join, List.mem_singleton] at inside
    rw [Side.opposite_opposite]
    rcases inside with (inside | inside) | rfl
    · have below := sided _ handle inside
      rwa [Side.opposite_opposite] at below
    · exact onFar handle inside
    · exact towards
  · rw [Function.update_of_ne isFar] at inside
    exact sided other handle inside

/-- A node without a subtree where the key lies ends the descent. -/
theorem Descending.separates_of_leaf {side : Side} {far : Shape} {root : Handle}
    (state : Descending start handles tree descent pieces (.onSide side .leaf root far))
    (searchable : Searchable start key handles)
    (towards : start.direction key root = side.ordering) :
    ∃ left right, Descending start handles tree descent pieces (.node left root right) ∧
      Separates start key left right := by
  have notFar : start.direction key root ≠ side.opposite.ordering := by
    rw [towards]
    cases side <;> simp [Side.ordering, Side.opposite]
  have onFar := state.direction_far searchable notFar
  cases side with
  | left => exact ⟨.leaf, far, state, by simp, onFar⟩
  | right => exact ⟨far, .leaf, state, onFar, by simp⟩

/-- A node that holds the key ends the descent. -/
theorem Descending.separates_of_eq (state : Descending start handles tree descent pieces shape)
    (searchable : Searchable start key handles)
    (found : start.direction key descent.current = .eq) :
    ∃ left right, Descending start handles tree descent pieces
        (.node left descent.current right) ∧ Separates start key left right := by
  obtain ⟨left, right, rfl, -, -⟩ := state.current.exists_onSide .left
  refine ⟨left, right, state, ?_, ?_⟩
  · exact (show Descending start handles tree descent pieces
      (.onSide .right right descent.current left) from state).direction_far searchable
      (by simp [found, Side.ordering, Side.opposite])
  · exact state.direction_far searchable (by simp [found, Side.ordering, Side.opposite])

/-- A turn towards the side of the key either ends the descent at a node that the key
separates, or goes on over fewer nodes. -/
theorem Descending.exists_tryTurn (state : Descending start handles tree descent pieces shape)
    (searchable : Searchable start key handles) (sided : Sided start key pieces) {side : Side}
    (towards : start.direction key descent.current = side.ordering) :
    (∃ ended onward left right, tree.tryTurn key descent side = some (false, ended, onward) ∧
      Descending start handles ended onward pieces (.node left onward.current right) ∧
      Separates start key left right) ∨
    ∃ cut onward further ahead, tree.tryTurn key descent side = some (true, cut, onward) ∧
      Descending start handles cut onward further ahead ∧ Sided start key further ∧
      ahead.handles.length < shape.handles.length := by
  obtain ⟨near, far, rfl, onNear, onFar⟩ := state.current.exists_onSide side
  have currentInside : descent.current ∈ handles :=
    state.mem_of_shape (by simp [Shape.handles_onSide])
  have apart := side.ordering_ne_opposite
  obtain ⟨slot, found⟩ := Option.isSome_iff_exists.mp (state.live searchable currentInside)
  have child : slot.child side = tree.child? side descent.current := by simp [child?, found]
  cases link : tree.child? side descent.current with
  | none =>
    rw [link] at onNear child
    obtain rfl := onNear.eq_leaf
    obtain ⟨left, right, ended, separates⟩ := state.separates_of_leaf searchable towards
    exact .inl ⟨tree, descent, left, right, by simp [tryTurn, found, child], ended, separates⟩
  | some childHandle =>
    rw [link] at onNear child
    obtain ⟨outer, inner, rfl, onOuter, onInner⟩ := onNear.exists_onSide side
    have childInside : childHandle ∈ handles :=
      state.mem_of_shape (by simp [Shape.handles_onSide])
    obtain ⟨childSlot, childFound⟩ :=
      Option.isSome_iff_exists.mp (state.live searchable childInside)
    have childDirection : compare key childSlot.key = start.direction key childHandle := by
      rw [← state.rearranged.direction, direction_of_slot childFound]
    have innerLink : childSlot.child side.opposite = tree.child? side.opposite childHandle := by
      simp [child?, childFound]
    by_cases twice : start.direction key childHandle = side.ordering
    · obtain ⟨rotated, rotates, outerLink, rotatedState⟩ := state.exists_tryRotate searchable
      obtain ⟨rotatedSlot, rotatedFound⟩ :=
        Option.isSome_iff_exists.mp (rotatedState.live searchable childInside)
      have further : rotatedSlot.child side = rotated.child? side childHandle := by
        simp [child?, rotatedFound]
      have turn : tree.tryTurn key descent side =
          (rotated.child? side childHandle).elim
            (some (false, rotated, { descent with current := childHandle }))
            fun next => (rotated.tryCut { descent with current := childHandle } side next).bind
              fun cut => some (true, cut) := by
        simp only [tryTurn, found, child, childFound, innerLink, childDirection, twice, rotates,
          rotatedFound, further, Option.bind_eq_bind, Option.bind_some, if_true]
        cases rotated.child? side childHandle <;> rfl
      cases next : rotated.child? side childHandle with
      | none =>
        rw [← outerLink, next] at onOuter
        obtain rfl := onOuter.eq_leaf
        obtain ⟨left, right, ended, separates⟩ := rotatedState.separates_of_leaf searchable twice
        exact .inl ⟨rotated, _, left, right, by simp [turn, next], ended, separates⟩
      | some next' =>
        obtain ⟨cut, onward, cuts, cutState⟩ := rotatedState.exists_tryCut searchable next
        refine .inr ⟨cut, onward, _, outer, by simp [turn, next, cuts], cutState,
          sided.cut twice (rotatedState.direction_far searchable (twice ▸ apart)), ?_⟩
        simp only [Shape.handles_onSide, Side.length_join, List.length_singleton]
        omega
    · obtain ⟨cut, onward, cuts, cutState⟩ := state.exists_tryCut searchable link
      refine .inr ⟨cut, onward, _, _, ?_, cutState,
        sided.cut towards (state.direction_far searchable (towards ▸ apart)), ?_⟩
      · simp [tryTurn, found, child, childFound, childDirection, twice, cuts]
      · simp only [Shape.handles_onSide, Side.length_join, List.length_singleton]
        omega

/-- With a step for every node ahead, a descent ends, at a node that the key
separates. -/
theorem Descending.exists_tryDescend (steps : Nat)
    (state : Descending start handles tree descent pieces shape)
    (searchable : Searchable start key handles) (sided : Sided start key pieces)
    (enough : shape.handles.length ≤ steps) :
    ∃ ended onward further left right, tryDescend key steps tree descent = some (ended, onward) ∧
      Descending start handles ended onward further (.node left onward.current right) ∧
      Sided start key further ∧ Separates start key left right := by
  induction steps generalizing tree descent pieces shape with
  | zero =>
    obtain ⟨near, far, rfl, -, -⟩ := state.current.exists_onSide .left
    simp [Shape.handles_onSide] at enough
  | succ steps inductionHypothesis =>
    have currentInside : descent.current ∈ handles := by
      obtain ⟨near, far, rfl, -, -⟩ := state.current.exists_onSide .left
      exact state.mem_of_shape (by simp [Shape.handles_onSide])
    obtain ⟨slot, found⟩ := Option.isSome_iff_exists.mp (state.live searchable currentInside)
    have direction : compare key slot.key = start.direction key descent.current := by
      rw [← state.rearranged.direction, direction_of_slot found]
    cases choice : Side.ofOrdering? (start.direction key descent.current) with
    | none =>
      obtain ⟨left, right, ended, separates⟩ :=
        state.separates_of_eq searchable (Side.ofOrdering?_eq_none.mp choice)
      refine ⟨tree, descent, pieces, left, right, ?_, ended, sided, separates⟩
      simp [tryDescend, found, direction, choice]
    | some side =>
      have towards := Side.ofOrdering?_eq_some.mp choice
      rcases state.exists_tryTurn searchable sided towards with
        ⟨ended, onward, left, right, turn, endState, separates⟩ |
        ⟨cut, onward, further, ahead, turn, cutState, cutSided, fewer⟩
      · refine ⟨ended, onward, pieces, left, right, ?_, endState, sided, separates⟩
        simp [tryDescend, found, direction, choice, turn]
      · obtain ⟨ended, last, furthest, left, right, descends, endState, endSided, separates⟩ :=
          inductionHypothesis cutState cutSided (by omega)
        refine ⟨ended, last, furthest, left, right, ?_, endState, endSided, separates⟩
        simp [tryDescend, found, direction, choice, turn, descends]

omit [Ord Key] in
/-- Closing a spine hangs its pieces, with the near subtree inside them, below the
current node, and touches no other link. -/
theorem exists_tryClose {pieces : Pieces} {side : Side} {near : Shape}
    (onNear : Linked tree.child? near (tree.child? side descent.current))
    (hanging : Hanging tree.child? side pieces (descent.spine side))
    (distinct : (side.join (Pieces.handles side pieces)
      (side.join near.handles [descent.current])).Nodup)
    (live : ∀ handle, handle = descent.current ∨ handle ∈ Pieces.handles side pieces →
      (tree.slot? handle).isSome) :
    ∃ closed, tree.tryClose descent side (tree.child? side descent.current) = some closed ∧
      Rearranged tree closed ∧
      Linked closed.child? (Pieces.close side pieces near) (closed.child? side descent.current) ∧
      ∀ handle ∉ Pieces.handles side pieces, ∀ on, handle ≠ descent.current ∨ on ≠ side →
        closed.child? on handle = tree.child? on handle := by
  obtain ⟨⟨head, tail⟩, spine⟩ : ∃ spine, descent.spine side = spine := ⟨_, rfl⟩
  rw [spine] at hanging
  simp only [Side.nodup_join, Side.mem_join, List.mem_singleton] at distinct
  obtain ⟨piecesDistinct, ⟨-, -, nearApart⟩, piecesApart⟩ := distinct
  cases tail with
  | none =>
    obtain rfl := hanging.eq_nil
    exact ⟨tree, by simp [tryClose, spine], .refl tree, onNear, fun _ _ _ _ => rfl⟩
  | some tail =>
    have tailInside := hanging.tail_mem
    have tailLive := live tail (.inr tailInside)
    have different : descent.current ≠ tail := fun same =>
      piecesApart tail tailInside (.inr same.symm)
    let filled := tree.modifySlot tail
      (·.withChild side.opposite (tree.child? side descent.current))
    have currentLive : (filled.slot? descent.current).isSome := by
      have live := live descent.current (.inl rfl)
      simp [filled, different, live]
    let closed := filled.modifySlot descent.current (·.withChild side head)
    have links : closed.child? = (ChildLinks.relink tree.child? tail side.opposite
        (tree.child? side descent.current)).relink descent.current side head := by
      rw [child?_withChild currentLive, child?_withChild tailLive]
    refine ⟨closed, ?_, .trans (.withChild ..) (.withChild ..), ?_, ?_⟩
    · simp [tryClose, spine, tryModify_of_live tailLive, filled,
        tryModify_of_live currentLive, closed]
    · rw [links, ChildLinks.relink_same]
      have nearFilled := onNear.relink side.opposite (tree.child? side descent.current)
        fun inside => piecesApart tail tailInside (.inl inside)
      have nearOpen : Linked (ChildLinks.relink tree.child? tail side.opposite
          (tree.child? side descent.current)) near (ChildLinks.relink tree.child? tail
            side.opposite (tree.child? side descent.current) side.opposite tail) := by
        rw [ChildLinks.relink_same]
        exact nearFilled
      refine ((hanging.relink_tail piecesDistinct _).close nearOpen).relink _ _ ?_
      simp only [Pieces.handles_close, Side.mem_join, not_or]
      exact ⟨fun inside => piecesApart _ inside (.inr rfl),
        fun inside => nearApart _ inside rfl⟩
    · intro handle outside on notHere
      have notTail : handle ≠ tail := (ne_of_mem_of_not_mem tailInside outside).symm
      rw [links]
      simp only [ChildLinks.relink, notTail, false_and, if_false]
      split
      · rename_i here
        exact absurd here (by tauto)
      · rfl

/-- At the end of a descent both spines can be closed, which hangs all that was cut off
below the current node and touches no node outside. -/
theorem Descending.exists_closed {left right : Shape}
    (state : Descending start handles tree descent pieces (.node left descent.current right))
    (searchable : Searchable start key handles) :
    ∃ half whole, tree.tryClose descent .left (tree.child? .left descent.current) = some half ∧
      half.tryClose descent .right (tree.child? .right descent.current) = some whole ∧
      Rearranged tree whole ∧
      Linked whole.child? (.node (Pieces.close .left (pieces .left) left) descent.current
        (Pieces.close .right (pieces .right) right)) (some descent.current) ∧
      ∀ handle ∉ handles, ∀ side, whole.child? side handle = tree.child? side handle := by
  have distinct : (Pieces.handles .left (pieces .left) ++
      (left.handles ++ descent.current :: right.handles) ++
        Pieces.handles .right (pieces .right)).Nodup := by
    rw [← Shape.handles_node, state.inOrder]
    exact searchable.distinct
  obtain ⟨-, onLeft, onRight⟩ := Linked.node_iff.mp state.current
  have live : ∀ handle, handle = descent.current ∨
      (∃ side, handle ∈ Pieces.handles side (pieces side)) → (tree.slot? handle).isSome := by
    rintro handle (rfl | ⟨side, inside⟩)
    · exact state.live searchable (state.mem_of_shape (by simp [Shape.handles]))
    · exact state.live searchable (state.mem_of_pieces inside)
  obtain ⟨half, closesLeft, halfSame, halfLeft, halfElsewhere⟩ :=
    exists_tryClose onLeft (state.hanging .left)
      (by simp only [Side.join]; grind) (fun handle inside => live handle (by grind))
  have rightLink : half.child? .right descent.current = tree.child? .right descent.current :=
    halfElsewhere _ (by grind) _ (.inr (by decide))
  have halfRight : Linked half.child? right (half.child? .right descent.current) := by
    rw [rightLink]
    exact onRight.congr fun handle inside on =>
      halfElsewhere handle (by grind) on (.inl (by grind))
  have halfHanging : Hanging half.child? .right (pieces .right) (descent.spine .right) :=
    (state.hanging .right).congr (by grind) fun handle inside on _ =>
      halfElsewhere handle (by grind) on (.inl (by grind))
  obtain ⟨whole, closesRight, wholeSame, wholeRight, wholeElsewhere⟩ :=
    exists_tryClose halfRight halfHanging
      (by simp only [Side.join]; grind)
      (fun handle inside => by rw [halfSame.live]; exact live handle (by grind))
  rw [rightLink] at closesRight
  refine ⟨half, whole, closesLeft, closesRight, halfSame.trans wholeSame,
    Linked.node_iff.mpr ⟨rfl, ?_, wholeRight⟩, ?_⟩
  · have leftLink : whole.child? .left descent.current = half.child? .left descent.current :=
      wholeElsewhere _ (by grind) _ (.inr (by decide))
    rw [leftLink]
    refine halfLeft.congr fun handle inside on => ?_
    simp only [Pieces.handles_close, Side.mem_join] at inside
    exact wholeElsewhere handle (by grind) on (.inl (by grind))
  · intro handle outside on
    have notCurrent : handle ≠ descent.current := fun same =>
      outside (same ▸ state.mem_of_shape (by simp [Shape.handles]))
    have notCut : ∀ side, handle ∉ Pieces.handles side (pieces side) :=
      fun side inside => outside (state.mem_of_pieces inside)
    exact (wholeElsewhere handle (notCut .right) on (.inl notCurrent)).trans
      (halfElsewhere handle (notCut .left) on (.inl notCurrent))

/-- A splay of a tree that spells out a shape succeeds. It rearranges the tree, keeps
the nodes of the shape in order, touches no other node, and leaves a root that the
key separates. -/
theorem exists_trySplay (searchable : Searchable tree key shape.handles)
    (linked : Linked tree.child? shape tree.root) (nonempty : shape ≠ .leaf)
    (enough : shape.handles.length ≤ tree.slots.size) :
    ∃ splayed left root right, tree.trySplay key = some splayed ∧ Rearranged tree splayed ∧
      splayed.root = some root ∧
      Linked splayed.child? (.node left root right) (some root) ∧
      left.handles ++ root :: right.handles = shape.handles ∧
      Separates tree key left right ∧
      ∀ handle ∉ shape.handles, ∀ side, splayed.child? side handle = tree.child? side handle := by
  obtain ⟨near, root, far, rfl⟩ := shape.exists_onSide .left nonempty
  have rootLink : tree.root = some root := (Linked.onSide_iff.mp linked).1
  have start : Descending tree (Shape.onSide .left near root far).handles tree
      { current := root } (fun _ => []) (.onSide .left near root far) :=
    ⟨.refl tree, rootLink ▸ linked,
      fun side => by cases side <;> exact .empty, by simp [Pieces.handles], fun _ _ _ => rfl⟩
  generalize Shape.onSide .left near root far = shape at *
  obtain ⟨ended, onward, further, left, right, descends, state, sided, separates⟩ :=
    start.exists_tryDescend tree.slots.size searchable
      (fun side handle inside => by simp [Pieces.handles] at inside) enough
  obtain ⟨half, whole, closesLeft, closesRight, wholeSame, wholeLinked, elsewhere⟩ :=
    state.exists_closed searchable
  have currentLive : (ended.slot? onward.current).isSome :=
    state.live searchable (state.mem_of_shape (by simp [Shape.handles]))
  obtain ⟨slot, found⟩ := Option.isSome_iff_exists.mp currentLive
  have slotLeft : slot.left = ended.child? .left onward.current := by
    simp [child?, found, Slot.child]
  have slotRight : slot.right = ended.child? .right onward.current := by
    simp [child?, found, Slot.child]
  refine ⟨{ whole with root := some onward.current }, Pieces.close .left (further .left) left,
    onward.current, Pieces.close .right (further .right) right, ?_, ?_, rfl, wholeLinked, ?_, ?_,
    ?_⟩
  · simp [trySplay, rootLink, descends, found, slotLeft, closesLeft, slotRight, closesRight]
  · exact state.rearranged.trans (wholeSame.trans (.root whole _))
  · rw [← state.inOrder]
    simp [Pieces.handles_close, Side.join, Shape.handles]
  · refine ⟨fun handle inside => ?_, fun handle inside => ?_⟩
    · simp only [Pieces.handles_close, Side.mem_join] at inside
      exact inside.elim (sided .left handle) (separates.left handle)
    · simp only [Pieces.handles_close, Side.mem_join] at inside
      exact inside.elim (sided .right handle) (separates.right handle)
  · intro handle outside on
    exact (elsewhere handle outside on).trans (state.outside handle outside on)

end JitTrace.SplayTree
