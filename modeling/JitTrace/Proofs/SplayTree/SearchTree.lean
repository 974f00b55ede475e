import JitTrace.Proofs.SplayTree.Splay
import Mathlib.Data.List.Perm.Subperm

/-!
# Splaying search trees

A splay asks for little: child links that spell out a binary tree of live slots, with keys
that ascend from left to right. The thread and the free list play no part in it and stay as
they are, whatever they are. What comes to the root is the key that was sought or, where it
is missing, a key next to it.
-/

namespace JitTrace.SplayTree

variable {Key Value : Type} [Ord Key]

/-- The key of one node is smaller than that of another. -/
def Precedes (tree : SplayTree Key Value) (first second : Handle) : Prop :=
  ∃ smaller greater, tree.key? first = some smaller ∧ tree.key? second = some greater ∧
    compare smaller greater = .lt

/-- The child links below the root spell out a binary tree of live slots, and its keys
ascend from left to right. -/
structure SearchTree (tree : SplayTree Key Value) (shape : Shape) : Prop where
  linked : Linked tree.child? shape tree.root
  live : ∀ handle ∈ shape.handles, (tree.slot? handle).isSome
  ascending : shape.handles.Pairwise tree.Precedes

variable {tree : SplayTree Key Value} {order : List Handle} {shape : Shape}

/-! ## Nodes in key order -/

omit [Ord Key] in
/-- There are no more live nodes than slots. -/
theorem length_le_of_live (live : ∀ handle ∈ order, (tree.slot? handle).isSome)
    (distinct : order.Nodup) : order.length ≤ tree.slots.size := by
  have within : order ⊆ List.range tree.slots.size := fun handle inside =>
    List.mem_range.mpr (lt_size_of_live (live handle inside))
  simpa using (List.subperm_of_subset distinct within).length_le

/-- The order of nodes is a matter of their keys. -/
theorem Precedes.rearranged {after : SplayTree Key Value} {first second : Handle}
    (precedes : tree.Precedes first second) (same : Rearranged tree after) :
    after.Precedes first second := by
  simpa only [Precedes, same.key?] using precedes

theorem Precedes.compare_keys {first second : Handle} {smaller greater : Key}
    (precedes : tree.Precedes first second) (onFirst : tree.key? first = some smaller)
    (onSecond : tree.key? second = some greater) : compare smaller greater = .lt := by
  obtain ⟨known, other, isKnown, isOther, less⟩ := precedes
  rw [onFirst, Option.some.injEq] at isKnown
  rw [onSecond, Option.some.injEq] at isOther
  rwa [isKnown, isOther]

variable [Std.TransOrd Key]

/-- No node is listed twice. -/
theorem nodup_of_ascending (ascending : order.Pairwise tree.Precedes) : order.Nodup := by
  refine ascending.imp fun {first second} precedes same => ?_
  obtain ⟨smaller, greater, isSmaller, isGreater, less⟩ := precedes
  rw [same, isGreater, Option.some.injEq] at isSmaller
  rw [isSmaller, Std.ReflOrd.compare_self] at less
  contradiction

/-- A key lies behind the first of two nodes in order, or before the second. -/
theorem ordered_of_ascending (ascending : order.Pairwise tree.Precedes) (key : Key) :
    order.Pairwise fun first second =>
      tree.direction key first = .gt ∨ tree.direction key second = .lt := by
  refine ascending.imp fun {first second} precedes => ?_
  obtain ⟨smaller, greater, isSmaller, isGreater, less⟩ := precedes
  simp only [direction, isSmaller, isGreater]
  cases comparison : compare key smaller with
  | lt => exact .inr (Std.TransCmp.lt_trans comparison less)
  | eq => exact .inr (Std.TransCmp.lt_of_eq_of_lt comparison less)
  | gt => exact .inl rfl

/-- Any key can be searched for among live nodes in key order. -/
theorem searchable_of_ascending (live : ∀ handle ∈ order, (tree.slot? handle).isSome)
    (ascending : order.Pairwise tree.Precedes) (key : Key) : Searchable tree key order where
  live := live
  distinct := nodup_of_ascending ascending
  ordered := ordered_of_ascending ascending key

/-! ## The key at the root -/

omit [Ord Key] [Std.TransOrd Key] in
/-- A live node has a key, which is one of the keys of the nodes. -/
theorem exists_key_of_live {handle : Handle} (live : (tree.slot? handle).isSome)
    (inside : handle ∈ order) :
    ∃ stored, tree.key? handle = some stored ∧ stored ∈ order.filterMap tree.key? := by
  obtain ⟨slot, found⟩ := Option.isSome_iff_exists.mp live
  have named : tree.key? handle = some slot.key := by simp [key?, found]
  exact ⟨slot.key, named, List.mem_filterMap.mpr ⟨handle, inside, named⟩⟩

omit [Std.TransOrd Key] in
theorem direction_of_key? {handle : Handle} {key stored : Key}
    (names : tree.key? handle = some stored) : tree.direction key handle = compare key stored := by
  rw [direction, names]

/-- Of the keys on one side of `key`, none is nearer to it than `stored`. On the left, that
is the greatest key below it; on the right, the least key above it. -/
structure NearestKey (keys : List Key) (key : Key) (side : Side) (stored : Key) : Prop where
  mem : stored ∈ keys
  beyond : compare stored key = side.ordering
  nearest : ∀ other ∈ keys, compare other key = side.ordering →
    compare other stored ≠ side.opposite.ordering

/-- What a splay towards `key` has made of a search tree of the nodes `order`. -/
structure BroughtUp (tree : SplayTree Key Value) (order : List Handle) (key : Key)
    (splayed : SplayTree Key Value) (root : Handle) (stored : Key) : Prop where
  /-- Beside the root and the child links, all is as it was: keys and values, the thread with
  its entrances, which slots are vacated, the free list and the size. -/
  rearranged : Rearranged tree splayed
  /-- Slots that are no part of the tree keep their child links, too. -/
  elsewhere : ∀ handle ∉ order, ∀ side, splayed.child? side handle = tree.child? side handle
  search : ∃ shape, SearchTree splayed shape ∧ shape.handles = order
  isRoot : splayed.root = some root
  holds : splayed.key? root = some stored
  found : ∀ present ∈ order.filterMap tree.key?, compare key present = .eq → stored = present
  neighbour : (∀ present ∈ order.filterMap tree.key?, compare key present ≠ .eq) →
    ∃ side, NearestKey (order.filterMap tree.key?) key side stored
  /-- Where no key is above the one sought, the root has none on its right. -/
  rightmost : (∀ present ∈ order.filterMap tree.key?, compare key present ≠ .lt) →
    splayed.child? .right root = none

/-- When the nodes on one side of the root lie there for the key of the root, and those on the
other side lie there for the key sought, the root is next to that key. -/
theorem nearestKey_of_between {key stored : Key} {root : Handle} {near far : List Handle}
    {side : Side} (named : tree.key? root = some stored) (inside : root ∈ order)
    (parts : ∀ handle ∈ order, handle ∈ near ∨ handle = root ∨ handle ∈ far)
    (towards : compare key stored = side.opposite.ordering)
    (onNear : ∀ handle ∈ near, ∀ other, tree.key? handle = some other →
      compare other stored = side.ordering)
    (onFar : ∀ handle ∈ far, tree.direction key handle = side.ordering) :
    NearestKey (order.filterMap tree.key?) key side stored where
  mem := List.mem_filterMap.mpr ⟨root, inside, named⟩
  beyond := by rw [Std.OrientedOrd.eq_swap, towards, Side.swap_ordering, Side.opposite_opposite]
  nearest other listed beyond := by
    obtain ⟨handle, isNode, isKey⟩ := List.mem_filterMap.mp listed
    rcases parts handle isNode with inNear | rfl | inFar
    · rw [onNear handle inNear other isKey]
      exact side.ordering_ne_opposite
    · rw [named, Option.some.injEq] at isKey
      rw [← isKey, Std.ReflOrd.compare_self]
      exact side.opposite.ordering_ne_eq.symm
    · have towardsOther := onFar handle inFar
      rw [direction_of_key? isKey, Std.OrientedOrd.eq_swap, beyond,
        Side.swap_ordering] at towardsOther
      exact absurd towardsOther.symm side.ordering_ne_opposite

omit [Std.TransOrd Key] in
/-- When the key lies before none of the nodes behind the root, there are none. -/
theorem Separates.right_eq_leaf {key : Key} {left right : Shape}
    (separates : Separates tree key left right)
    (notBefore : ∀ handle ∈ right.handles, tree.direction key handle ≠ .lt) : right = .leaf := by
  cases right with
  | leaf => rfl
  | node low handle high =>
    have inside : handle ∈ (Shape.node low handle high).handles := by simp [Shape.handles]
    exact absurd (separates.right handle inside) (notBefore handle inside)

omit [Std.TransOrd Key] in
/-- The root is the only node that can hold the key. -/
theorem Separates.eq_of_compare_eq {key stored present : Key} {left right : Shape} {root : Handle}
    (separates : Separates tree key left right) (named : tree.key? root = some stored)
    (listed : present ∈ (left.handles ++ root :: right.handles).filterMap tree.key?)
    (equal : compare key present = .eq) : stored = present := by
  obtain ⟨handle, inside, isKey⟩ := List.mem_filterMap.mp listed
  have towards : tree.direction key handle = .eq := (direction_of_key? isKey).trans equal
  rcases List.mem_append.mp inside with inLeft | inside
  · simp [separates.left handle inLeft] at towards
  rcases List.mem_cons.mp inside with rfl | inRight
  · exact Option.some.inj (named.symm.trans isKey)
  · simp [separates.right handle inRight] at towards

/-- A root that does not hold the key is next to it: the greatest below, when the key lies behind
the root, and else the least above. -/
theorem Separates.exists_nearestKey {key stored : Key} {left right : Shape} {root : Handle}
    (separates : Separates tree key left right)
    (ascending : (left.handles ++ root :: right.handles).Pairwise tree.Precedes)
    (named : tree.key? root = some stored) (different : compare key stored ≠ .eq) :
    ∃ side, NearestKey ((left.handles ++ root :: right.handles).filterMap tree.key?) key side
      stored := by
  rw [List.pairwise_append, List.pairwise_cons] at ascending
  obtain ⟨-, ⟨rootFirst, -⟩, rootLast⟩ := ascending
  have isRoot : root ∈ left.handles ++ root :: right.handles := by simp
  have parts : ∀ handle ∈ left.handles ++ root :: right.handles,
      handle ∈ left.handles ∨ handle = root ∨ handle ∈ right.handles := by simp
  cases comparison : compare key stored with
  | eq => exact absurd comparison different
  | gt =>
    refine ⟨.left, nearestKey_of_between named isRoot parts comparison ?_ separates.right⟩
    intro handle inLeft other isKey
    exact (rootLast handle inLeft root List.mem_cons_self).compare_keys isKey named
  | lt =>
    have turned : ∀ handle ∈ left.handles ++ root :: right.handles,
        handle ∈ right.handles ∨ handle = root ∨ handle ∈ left.handles := by
      intro handle inside
      have part := parts handle inside
      tauto
    refine ⟨.right, nearestKey_of_between named isRoot turned comparison ?_ separates.left⟩
    intro handle inRight other isKey
    rw [Std.OrientedOrd.eq_swap, (rootFirst handle inRight).compare_keys named isKey]
    rfl

omit [Std.TransOrd Key] in
/-- A rearrangement that spells out the same nodes is a search tree. -/
theorem SearchTree.rearranged {after : SplayTree Key Value} {other : Shape}
    (search : SearchTree tree shape) (same : Rearranged tree after)
    (linked : Linked after.child? other after.root) (inOrder : other.handles = shape.handles) :
    SearchTree after other where
  linked := linked
  live handle inside := by
    rw [same.live]
    exact search.live handle (inOrder ▸ inside)
  ascending := by
    rw [inOrder]
    exact search.ascending.imp fun precedes => precedes.rearranged same

/-- A splay of a search tree with nodes succeeds, keeps the nodes in order and touches nothing
but the root and child links. It brings the key to the root, or one next to it. -/
theorem SearchTree.exists_broughtUp (search : SearchTree tree shape) (nonempty : tree.root ≠ none)
    (key : Key) : ∃ splayed root stored, tree.trySplay key = some splayed ∧
      BroughtUp tree shape.handles key splayed root stored := by
  have searchable := searchable_of_ascending search.live search.ascending key
  have hasNodes : shape ≠ .leaf := by
    rintro rfl
    exact nonempty search.linked
  obtain ⟨splayed, left, root, right, splays, same, isRoot, linked, inOrder, separates,
    elsewhere⟩ := exists_trySplay searchable search.linked hasNodes
      (length_le_of_live search.live searchable.distinct)
  have rootInside : root ∈ shape.handles := by simp [← inOrder]
  obtain ⟨stored, named, storedInside⟩ :=
    exists_key_of_live (search.live root rootInside) rootInside
  refine ⟨splayed, root, stored, splays, ?_⟩
  refine {
    rearranged := same
    elsewhere := elsewhere
    search := ⟨.node left root right, search.rearranged same (isRoot ▸ linked) inOrder, inOrder⟩
    isRoot := isRoot
    holds := same.key? ▸ named
    found := fun present listed => separates.eq_of_compare_eq named (inOrder ▸ listed)
    neighbour := fun absent => ?_
    rightmost := fun noneAbove => ?_ }
  · rw [← inOrder]
    exact separates.exists_nearestKey (inOrder ▸ search.ascending) named
      (absent stored storedInside)
  · have noRight : right = .leaf := by
      refine separates.right_eq_leaf fun handle inRight => ?_
      have inside : handle ∈ shape.handles := by simp [← inOrder, inRight]
      obtain ⟨other, isKey, listed⟩ := exists_key_of_live (search.live handle inside) inside
      rw [direction_of_key? isKey]
      exact noneAbove other listed
    rw [noRight, Linked.node_iff] at linked
    exact linked.2.2

/-- Four nodes that hang from one another on the right, beside a vacated slot and a slot that
is no part of the tree. No thread passes through them. -/
def leaning : SplayTree Nat Bool where
  slots := #[some { key := 1, value := true, right := some 3 }, none,
    some { key := 8, value := false, left := some 0 },
    some { key := 3, value := false, right := some 5 },
    some { key := 7, value := true }, some { key := 5, value := true, right := some 4 }]
  root := some 0

theorem searchTree_leaning :
    SearchTree leaning (.node .leaf 0 (.node .leaf 3 (.node .leaf 5 (.node .leaf 4 .leaf)))) where
  linked := ⟨rfl, rfl, rfl, rfl, rfl, rfl, rfl, rfl, rfl⟩
  live := by decide
  ascending := by simp [Shape.handles, Precedes, key?, slot?, leaning, Nat.compare_eq_lt]

/-- A splay towards a key above all others turns the nodes over one another and leaves the
greatest of them at the root. -/
theorem exists_broughtUp_leaning : Std.TransOrd Nat ∧ leaning.root ≠ none ∧
    SearchTree leaning (.node .leaf 0 (.node .leaf 3 (.node .leaf 5 (.node .leaf 4 .leaf)))) ∧
    ∃ splayed root stored, leaning.trySplay 9 = some splayed ∧
      BroughtUp leaning [0, 3, 5, 4] 9 splayed root stored :=
  have hasRoot : leaning.root ≠ none := by decide
  ⟨inferInstance, hasRoot, searchTree_leaning, searchTree_leaning.exists_broughtUp hasRoot 9⟩

end JitTrace.SplayTree
