import JitTrace.Proofs.SplayTree.Insertion

/-!
# Removal from coherent splay trees

Removing a key succeeds and leaves a coherent tree, over the order of nodes without
the one that held the key. The two subtrees of the removed node are joined while it
is still stored and threaded, so the tree is not coherent until its slot is vacated.
-/

namespace JitTrace.SplayTree

variable {Key Value : Type} [Ord Key] {tree : SplayTree Key Value} {order : List Handle}

/-- A splay of nodes that all lie before the key brings the last of them to the top, with
nothing on its right. -/
theorem Coherent.exists_trySplay_smaller [Std.TransOrd Key] {left : Shape} {rest : List Handle}
    {top : Handle} {key : Key} (coherent : Coherent tree (left.handles ++ rest))
    (linked : Linked tree.child? left (some top))
    (smaller : ∀ handle ∈ left.handles, tree.direction key handle = .gt) :
    ∃ splayed below last, { tree with root := some top }.trySplay key = some splayed ∧
      Rearranged tree splayed ∧ splayed.root = some last ∧
      Linked splayed.child? (.node below last .leaf) (some last) ∧
      below.handles ++ [last] = left.handles ∧
      ∀ handle ∉ left.handles, ∀ side, splayed.child? side handle = tree.child? side handle := by
  have searchable := coherent.searchable key
  have ofLeft : Searchable { tree with root := some top } key left.handles :=
    ⟨fun handle inside => searchable.live handle (by simp [inside]),
      (List.nodup_append.mp searchable.distinct).1,
      (List.pairwise_append.mp searchable.ordered).1⟩
  obtain ⟨splayed, below, last, above, splays, same, rootIs, splayedLinked, inOrder, separates,
    untouched⟩ := SplayTree.exists_trySplay ofLeft linked linked.ne_leaf
      (Nat.le_trans (by simp) (coherent.length_le coherent.distinct))
  -- Every node here lies before the key, so none can be above the new root.
  have nothingAbove : above = .leaf := by
    refine separates.right_eq_leaf fun handle isAbove => ?_
    have inside : handle ∈ left.handles := by simp [← inOrder, isAbove]
    have before : { tree with root := some top }.direction key handle = .gt :=
      smaller handle inside
    simp [before]
  subst nothingAbove
  exact ⟨splayed, below, last, splays, .trans (.root tree _) same, rootIs, splayedLinked, inOrder,
    untouched⟩

/-- The subtrees of a root that is about to go are joined into one tree, which the
links of the root itself play no part in. -/
theorem Coherent.exists_tryJoin [Std.TransOrd Key] {left right : Shape} {root : Handle}
    {slot : Slot Key Value} {key : Key}
    (coherent : Coherent tree (left.handles ++ root :: right.handles))
    (linked : Linked tree.child? (.node left root right) (some root))
    (found : tree.slot? root = some slot)
    (smaller : ∀ handle ∈ left.handles, tree.direction key handle = .gt) :
    ∃ joined shape, tree.tryJoin key slot = some joined ∧ Rearranged tree joined ∧
      shape.handles = left.handles ++ right.handles ∧ Linked joined.child? shape joined.root := by
  obtain ⟨-, onLeft, onRight⟩ := Linked.node_iff.mp linked
  have leftLink : slot.left = tree.child? .left root := by simp [child?, found, Slot.child]
  have rightLink : slot.right = tree.child? .right root := by simp [child?, found, Slot.child]
  cases link : tree.child? .left root with
  | none =>
    rw [link] at onLeft leftLink
    obtain rfl := onLeft.eq_leaf
    exact ⟨{ tree with root := slot.right }, right, by simp [tryJoin, leftLink], .root tree _,
      rfl, rightLink ▸ onRight⟩
  | some top =>
    rw [link] at onLeft leftLink
    obtain ⟨splayed, below, last, splays, same, rootIs, splayedLinked, inOrder, untouched⟩ :=
      coherent.exists_trySplay_smaller onLeft smaller
    obtain ⟨-, onBelow, -⟩ := Linked.node_iff.mp splayedLinked
    have lastInside : last ∈ left.handles := by
      rw [← inOrder]
      simp
    have distinct := coherent.distinct
    simp only [List.nodup_append, List.nodup_cons, List.mem_cons] at distinct
    obtain ⟨leftDistinct, ⟨rootApart, -⟩, leftApart⟩ := distinct
    have lastLive : (splayed.slot? last).isSome := by
      rw [same.live]
      exact (coherent.live last).mpr (by simp [lastInside])
    refine ⟨splayed.modifySlot last (·.withChild .right slot.right), .node below last right, ?_,
      same.trans (.withChild ..), ?_, ?_⟩
    · simp [tryJoin, leftLink, splays, rootIs, tryModify_of_live lastLive]
    · rw [Shape.handles_node, ← inOrder]
      simp
    · change Linked _ _ splayed.root
      rw [child?_withChild lastLive, rootIs]
      refine Linked.node_iff.mpr ⟨rfl, ?_, ?_⟩
      · have outside : last ∉ below.handles := by
          rw [← inOrder, List.nodup_append] at leftDistinct
          exact fun inside => leftDistinct.2.2 last inside last (by simp) rfl
        have same : ChildLinks.relink splayed.child? last .right slot.right .left last =
            splayed.child? .left last := ChildLinks.relink_opposite ..
        rw [same]
        exact onBelow.relink .right slot.right outside
      · rw [ChildLinks.relink_same, rightLink]
        refine onRight.congr fun handle inside on => ?_
        have notLeft : handle ∉ left.handles := fun inLeft =>
          leftApart handle inLeft handle (.inr inside) rfl
        rw [ChildLinks.relink_of_ne _ _ _ (ne_of_mem_of_not_mem lastInside notLeft).symm]
        exact untouched handle notLeft on

/-- A node is gone with its entry, and the others are as they were. -/
structure Removed (tree : SplayTree Key Value) (before after : List Handle) (key : Key)
    (old : Handle) (shrunk : SplayTree Key Value) : Prop where
  smaller : ∀ handle ∈ before, tree.direction key handle = .gt
  greater : ∀ handle ∈ after, tree.direction key handle = .lt
  found : tree.direction key old = .eq
  kept : ∀ handle, handle ≠ old → shrunk.pair? handle = tree.pair? handle
  coherent : Coherent shrunk (before ++ after)

/-- Once the child links pass a node by, it can be taken out of the thread towards either
side. -/
theorem Coherent.exists_unthreaded [Std.TransOrd Key] {before after : List Handle} {old : Handle}
    {slot : Slot Key Value} {joined : SplayTree Key Value}
    (coherent : Coherent tree (before ++ old :: after)) (found : tree.slot? old = some slot)
    (same : Rearranged tree joined) :
    ∃ half unthreaded, joined.tryThread .right slot.previous slot.next = some half ∧
      half.tryThread .left slot.next slot.previous = some unthreaded ∧
      SameNodes joined unthreaded ∧
      ∀ side, Leads (unthreaded.beside? side) (unthreaded.entrance side)
        (side.orient (before ++ after)) none := by
  have distinct := coherent.distinct
  have live : ∀ handle ∈ before ++ old :: after, (joined.slot? handle).isSome := by
    intro handle inside
    rw [same.live]
    exact (coherent.live handle).mpr inside
  have previous : tree.beside? .left old = before.getLast? := by
    rw [coherent.beside?_eq .left before after rfl]
    simp [Side.orient]
  have next : tree.beside? .right old = after.head? :=
    coherent.beside?_eq .right after before (by simp [Side.join])
  have slotPrevious : slot.previous = tree.beside? .left old := by
    simp [beside?, found, Slot.neighbour]
  have slotNext : slot.next = tree.beside? .right old := by simp [beside?, found, Slot.neighbour]
  have forward := coherent.threaded .right
  have backward := coherent.threaded .left
  rw [← same.beside?, ← same.entrance] at forward backward
  obtain ⟨half, forwards, halfSame, halfForward⟩ := exists_bypass forward distinct
    fun handle inside => live handle (by simp [inside])
  have halfBackward : half.beside? .left = joined.beside? .left := halfSame.beside_opposite
  have backwardAgain : Leads (half.beside? .left) (half.entrance .left)
      (after.reverse ++ old :: before.reverse) none := by
    have entrance : half.entrance .left = joined.entrance .left := halfSame.entrance_opposite
    rw [halfBackward, entrance]
    simpa [Side.orient] using backward
  have distinctAgain : (after.reverse ++ old :: before.reverse).Nodup := by
    simpa using List.nodup_reverse.mpr distinct
  obtain ⟨unthreaded, backwards, unthreadedSame, wholeBackward⟩ :=
    exists_bypass backwardAgain distinctAgain fun handle inside => by
      rw [halfSame.live]
      exact live handle (by simp at inside; simp [inside])
  refine ⟨half, unthreaded, ?_, ?_, halfSame.toSameNodes.trans unthreadedSame.toSameNodes,
    fun side => ?_⟩
  · rw [slotPrevious, slotNext, previous, ← same.beside?]
    exact forwards
  · rw [slotNext, slotPrevious, next, ← same.beside?, ← halfBackward, ← List.getLast?_reverse]
    exact backwards
  · cases side with
    | left => simpa [Side.orient] using wholeBackward
    | right =>
      have beside : unthreaded.beside? .right = half.beside? .right :=
        unthreadedSame.beside_opposite
      have enters : unthreaded.entrance .right = half.entrance .right :=
        unthreadedSame.entrance_opposite
      rw [beside, enters]
      exact halfForward

/-- Once neither the child links nor the thread lead to a node, vacating its slot leaves a
coherent tree of the others. -/
theorem Coherent.exists_vacated [Std.TransOrd Key] {before after : List Handle} {old : Handle}
    {joined unthreaded : SplayTree Key Value} {shape : Shape}
    (coherent : Coherent tree (before ++ old :: after)) (same : Rearranged tree joined)
    (nodes : SameNodes joined unthreaded) (handles : shape.handles = before ++ after)
    (linked : Linked joined.child? shape joined.root)
    (threaded : ∀ side, Leads (unthreaded.beside? side) (unthreaded.entrance side)
      (side.orient (before ++ after)) none) :
    ∃ released last, unthreaded.tryRelease old = some (last, released) ∧
      tree.pair? old = some (last.key, last.value) ∧
      (∀ handle, handle ≠ old → released.pair? handle = tree.pair? handle) ∧
      Coherent released (before ++ after) := by
  have liveIff : ∀ handle, (unthreaded.slot? handle).isSome ↔ handle ∈ before ++ old :: after := by
    intro handle
    rw [nodes.live, same.live, coherent.live]
  obtain ⟨last, lastFound⟩ := Option.isSome_iff_exists.mp ((liveIff old).mpr (by simp))
  have freeList : FreeList unthreaded :=
    (same.freeList coherent.freeList).congr nodes.free nodes.slots_size nodes.live
  obtain ⟨released, releases, slots, root, entrance, size, releasedFree⟩ :=
    freeList.exists_tryRelease lastFound
  have slotsKept : ∀ handle, handle ≠ old → released.slot? handle = unthreaded.slot? handle :=
    fun handle different => by rw [slots, if_neg different]
  have pairs : ∀ handle, handle ≠ old → released.pair? handle = tree.pair? handle := by
    intro handle different
    rw [← same.pair?, ← nodes.pair?, pair?, slotsKept handle different, pair?]
  have outside : old ∉ before ++ after := by
    have distinct := coherent.distinct
    simp only [List.nodup_append, List.nodup_cons, List.mem_cons] at distinct
    grind
  have others : ∀ handle ∈ before ++ after, handle ≠ old := fun handle inside =>
    ne_of_mem_of_not_mem inside outside
  refine ⟨released, last, releases, ?_, pairs, ⟨shape, handles, ?_⟩, fun handle => ?_, ?_,
    fun side => ?_, ?_, releasedFree⟩
  · rw [← same.pair?, ← nodes.pair?]
    simp [pair?, lastFound]
  · rw [root, nodes.root]
    refine linked.congr fun handle inside on => ?_
    rw [handles] at inside
    rw [← nodes.child?, child?, slotsKept handle (others handle inside), child?]
  · rw [slots]
    by_cases isOld : handle = old
    · simp [isOld] at outside ⊢
      exact outside
    · rw [if_neg isOld, liveIff]
      simp [isOld]
  · have ascending : (before ++ after).Pairwise tree.Precedes :=
      coherent.ascending.sublist (by simp)
    exact ascending.imp_of_mem fun inFirst inSecond precedes =>
      precedes.of_pair? (pairs _ (others _ inFirst)) (pairs _ (others _ inSecond))
  · rw [entrance]
    refine (threaded side).congr fun handle inside => ?_
    rw [beside?, slotsKept handle (others handle (Side.mem_orient.mp inside)), beside?]
  · rw [size, nodes.size, same.size, coherent.size]
    simp

/-- Removing a key succeeds. An absent key changes nothing but the arrangement, and a
present one is taken out with its entry. -/
theorem Coherent.exists_tryRemove [Std.TransOrd Key] (coherent : Coherent tree order) (key : Key) :
    (∃ searched, tree.tryRemove key = some (none, searched) ∧ Rearranged tree searched ∧
      Coherent searched order ∧ ∀ handle ∈ order, tree.direction key handle ≠ .eq) ∨
    ∃ entry shrunk before after old, tree.tryRemove key = some (some entry, shrunk) ∧
      before ++ old :: after = order ∧ tree.pair? old = some entry ∧
      Removed tree before after key old shrunk := by
  rcases eq_or_ne order [] with rfl | nonempty
  · refine .inl ⟨tree, ?_, .refl tree, coherent, by simp⟩
    simp [tryRemove, coherent.trySplay_nil, coherent.root_eq_none_iff.mpr rfl]
  · obtain ⟨splayed, left, root, right, splays, shape, rfl, after⟩ :=
      coherent.exists_trySplay key nonempty
    obtain ⟨slot, found⟩ := Option.isSome_iff_exists.mp ((after.live root).mpr (by simp))
    have comparison : compare slot.key key = .eq ↔ tree.direction key root = .eq := by
      rw [compare_slot_key found, shape.rearranged.direction]
      cases tree.direction key root <;> simp
    by_cases present : tree.direction key root = .eq
    · right
      have smaller : ∀ handle ∈ left.handles, splayed.direction key handle = .gt := by
        rw [shape.rearranged.direction]
        exact shape.separates.left
      obtain ⟨joined, joinedShape, joins, same, handles, linked⟩ :=
        after.exists_tryJoin shape.linked found smaller
      obtain ⟨half, unthreaded, forwards, backwards, nodes, threaded⟩ :=
        after.exists_unthreaded found same
      obtain ⟨released, last, releases, entry, kept, vacated⟩ :=
        after.exists_vacated same nodes handles linked threaded
      rw [shape.rearranged.pair?] at entry kept
      refine ⟨(last.key, last.value), released, left.handles, right.handles, root, ?_, rfl, entry,
        shape.separates.left, shape.separates.right, present, kept, vacated⟩
      simp [tryRemove, splays, shape.isRoot, found, comparison.mpr present, joins, forwards,
        backwards, releases]
    · refine .inl ⟨splayed, ?_, shape.rearranged, after, ?_⟩
      · simp [tryRemove, splays, shape.isRoot, found, comparison, present]
      · intro handle inside same
        have onLeft := shape.separates.left handle
        have onRight := shape.separates.right handle
        grind

end JitTrace.SplayTree
