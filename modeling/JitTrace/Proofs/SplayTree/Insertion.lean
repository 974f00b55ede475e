import JitTrace.Proofs.SplayTree.Lookup

/-!
# Insertion into coherent splay trees

Inserting a key succeeds and leaves a coherent tree, over the order of nodes with a
new one between the smaller and the greater keys, or over the same order when the
key was present.
-/

namespace JitTrace.SplayTree

variable {Key Value : Type} [Ord Key] {tree : SplayTree Key Value} {order : List Handle}

/-- Nodes with the same entries are in the same order. -/
theorem Precedes.of_pair? {other : SplayTree Key Value} {first second : Handle}
    (precedes : tree.Precedes first second) (onFirst : other.pair? first = tree.pair? first)
    (onSecond : other.pair? second = tree.pair? second) : other.Precedes first second := by
  simpa only [Precedes, key?_of_pair? onFirst, key?_of_pair? onSecond] using precedes

/-- A key that lies on some side of a node compares with the key stored there. -/
theorem exists_key_of_direction {key : Key} {handle : Handle} {ordering : Ordering}
    (direction : tree.direction key handle = ordering) (beside : ordering ≠ .eq) :
    ∃ stored, tree.key? handle = some stored ∧ compare key stored = ordering := by
  cases found : tree.key? handle with
  | none => simp [SplayTree.direction, found] at direction; exact absurd direction.symm beside
  | some stored => exact ⟨stored, rfl, by simpa [SplayTree.direction, found] using direction⟩

/-- A new node between the smaller and the greater keys keeps the nodes ascending. -/
theorem ascending_insert [Std.TransOrd Key] {grown : SplayTree Key Value}
    {before after : List Handle} {new : Handle} {key : Key} {value : Value}
    (ascending : (before ++ after).Pairwise tree.Precedes)
    (kept : ∀ handle ∈ before ++ after, grown.pair? handle = tree.pair? handle)
    (added : grown.pair? new = some (key, value))
    (smaller : ∀ handle ∈ before, tree.direction key handle = .gt)
    (greater : ∀ handle ∈ after, tree.direction key handle = .lt) :
    (before ++ new :: after).Pairwise grown.Precedes := by
  have newKey : grown.key? new = some key := by simp [key?_eq_map_pair?, added]
  have old : (before ++ after).Pairwise grown.Precedes :=
    ascending.imp_of_mem fun inFirst inSecond precedes =>
      precedes.of_pair? (kept _ inFirst) (kept _ inSecond)
  obtain ⟨inBefore, inAfter, across⟩ := List.pairwise_append.mp old
  refine List.pairwise_append.mpr ⟨inBefore, List.pairwise_cons.mpr ⟨?_, inAfter⟩, ?_⟩
  · intro handle inside
    obtain ⟨stored, found, less⟩ := exists_key_of_direction (greater handle inside) (by decide)
    exact ⟨key, stored, newKey, by rw [key?_of_pair? (kept handle (by simp [inside])), found], less⟩
  · intro first inFirst second inSecond
    rcases List.mem_cons.mp inSecond with rfl | inSecond
    · obtain ⟨stored, found, more⟩ := exists_key_of_direction (smaller first inFirst) (by decide)
      exact ⟨stored, key, by rw [key?_of_pair? (kept first (by simp [inFirst])), found], newKey,
        Std.OrientedCmp.gt_iff_lt.mp more⟩
    · exact across first inFirst second inSecond

/-- The same, with the new node seen from either side. -/
theorem ascending_insert_on [Std.TransOrd Key] {grown : SplayTree Key Value} {side : Side}
    {near rest : List Handle} {new : Handle} {key : Key} {value : Value}
    (ascending : (side.join near rest).Pairwise tree.Precedes)
    (kept : ∀ handle ∈ side.join near rest, grown.pair? handle = tree.pair? handle)
    (added : grown.pair? new = some (key, value))
    (onNear : ∀ handle ∈ near, tree.direction key handle = side.opposite.ordering)
    (onRest : ∀ handle ∈ rest, tree.direction key handle = side.ordering) :
    (side.join near (side.join [new] rest)).Pairwise grown.Precedes := by
  cases side with
  | left => exact ascending_insert ascending kept added onNear onRest
  | right =>
    have inserted := ascending_insert ascending kept added onRest onNear
    simpa [Side.join] using inserted

/-- A new node has taken the place of a root, which now hangs below it. The thread away
from the side still passes the new node by. -/
structure Hung (tree : SplayTree Key Value) (root : Handle) (slot : Slot Key Value) (side : Side)
    (key : Key) (value : Value) (new : Handle) (hung : SplayTree Key Value) : Prop where
  vacant : tree.slot? new = none
  atNew : hung.slot? new = some
    (((Slot.mk key value none none none none).withChild side (slot.child side)
      |>.withChild side.opposite (some root)).withNeighbour side (slot.neighbour side)
      |>.withNeighbour side.opposite (some root))
  found : tree.slot? root = some slot
  atRoot : hung.slot? root = some ((slot.withChild side none).withNeighbour side (some new))
  elsewhere : ∀ handle, handle ≠ new → handle ≠ root → hung.slot? handle = tree.slot? handle
  entrance : hung.entrance = tree.entrance
  size : hung.size = tree.size + 1
  freeList : FreeList hung

omit [Ord Key] in
/-- Adopting a root hangs it below a new node and then corrects the thread. -/
theorem exists_hung {root : Handle} {slot : Slot Key Value} (freeList : FreeList tree)
    (found : tree.slot? root = some slot) (side : Side) (key : Key) (value : Value) :
    ∃ new hung, Hung tree root slot side key value new hung ∧
      tree.tryAdopt root slot side key value =
        (hung.tryThread side.opposite (slot.neighbour side) (some new)).map
          ({ · with root := some new }) := by
  let blank : Slot Key Value :=
    (((Slot.mk key value none none none none).withChild side (slot.child side)
      |>.withChild side.opposite (some root)).withNeighbour side (slot.neighbour side)
      |>.withNeighbour side.opposite (some root))
  have stored := freeList.stored_allocate blank
  obtain ⟨new, grown, allocated⟩ : ∃ new grown, tree.allocate blank = (new, grown) :=
    ⟨_, _, rfl⟩
  rw [allocated] at stored
  have rootOld : root ≠ new := by
    rintro rfl
    simp [stored.vacant] at found
  have rootLive : (grown.slot? root).isSome := by simp [stored.slot?, rootOld, found]
  refine ⟨new, grown.modifySlot root fun slot =>
      (slot.withChild side none).withNeighbour side (some new),
    ⟨stored.vacant, ?_, found, ?_, ?_, ?_, stored.size, ?_⟩, ?_⟩
  · simp [stored.slot?, rootOld.symm, blank]
  · simp [stored.slot?, rootOld, found]
  · intro handle notNew notRoot
    simp [stored.slot?, notNew, notRoot]
  · rw [entrance_modifySlot, stored.entrance]
  · refine stored.freeList.congr rfl (by simp [modifySlot]) fun handle => ?_
    by_cases isRoot : handle = root <;> simp [isRoot]
  · simp only [tryAdopt, blank] at allocated ⊢
    simp only [allocated, tryModify_of_live rootLive, Option.bind_eq_bind, Option.bind_some,
      Option.map_eq_bind]
    rfl

section Hung

variable {root new : Handle} {slot : Slot Key Value} {side : Side} {key : Key} {value : Value}
  {hung : SplayTree Key Value}

omit [Ord Key] in
/-- Nodes that were there before are not the new one. -/
theorem Hung.ne_new (hangs : Hung tree root slot side key value new hung) {handle : Handle}
    (live : (tree.slot? handle).isSome) : handle ≠ new := by
  rintro rfl
  simp [hangs.vacant] at live

omit [Ord Key] in
theorem Hung.live (hangs : Hung tree root slot side key value new hung) (handle : Handle) :
    (hung.slot? handle).isSome ↔ handle = new ∨ (tree.slot? handle).isSome := by
  by_cases isNew : handle = new
  · simp [isNew, hangs.atNew]
  · by_cases isRoot : handle = root
    · simp [isRoot, hangs.atRoot, hangs.found]
    · simp [hangs.elsewhere handle isNew isRoot, isNew]

omit [Ord Key] in
theorem Hung.pair?_new (hangs : Hung tree root slot side key value new hung) :
    hung.pair? new = some (key, value) := by
  simp [pair?, hangs.atNew]

omit [Ord Key] in
theorem Hung.pair?_old (hangs : Hung tree root slot side key value new hung) {handle : Handle}
    (isOld : handle ≠ new) : hung.pair? handle = tree.pair? handle := by
  by_cases isRoot : handle = root
  · simp [pair?, isRoot, hangs.atRoot, hangs.found]
  · simp [pair?, hangs.elsewhere handle isOld isRoot]

variable [Std.TransOrd Key] {near far : List Handle}

/-- Nodes beside the root stay as they are. -/
theorem Hung.slot?_beside (hangs : Hung tree root slot side key value new hung)
    (coherent : Coherent tree (side.join near (side.join [root] far))) {handle : Handle}
    (inside : handle ∈ near ∨ handle ∈ far) : hung.slot? handle = tree.slot? handle := by
  have distinct := coherent.distinct
  simp only [Side.nodup_join, Side.mem_join, List.mem_singleton] at distinct
  obtain ⟨-, ⟨-, -, rootApart⟩, nearApart⟩ := distinct
  have live : (tree.slot? handle).isSome := (coherent.live handle).mpr (by
    rcases inside with inNear | inFar
    · simp [inNear]
    · simp [inFar])
  refine hangs.elsewhere handle (hangs.ne_new live) ?_
  rintro rfl
  rcases inside with inNear | inFar
  · exact nearApart handle inNear (.inl rfl)
  · exact rootApart handle rfl inFar

/-- The child links spell out the tree with the old root below the new one. -/
theorem Hung.linked {near far : Shape} (hangs : Hung tree root slot side key value new hung)
    (coherent : Coherent tree (side.join near.handles (side.join [root] far.handles)))
    (linked : Linked tree.child? (.onSide side near root far) (some root)) :
    Linked hung.child? (.onSide side near new (.onSide side .leaf root far)) (some new) := by
  obtain ⟨-, nearLinked, farLinked⟩ := Linked.onSide_iff.mp linked
  have children : ∀ handle, handle ∈ near.handles ∨ handle ∈ far.handles → ∀ on,
      hung.child? on handle = tree.child? on handle := by
    intro handle inside on
    rw [child?, hangs.slot?_beside coherent inside, child?]
  have intoNear : hung.child? side new = tree.child? side root := by
    simp [child?, hangs.atNew, hangs.found]
  have intoFar : hung.child? side.opposite root = tree.child? side.opposite root := by
    simp [child?, hangs.atRoot, hangs.found]
  refine Linked.onSide_iff.mpr ⟨rfl, ?_, Linked.onSide_iff.mpr ⟨?_, ?_, ?_⟩⟩
  · rw [intoNear]
    exact nearLinked.congr fun handle inside => children handle (.inl inside)
  · simp [child?, hangs.atNew]
  · simp [child?, hangs.atRoot]
  · rw [intoFar]
    exact farLinked.congr fun handle inside => children handle (.inr inside)

/-- Neighbours of nodes beside the root stay as they are. -/
theorem Hung.beside?_beside (hangs : Hung tree root slot side key value new hung)
    (coherent : Coherent tree (side.join near (side.join [root] far))) {handle : Handle}
    (inside : handle ∈ near ∨ handle ∈ far) (on : Side) :
    hung.beside? on handle = tree.beside? on handle := by
  rw [beside?, hangs.slot?_beside coherent inside, beside?]

/-- The thread towards the side passes from the old root through the new node. -/
theorem Hung.threaded (hangs : Hung tree root slot side key value new hung)
    (coherent : Coherent tree (side.join near (side.join [root] far))) :
    Leads (hung.beside? side) (hung.entrance side)
      (side.orient (side.join near (side.join [new] (side.join [root] far)))) none := by
  have forward := coherent.threaded side
  rw [Side.orient_join, Side.orient_join, Leads.append_iff] at forward
  obtain ⟨middle, intoRoot, onward⟩ := forward
  obtain ⟨entry, intoFar, atEntry⟩ := Leads.append_iff.mp intoRoot
  rw [Side.orient_singleton, Leads.cons_iff, Leads.nil_iff] at atEntry
  obtain ⟨rfl, rfl⟩ := atEntry
  have behind : hung.beside? side new = tree.beside? side root := by
    simp [beside?, hangs.atNew, hangs.found]
  rw [hangs.entrance, Side.orient_join, Side.orient_join, Side.orient_join, Side.orient_singleton,
    Side.orient_singleton]
  refine Leads.append_iff.mpr ⟨_, Leads.append_iff.mpr ⟨some new,
    Leads.append_iff.mpr ⟨some root, ?_, rfl, ?_⟩, rfl, behind⟩, ?_⟩
  · exact intoFar.congr fun handle inside =>
      hangs.beside?_beside coherent (.inr (Side.mem_orient.mp inside)) side
  · simp [beside?, hangs.atRoot]
  · exact onward.congr fun handle inside =>
      hangs.beside?_beside coherent (.inl (Side.mem_orient.mp inside)) side

/-- The thread away from the side passes through the nodes there, then meets the old root. -/
theorem Hung.bypassed (hangs : Hung tree root slot side key value new hung)
    (coherent : Coherent tree (side.join near (side.join [root] far))) :
    Leads (hung.beside? side.opposite) (hung.entrance side.opposite) (side.opposite.orient near)
      (some root) ∧
    Leads (hung.beside? side.opposite) (some root)
      (side.opposite.orient (side.join [root] far)) none := by
  have backward := coherent.threaded side.opposite
  rw [Side.orient_opposite_join, Leads.append_iff] at backward
  obtain ⟨entry, intoNear, beyond⟩ := backward
  rw [Side.orient_opposite_join, Side.orient_singleton, List.singleton_append,
    Leads.cons_iff] at beyond ⊢
  obtain ⟨rfl, beyond⟩ := beyond
  rw [hangs.entrance]
  refine ⟨?_, rfl, ?_⟩
  · exact intoNear.congr fun handle inside =>
      hangs.beside?_beside coherent (.inl (Side.mem_orient.mp inside)) side.opposite
  · have behind : hung.beside? side.opposite root = tree.beside? side.opposite root := by
      simp [beside?, hangs.atRoot, hangs.found]
    rw [behind]
    exact beyond.congr fun handle inside =>
      hangs.beside?_beside coherent (.inr (Side.mem_orient.mp inside)) side.opposite

end Hung

/-- Hanging an entry in beside the root, when its key lies between the nodes on that
side and the root, leaves a coherent tree with the new node there. -/
theorem Coherent.exists_tryAdopt [Std.TransOrd Key] (side : Side) {near far : Shape}
    {root : Handle} {slot : Slot Key Value} {key : Key} (value : Value)
    (coherent : Coherent tree (side.join near.handles (side.join [root] far.handles)))
    (linked : Linked tree.child? (.onSide side near root far) (some root))
    (found : tree.slot? root = some slot)
    (onNear : ∀ handle ∈ near.handles, tree.direction key handle = side.opposite.ordering)
    (onRest : ∀ handle ∈ side.join [root] far.handles,
      tree.direction key handle = side.ordering) :
    ∃ new adopted, tree.tryAdopt root slot side key value = some adopted ∧
      tree.slot? new = none ∧ adopted.pair? new = some (key, value) ∧
      (∀ handle, handle ≠ new → adopted.pair? handle = tree.pair? handle) ∧
      Coherent adopted
        (side.join near.handles (side.join [new] (side.join [root] far.handles))) := by
  obtain ⟨new, hung, hangs, adopts⟩ := exists_hung coherent.freeList found side key value
  have distinct := coherent.distinct
  simp only [Side.nodup_join] at distinct
  obtain ⟨nearDistinct, -, nearApart⟩ := distinct
  have nearLive : ∀ handle ∈ near.handles, (hung.slot? handle).isSome := fun handle inside =>
    (hangs.live handle).mpr (.inr ((coherent.live handle).mpr (by simp [inside])))
  obtain ⟨intoNear, beyond⟩ := hangs.bypassed coherent
  obtain ⟨threaded, threads, same, redirected, untouched⟩ :=
    exists_tryThread intoNear (Side.nodup_orient.mpr nearDistinct)
      (fun handle inside => nearLive handle (Side.mem_orient.mp inside)) (some new)
  -- The last node of the thread away from the side is the neighbour of the old root.
  have nextIs : slot.neighbour side = (side.orient near.handles).head? := by
    rw [← coherent.beside?_eq side near.handles far.handles rfl]
    simp [beside?, found]
  rw [Side.getLast?_orient_opposite, ← nextIs] at threads
  have pairNew : threaded.pair? new = some (key, value) := by
    rw [same.pair?, hangs.pair?_new]
  have pairOld : ∀ handle, handle ≠ new → threaded.pair? handle = tree.pair? handle :=
    fun handle isOld => by rw [same.pair?, hangs.pair?_old isOld]
  refine ⟨new, { threaded with root := some new }, by rw [adopts, threads]; rfl, hangs.vacant,
    pairNew, pairOld, ⟨.onSide side near new (.onSide side .leaf root far), ?_, ?_⟩,
    fun handle => ?_, ?_, fun other => ?_, ?_, ?_⟩
  · simp [Shape.handles_onSide]
  · change Linked threaded.child? _ (some new)
    rw [same.child?]
    exact hangs.linked coherent linked
  · change (threaded.slot? handle).isSome ↔ _
    rw [same.live, hangs.live, coherent.live]
    simp only [Side.mem_join, List.mem_singleton]
    tauto
  · exact ascending_insert_on coherent.ascending
      (fun handle inside => pairOld handle (hangs.ne_new ((coherent.live handle).mpr inside)))
      pairNew onNear onRest
  · by_cases towards : other = side
    · subst towards
      change Leads (threaded.beside? other) (threaded.entrance other) _ none
      have beside : threaded.beside? other = hung.beside? other := by
        simpa using same.beside_opposite
      have enters : threaded.entrance other = hung.entrance other := by
        simpa using same.entrance_opposite
      rw [beside, enters]
      exact hangs.threaded coherent
    · obtain rfl := Side.eq_opposite_of_ne towards
      change Leads (threaded.beside? side.opposite) (threaded.entrance side.opposite) _ none
      have newOutside : new ∉ near.handles := fun inside =>
        hangs.ne_new ((coherent.live new).mpr (by simp [inside])) rfl
      have atNew : threaded.beside? side.opposite new = some root := by
        rw [untouched new (by simpa using newOutside)]
        simp [beside?, hangs.atNew]
      rw [Side.orient_opposite_join, Side.orient_opposite_join, Side.orient_singleton]
      refine Leads.append_iff.mpr ⟨some new, redirected, rfl, ?_⟩
      rw [atNew]
      refine beyond.congr fun handle inside => untouched handle fun inNear => ?_
      exact nearApart handle (Side.mem_orient.mp inNear) (Side.mem_orient.mp inside)
  · change threaded.size = _
    rw [same.size, hangs.size, coherent.size]
    simp
    omega
  · exact hangs.freeList.congr same.free same.slots_size same.live

/-- A new node holds an entry, between the nodes of smaller and of greater keys. -/
structure Added (tree : SplayTree Key Value) (before after : List Handle) (key : Key)
    (value : Value) (grown : SplayTree Key Value) (new : Handle) : Prop where
  smaller : ∀ handle ∈ before, tree.direction key handle = .gt
  greater : ∀ handle ∈ after, tree.direction key handle = .lt
  fresh : tree.slot? new = none
  added : grown.pair? new = some (key, value)
  kept : ∀ handle, handle ≠ new → grown.pair? handle = tree.pair? handle
  coherent : Coherent grown (before ++ new :: after)

/-- Whether a tree was splayed before makes no difference to what was added. -/
theorem Added.of_rearranged {splayed grown : SplayTree Key Value} {before after : List Handle}
    {key : Key} {value : Value} {new : Handle} (same : Rearranged tree splayed)
    (added : Added splayed before after key value grown new) :
    Added tree before after key value grown new where
  smaller := same.direction key ▸ added.smaller
  greater := same.direction key ▸ added.greater
  fresh := by
    have vacant := same.live new
    rw [added.fresh] at vacant
    simpa using vacant.symm
  added := added.added
  kept := same.pair? ▸ added.kept
  coherent := added.coherent

/-- The first entry of a tree without nodes becomes its root and both ends of its
thread. -/
theorem Coherent.exists_tryInsert_nil (coherent : Coherent tree []) (key : Key) (value : Value) :
    ∃ grown new, tree.tryInsert key value = some (true, grown) ∧
      Added tree [] [] key value grown new := by
  have stored := coherent.freeList.stored_allocate { key, value }
  obtain ⟨new, grown, allocated⟩ :
      ∃ new grown, tree.allocate { key, value } = (new, grown) := ⟨_, _, rfl⟩
  rw [allocated] at stored
  have vacant : ∀ handle, tree.slot? handle = none := fun handle => by
    simpa using (coherent.live handle).not
  have slots : ∀ handle, grown.slot? handle =
      if handle = new then some { key, value } else none := fun handle => by
    rw [stored.slot?, vacant]
  refine ⟨{ grown with root := some new, first := some new, last := some new }, new, ?_,
    by simp, by simp, vacant new, ?_, ?_, ⟨.node .leaf new .leaf, rfl, rfl, ?_, ?_⟩,
    fun handle => ?_, List.pairwise_singleton .., fun side => ?_, ?_, ?_⟩
  · simp [tryInsert, coherent.root_eq_none_iff.mpr rfl, allocated]
  · change grown.pair? new = _
    simp [pair?, slots]
  · intro handle different
    change grown.pair? handle = _
    simp [pair?, slots, vacant, different]
  · change grown.child? .left new = none
    simp [child?, slots, Slot.child]
  · change grown.child? .right new = none
    simp [child?, slots, Slot.child]
  · change (grown.slot? handle).isSome ↔ _
    simp [slots]
  · have alone : grown.beside? side new = none := by
      cases side <;> simp [beside?, slots, Slot.neighbour]
    cases side with
    | left => exact ⟨rfl, alone⟩
    | right => exact ⟨rfl, alone⟩
  · change grown.size = _
    rw [stored.size, coherent.size]
    rfl
  · exact stored.freeList.congr rfl rfl fun _ => rfl

/-- Inserting a key succeeds. A key that is present is left as it is, and an absent one
is added with its value. -/
theorem Coherent.exists_tryInsert [Std.TransOrd Key] (coherent : Coherent tree order) (key : Key)
    (value : Value) :
    (∃ searched, tree.tryInsert key value = some (false, searched) ∧ Rearranged tree searched ∧
      Coherent searched order ∧ ∃ handle ∈ order, tree.direction key handle = .eq) ∨
    ∃ grown before after new, tree.tryInsert key value = some (true, grown) ∧
      before ++ after = order ∧ Added tree before after key value grown new := by
  rcases eq_or_ne order [] with rfl | nonempty
  · obtain ⟨grown, new, inserts, added⟩ := coherent.exists_tryInsert_nil key value
    exact .inr ⟨grown, [], [], new, inserts, rfl, added⟩
  · obtain ⟨splayed, left, root, right, splays, shape, rfl, after⟩ :=
      coherent.exists_trySplay key nonempty
    obtain ⟨slot, found⟩ := Option.isSome_iff_exists.mp ((after.live root).mpr (by simp))
    have direction : compare key slot.key = tree.direction key root := by
      rw [← shape.rearranged.direction, direction_of_slot found]
    obtain ⟨first, rootIs⟩ := Option.ne_none_iff_exists'.mp
      (coherent.root_eq_none_iff.not.mpr nonempty)
    cases choice : Side.ofOrdering? (tree.direction key root) with
    | none =>
      exact .inl ⟨splayed,
        by simp [tryInsert, rootIs, splays, shape.isRoot, found, direction, choice],
        shape.rearranged, after, root, by simp, Side.ofOrdering?_eq_none.mp choice⟩
    | some side =>
      have towards := Side.ofOrdering?_eq_some.mp choice
      have inserts : tree.tryInsert key value =
          (splayed.tryAdopt root slot side key value).map (true, ·) := by
        simp only [tryInsert, rootIs, splays, shape.isRoot, found, direction, choice,
          Option.bind_eq_bind, Option.bind_some, Option.map_eq_bind]
        rfl
      have smaller := shape.separates.left
      have greater := shape.separates.right
      rw [← shape.rearranged.direction] at towards
      simp only [← shape.rearranged.direction] at smaller greater
      right
      cases side with
      | left =>
        have rest : ∀ handle ∈ root :: right.handles, splayed.direction key handle = .lt :=
          List.forall_mem_cons.mpr ⟨towards, greater⟩
        obtain ⟨new, grown, adopts, fresh, added, kept, grownCoherent⟩ :=
          after.exists_tryAdopt .left value shape.linked found smaller rest
        exact ⟨grown, left.handles, root :: right.handles, new, by simp [inserts, adopts], rfl,
          .of_rearranged shape.rearranged ⟨smaller, rest, fresh, added, kept, grownCoherent⟩⟩
      | right =>
        have rest : ∀ handle ∈ left.handles ++ [root], splayed.direction key handle = .gt :=
          List.forall_mem_append.mpr ⟨smaller, List.forall_mem_singleton.mpr towards⟩
        have inOrder : left.handles ++ root :: right.handles =
          Side.right.join right.handles (Side.right.join [root] left.handles) := by simp [Side.join]
        obtain ⟨new, grown, adopts, fresh, added, kept, grownCoherent⟩ :=
          (inOrder ▸ after).exists_tryAdopt .right value shape.linked found greater rest
        refine ⟨grown, left.handles ++ [root], right.handles, new, by simp [inserts, adopts],
          by simp, .of_rearranged shape.rearranged ⟨rest, greater, fresh, added, kept, ?_⟩⟩
        simpa [Side.join] using grownCoherent

end JitTrace.SplayTree
