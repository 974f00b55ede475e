import JitTrace.Proofs.SplayTree.Coherent

/-!
# Lookups in coherent splay trees

Every lookup of a coherent tree succeeds, only rearranges it, and finds the node that
the order of the nodes says it should.
-/

namespace JitTrace.SplayTree

variable {Key Value : Type} [Ord Key] {tree : SplayTree Key Value} {order : List Handle}

/-- The thread is entered at the outermost node. -/
theorem Coherent.entrance_eq (coherent : Coherent tree order) (side : Side) :
    tree.entrance side = (side.orient order).head? := by
  rw [(coherent.threaded side).start_eq, Option.or_none]

/-- The neighbour of a node is the first node beyond it. -/
theorem Coherent.beside?_eq (coherent : Coherent tree order) (side : Side) (near far : List Handle)
    {root : Handle} (inOrder : side.join near (side.join [root] far) = order) :
    tree.beside? side root = (side.orient near).head? := by
  have leads := coherent.threaded side
  rw [← inOrder, Side.orient_join, Side.orient_join, Side.orient_singleton,
    Leads.append_iff] at leads
  obtain ⟨middle, onFar, onNear⟩ := leads
  obtain ⟨last, -, onRoot⟩ := Leads.append_iff.mp onFar
  rw [show tree.beside? side root = middle from onRoot.2, onNear.start_eq]
  simp

variable [Std.TransOrd Key]

/-- How the key of a node compares with another key, as opposed to the other way
round. -/
theorem compare_slot_key {key : Key} {handle : Handle} {slot : Slot Key Value}
    (found : tree.slot? handle = some slot) :
    compare slot.key key = (tree.direction key handle).swap := by
  rw [direction_of_slot found, ← Std.OrientedOrd.eq_swap]

/-- Looking a key up finds its node, and only rearranges the tree. -/
theorem Coherent.exists_tryFind (coherent : Coherent tree order) (key : Key) :
    ∃ searched, tree.tryFind key =
        some (order.find? fun handle => tree.direction key handle == .eq, searched) ∧
      Rearranged tree searched ∧ Coherent searched order := by
  rcases eq_or_ne order [] with rfl | nonempty
  · refine ⟨tree, ?_, .refl tree, coherent⟩
    simp [tryFind, coherent.trySplay_nil, coherent.root_eq_none_iff.mpr rfl]
  · obtain ⟨splayed, left, root, right, splays, shape, rfl, after⟩ :=
      coherent.exists_trySplay key nonempty
    obtain ⟨slot, slotFound⟩ :=
      Option.isSome_iff_exists.mp ((after.live root).mpr (by simp))
    have comparison : compare slot.key key = .eq ↔ tree.direction key root = .eq := by
      rw [compare_slot_key slotFound, shape.rearranged.direction]
      cases tree.direction key root <;> simp
    have notLeft : left.handles.find? (fun handle => tree.direction key handle == .eq) = none :=
      List.find?_eq_none.mpr fun handle inside => by simp [shape.separates.left handle inside]
    have notRight : right.handles.find? (fun handle => tree.direction key handle == .eq) = none :=
      List.find?_eq_none.mpr fun handle inside => by simp [shape.separates.right handle inside]
    refine ⟨splayed, ?_, shape.rearranged, after⟩
    rw [List.find?_append, notLeft, List.find?_cons, notRight]
    by_cases present : tree.direction key root = .eq
    · simp [tryFind, splays, shape.isRoot, slotFound, comparison, present]
    · simp [tryFind, splays, shape.isRoot, slotFound, comparison,
        beq_eq_false_iff_ne.mpr present, present]

/-- The nodes whose keys compare with a key as wanted. -/
def wantedNodes (tree : SplayTree Key Value) (order : List Handle) (key : Key)
    (wanted : Ordering → Bool) : List Handle :=
  order.filter fun handle => wanted (tree.direction key handle).swap

/-- When all nodes on one side of the key are wanted and none on the other, the nearest
wanted one is found, and the tree is only rearranged. -/
theorem Coherent.exists_tryNearest (coherent : Coherent tree order) (key : Key)
    (wanted : Ordering → Bool) (side : Side) (near : wanted side.ordering = true)
    (far : wanted side.opposite.ordering = false) :
    ∃ found searched, tree.tryNearest key wanted side = some (found, searched) ∧
      Rearranged tree searched ∧ Coherent searched order ∧
      found = (side.orient (tree.wantedNodes order key wanted)).head? := by
  rcases eq_or_ne order [] with rfl | nonempty
  · refine ⟨none, tree, ?_, .refl tree, coherent, by simp [wantedNodes]⟩
    simp [tryNearest, coherent.trySplay_nil, coherent.root_eq_none_iff.mpr rfl]
  · obtain ⟨splayed, left, root, right, splays, shape, rfl, after⟩ :=
      coherent.exists_trySplay key nonempty
    obtain ⟨slot, slotFound⟩ :=
      Option.isSome_iff_exists.mp ((after.live root).mpr (by simp))
    refine ⟨if wanted (compare slot.key key) then some root else slot.neighbour side, splayed,
      by simp [tryNearest, splays, shape.isRoot, slotFound], shape.rearranged, after, ?_⟩
    have neighbour : slot.neighbour side = splayed.beside? side root := by
      simp [beside?, slotFound]
    rw [compare_slot_key slotFound, shape.rearranged.direction, neighbour, wantedNodes,
      List.filter_append, List.filter_cons]
    have onLeft : ∀ handle ∈ left.handles, (tree.direction key handle).swap = .lt := by
      intro handle inside
      rw [shape.separates.left handle inside]
      rfl
    have onRight : ∀ handle ∈ right.handles, (tree.direction key handle).swap = .gt := by
      intro handle inside
      rw [shape.separates.right handle inside]
      rfl
    cases side with
    | left =>
      rw [after.beside?_eq .left left.handles right.handles rfl,
        List.filter_eq_self.mpr (fun handle inside => by rw [onLeft handle inside]; exact near),
        List.filter_eq_nil_iff.mpr fun handle inside => by
          rw [onRight handle inside]
          exact Bool.eq_false_iff.mp far]
      split <;> simp [Side.orient]
    | right =>
      rw [after.beside?_eq .right right.handles left.handles (by simp [Side.join]),
        List.filter_eq_nil_iff.mpr (fun handle inside => by
          rw [onLeft handle inside]
          exact Bool.eq_false_iff.mp far),
        List.filter_eq_self.mpr (fun handle inside => by rw [onRight handle inside]; exact near)]
      split <;> simp [Side.orient]

omit [Std.TransOrd Key] in
/-- What a search meets at the root of a subtree: both of its subtrees are searchable, and
the key lies on one side of all nodes of one of them. -/
theorem Searchable.exists_root {key : Key} {left right : Shape} {root : Handle}
    {link : Option Handle} (searchable : Searchable tree key (Shape.node left root right).handles)
    (linked : Linked tree.child? (.node left root right) link) :
    ∃ slot, link = some root ∧ tree.slot? root = some slot ∧
      tree.direction key root = compare key slot.key ∧
      Linked tree.child? left slot.left ∧ Linked tree.child? right slot.right ∧
      Searchable tree key left.handles ∧ Searchable tree key right.handles ∧
      (compare key slot.key ≠ .lt → ∀ handle ∈ left.handles, tree.direction key handle = .gt) ∧
      (compare key slot.key ≠ .gt → ∀ handle ∈ right.handles, tree.direction key handle = .lt) := by
  obtain ⟨rfl, onLeft, onRight⟩ := linked
  obtain ⟨live, distinct, ordered⟩ := searchable
  rw [Shape.handles_node] at live distinct ordered
  obtain ⟨slot, found⟩ := Option.isSome_iff_exists.mp (live root (by simp))
  obtain ⟨leftOrdered, rest, across⟩ := List.pairwise_append.mp ordered
  obtain ⟨fromRoot, rightOrdered⟩ := List.pairwise_cons.mp rest
  obtain ⟨leftDistinct, restDistinct, -⟩ := List.nodup_append.mp distinct
  have direction : tree.direction key root = compare key slot.key := direction_of_slot found
  have leftChild : tree.child? .left root = slot.left := by simp [child?, found, Slot.child]
  have rightChild : tree.child? .right root = slot.right := by simp [child?, found, Slot.child]
  refine ⟨slot, rfl, found, direction, leftChild ▸ onLeft, rightChild ▸ onRight,
    ⟨fun handle inside => live handle (by simp [inside]), leftDistinct, leftOrdered⟩,
    ⟨fun handle inside => live handle (by simp [inside]), restDistinct.of_cons, rightOrdered⟩,
    fun notBefore handle inside => ?_, fun notBehind handle inside => ?_⟩
  · exact (across handle inside root (by simp)).resolve_right (direction ▸ notBefore)
  · exact (fromRoot handle inside).resolve_left (direction ▸ notBehind)

omit [Std.TransOrd Key] in
/-- A search for a key finds the one node that holds it. -/
theorem tryPeekFrom_eq {key : Key} {shape : Shape} {link : Option Handle} {steps : Nat}
    (linked : Linked tree.child? shape link) (searchable : Searchable tree key shape.handles)
    (enough : shape.handles.length ≤ steps) :
    tree.tryPeekFrom key steps link =
      some (shape.handles.find? fun handle => tree.direction key handle == .eq) := by
  induction shape generalizing link steps with
  | leaf =>
    obtain rfl := linked
    cases steps <;> rfl
  | node left root right leftHypothesis rightHypothesis =>
    obtain ⟨slot, rfl, found, direction, onLeft, onRight, leftSearchable, rightSearchable,
      beforeKey, behindKey⟩ := searchable.exists_root linked
    rw [Shape.handles_node, List.length_append, List.length_cons] at enough
    obtain ⟨steps, rfl⟩ : ∃ fewer, steps = fewer + 1 := ⟨steps - 1, by omega⟩
    have descendLeft := leftHypothesis onLeft leftSearchable (by omega : _ ≤ steps)
    have descendRight := rightHypothesis onRight rightSearchable (by omega : _ ≤ steps)
    have notLeft (notBefore : compare key slot.key ≠ .lt) :
        left.handles.find? (fun handle => tree.direction key handle == .eq) = none :=
      List.find?_eq_none.mpr fun handle inside => by simp [beforeKey notBefore handle inside]
    have notRight (notBehind : compare key slot.key ≠ .gt) :
        right.handles.find? (fun handle => tree.direction key handle == .eq) = none :=
      List.find?_eq_none.mpr fun handle inside => by simp [behindKey notBehind handle inside]
    rw [Shape.handles_node, List.find?_append, List.find?_cons, direction, tryPeekFrom, found]
    cases comparison : compare key slot.key with
    | lt =>
      rw [notRight (by simp [comparison])]
      simpa [comparison, Side.ofOrdering?, Slot.child] using descendLeft
    | eq =>
      rw [notLeft (by simp [comparison])]
      simp [comparison, Side.ofOrdering?]
    | gt =>
      rw [notLeft (by simp [comparison])]
      simpa [comparison, Side.ofOrdering?, Slot.child] using descendRight

/-- The node that holds a key is found without rearranging. -/
theorem Coherent.tryPeek_eq (coherent : Coherent tree order) (key : Key) :
    tree.tryPeekFrom key tree.slots.size tree.root =
      some (order.find? fun handle => tree.direction key handle == .eq) := by
  obtain ⟨shape, rfl, linked⟩ := coherent.linked
  exact tryPeekFrom_eq linked (coherent.searchable key) (coherent.length_le coherent.distinct)

omit [Std.TransOrd Key] in
/-- A search for the last key not above a given one keeps the best node that it has
passed until it passes a better one. -/
theorem tryPeekAtMostFrom_eq {key : Key} {shape : Shape} {link : Option Handle} {steps : Nat}
    (linked : Linked tree.child? shape link) (searchable : Searchable tree key shape.handles)
    (enough : shape.handles.length ≤ steps) (best : Option Handle) :
    tree.tryPeekAtMostFrom key steps link best =
      some ((tree.wantedNodes shape.handles key (·.isLE)).getLast?.or best) := by
  induction shape generalizing link steps best with
  | leaf =>
    obtain rfl := linked
    cases steps <;> rfl
  | node left root right leftHypothesis rightHypothesis =>
    obtain ⟨slot, rfl, found, direction, onLeft, onRight, leftSearchable, rightSearchable, -,
      behindKey⟩ := searchable.exists_root linked
    rw [Shape.handles_node, List.length_append, List.length_cons] at enough
    obtain ⟨steps, rfl⟩ : ∃ fewer, steps = fewer + 1 := ⟨steps - 1, by omega⟩
    have descendLeft := leftHypothesis onLeft leftSearchable (by omega : _ ≤ steps)
    have descendRight := rightHypothesis onRight rightSearchable (by omega : _ ≤ steps)
    have whole : tree.wantedNodes (left.handles ++ root :: right.handles) key (·.isLE) =
        tree.wantedNodes left.handles key (·.isLE) ++
          (if (compare key slot.key).swap.isLE then [root] else []) ++
            tree.wantedNodes right.handles key (·.isLE) := by
      simp only [wantedNodes, List.filter_append, List.filter_cons, direction]
      split <;> simp
    -- Unless the key lies behind the root, no node beyond the root is wanted.
    have beyond (notBehind : compare key slot.key ≠ .gt) :
        tree.wantedNodes right.handles key (·.isLE) = [] :=
      List.filter_eq_nil_iff.mpr fun handle inside => by
        rw [behindKey notBehind handle inside]
        decide
    rw [Shape.handles_node, whole, tryPeekAtMostFrom, found]
    cases comparison : compare key slot.key with
    | lt =>
      rw [beyond (by simp [comparison])]
      simpa [comparison] using descendLeft best
    | eq =>
      rw [beyond (by simp [comparison])]
      simp [comparison]
    | gt =>
      simpa [comparison, List.getLast?_cons] using descendRight (some root)

/-- The last node whose key is not above a given one is found without rearranging. -/
theorem Coherent.tryPeekAtMost_eq (coherent : Coherent tree order) (key : Key) :
    tree.tryPeekAtMostFrom key tree.slots.size tree.root none =
      some (tree.wantedNodes order key (·.isLE)).getLast? := by
  obtain ⟨shape, rfl, linked⟩ := coherent.linked
  rw [tryPeekAtMostFrom_eq linked (coherent.searchable key)
    (coherent.length_le coherent.distinct) none, Option.or_none]

end JitTrace.SplayTree
