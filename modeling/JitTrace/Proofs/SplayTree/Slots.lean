import JitTrace.Proofs.SplayTree.Shape

/-!
# Reading slots after a change

What each elementary change of a splay tree's slots leaves behind, in terms of
the readings `slot?`, `child?` and `beside?`. Changes of child links alone are
rearrangements: `Rearranged` says that two trees have everything else in common.
-/

namespace JitTrace

namespace Slot

variable {Key Value : Type} (slot : Slot Key Value) (side : Side) (link : Option Handle)

@[simp] theorem child_withChild (other : Side) :
    (slot.withChild side link).child other = if other = side then link else slot.child other := by
  cases side <;> cases other <;> simp [withChild, child]

@[simp] theorem neighbour_withChild : (slot.withChild side link).neighbour = slot.neighbour := by
  funext other
  cases side <;> cases other <;> rfl

@[simp] theorem child_withNeighbour : (slot.withNeighbour side link).child = slot.child := by
  funext other
  cases side <;> cases other <;> rfl

@[simp] theorem neighbour_withNeighbour (other : Side) :
    (slot.withNeighbour side link).neighbour other =
      if other = side then link else slot.neighbour other := by
  cases side <;> cases other <;> simp [withNeighbour, neighbour]

@[simp] theorem key_withChild : (slot.withChild side link).key = slot.key := by
  cases side <;> rfl

@[simp] theorem value_withChild : (slot.withChild side link).value = slot.value := by
  cases side <;> rfl

@[simp] theorem key_withNeighbour : (slot.withNeighbour side link).key = slot.key := by
  cases side <;> rfl

@[simp] theorem value_withNeighbour : (slot.withNeighbour side link).value = slot.value := by
  cases side <;> rfl

/-- The slot without its child links. -/
def unlinked : Slot Key Value :=
  { slot with left := none, right := none }

@[simp] theorem unlinked_withChild : (slot.withChild side link).unlinked = slot.unlinked := by
  cases side <;> rfl

@[simp] theorem neighbour_unlinked : slot.unlinked.neighbour = slot.neighbour := by
  funext other
  cases other <;> rfl

end Slot

namespace SplayTree

variable {Key Value : Type} {tree : SplayTree Key Value}

/-! ## Changed slots -/

@[simp] theorem slot?_modifySlot (tree : SplayTree Key Value) (handle : Handle)
    (change : Slot Key Value → Slot Key Value) (other : Handle) :
    (tree.modifySlot handle change).slot? other =
      if other = handle then (tree.slot? other).map change else tree.slot? other := by
  simp only [slot?, modifySlot, Array.getElem?_modify, eq_comm (a := other)]
  split
  · cases tree.slots[other]? with
    | none => rfl
    | some slot => cases slot <;> rfl
  · rfl

@[simp] theorem entrance_modifySlot (tree : SplayTree Key Value) (handle : Handle)
    (change : Slot Key Value → Slot Key Value) :
    (tree.modifySlot handle change).entrance = tree.entrance := by
  funext side
  cases side <;> rfl

/-- A change of a live slot succeeds. -/
theorem tryModify_of_live {handle : Handle} (live : (tree.slot? handle).isSome)
    (change : Slot Key Value → Slot Key Value) :
    tree.tryModify handle change = some (tree.modifySlot handle change) := by
  simp [tryModify, live]

/-- A handle with a slot lies within the array of slots. -/
theorem lt_size_of_live {handle : Handle} (live : (tree.slot? handle).isSome) :
    handle < tree.slots.size := by
  by_contra beyond
  simp [slot?, Array.getElem?_eq_none (Nat.le_of_not_lt beyond)] at live

/-- Giving a live node another child relinks it. -/
theorem child?_withChild {handle : Handle} (live : (tree.slot? handle).isSome) (side : Side)
    (link : Option Handle) :
    (tree.modifySlot handle (·.withChild side link)).child? =
      ChildLinks.relink tree.child? handle side link := by
  funext other reader
  by_cases same : reader = handle
  · subst same
    obtain ⟨slot, found⟩ := Option.isSome_iff_exists.mp live
    by_cases sides : other = side <;> simp [child?, ChildLinks.relink, found, sides]
  · simp [child?, ChildLinks.relink, same]

/-- The key of a node is part of its entry. -/
theorem key?_eq_map_pair? (tree : SplayTree Key Value) (handle : Handle) :
    tree.key? handle = (tree.pair? handle).map (·.1) := by
  simp [key?, pair?, Function.comp_def]

/-- Trees with the same entries have the same keys. -/
theorem key?_of_pair? {other : SplayTree Key Value} {handle : Handle}
    (same : other.pair? handle = tree.pair? handle) : other.key? handle = tree.key? handle := by
  simp [key?_eq_map_pair?, same]

/-! ## Rearrangements -/

/-- The tree without its root and its child links. -/
def unlinked (tree : SplayTree Key Value) : SplayTree Key Value :=
  { tree with slots := tree.slots.map (Option.map Slot.unlinked), root := none }

/-- The second tree differs from the first in its root and child links at most. -/
def Rearranged (before after : SplayTree Key Value) : Prop :=
  after.unlinked = before.unlinked

@[simp] theorem slot?_unlinked (tree : SplayTree Key Value) (handle : Handle) :
    tree.unlinked.slot? handle = (tree.slot? handle).map Slot.unlinked := by
  simp only [slot?, unlinked, Array.getElem?_map]
  cases tree.slots[handle]? with
  | none => rfl
  | some slot => cases slot <;> rfl

namespace Rearranged

variable {before middle after : SplayTree Key Value}

theorem refl (tree : SplayTree Key Value) : Rearranged tree tree := rfl

theorem trans (first : Rearranged before middle) (second : Rearranged middle after) :
    Rearranged before after :=
  Eq.trans second first

/-- Any reading of a slot that ignores the child links is the same. -/
theorem slot?_map {Read : Type} (same : Rearranged before after) (read : Slot Key Value → Read)
    (ignores : ∀ slot, read slot.unlinked = read slot) (handle : Handle) :
    (after.slot? handle).map read = (before.slot? handle).map read := by
  have equal : after.unlinked.slot? handle = before.unlinked.slot? handle := by rw [same]
  have mapped := congrArg (Option.map read) equal
  simpa [Function.comp_def, ignores] using mapped

theorem key? (same : Rearranged before after) : after.key? = before.key? :=
  funext (same.slot?_map (·.key) fun _ => rfl)

theorem value? (same : Rearranged before after) : after.value? = before.value? :=
  funext (same.slot?_map (·.value) fun _ => rfl)

theorem pair? (same : Rearranged before after) : after.pair? = before.pair? :=
  funext (same.slot?_map (fun slot => (slot.key, slot.value)) fun _ => rfl)

theorem beside? (same : Rearranged before after) : after.beside? = before.beside? := by
  funext side handle
  have mapped := same.slot?_map (·.neighbour side) (by simp) handle
  have joined := congrArg (Option.bind · id) mapped
  simpa [SplayTree.beside?, Option.bind_map, Function.comp_def] using joined

theorem live (same : Rearranged before after) (handle : Handle) :
    (after.slot? handle).isSome = (before.slot? handle).isSome := by
  have mapped := same.slot?_map (fun _ => ()) (fun _ => rfl) handle
  simpa using congrArg Option.isSome mapped

theorem slots_size (same : Rearranged before after) : after.slots.size = before.slots.size := by
  have equal : after.unlinked.slots.size = before.unlinked.slots.size := by rw [same]
  simpa [unlinked] using equal

theorem size (same : Rearranged before after) : after.size = before.size :=
  congrArg (·.size) (show after.unlinked = before.unlinked from same)

theorem free (same : Rearranged before after) : after.free = before.free :=
  congrArg (·.free) (show after.unlinked = before.unlinked from same)

theorem entrance (same : Rearranged before after) : after.entrance = before.entrance := by
  funext side
  cases side with
  | left => exact congrArg (·.last) (show after.unlinked = before.unlinked from same)
  | right => exact congrArg (·.first) (show after.unlinked = before.unlinked from same)

/-- A new root is a rearrangement. -/
theorem root (tree : SplayTree Key Value) (root : Option Handle) :
    Rearranged tree { tree with root } := rfl

/-- A new child is a rearrangement. -/
theorem withChild (tree : SplayTree Key Value) (handle : Handle) (side : Side)
    (link : Option Handle) :
    Rearranged tree (tree.modifySlot handle (·.withChild side link)) := by
  simp only [Rearranged, unlinked, modifySlot]
  congr 1
  apply Array.ext_getElem?
  intro index
  simp only [Array.getElem?_map, Array.getElem?_modify]
  split
  · cases tree.slots[index]? with
    | none => rfl
    | some slot => cases slot <;> simp
  · rfl

end Rearranged

end SplayTree

end JitTrace
