import JitTrace.Proofs.SplayTree.Slots

/-!
# Vacated slots

The free list of a splay tree names its vacated slots, each once. Storing an entry
takes a slot that no handle names, and vacating one gives it back.
-/

namespace JitTrace.SplayTree

variable {Key Value : Type} {tree : SplayTree Key Value}

/-- The slots after one has been added at the end. -/
theorem slot?_of_push (tree : SplayTree Key Value) {grown : SplayTree Key Value}
    {slot : Slot Key Value} (slots : grown.slots = tree.slots.push (some slot)) (other : Handle) :
    grown.slot? other = if other = tree.slots.size then some slot else tree.slot? other := by
  simp only [SplayTree.slot?, slots, Array.getElem?_push]
  split <;> simp

/-- The slots after one has been overwritten. -/
theorem slot?_of_modify (tree : SplayTree Key Value) {changed : SplayTree Key Value}
    {handle : Handle} {content : Option (Slot Key Value)} (inside : handle < tree.slots.size)
    (slots : changed.slots = tree.slots.modify handle fun _ => content) (other : Handle) :
    changed.slot? other = if other = handle then content else tree.slot? other := by
  simp only [SplayTree.slot?, slots, Array.getElem?_modify, eq_comm (a := other)]
  split
  · rename_i same
    subst same
    simp [inside]
  · rfl

/-- The free list holds the slots that are not live, without repeats. -/
structure FreeList (tree : SplayTree Key Value) : Prop where
  distinct : tree.free.Nodup
  mem_iff : ∀ handle, handle ∈ tree.free ↔ handle < tree.slots.size ∧ tree.slot? handle = none

/-- The free list depends on itself and on which slots are live. -/
theorem FreeList.congr {other : SplayTree Key Value} (vacant : FreeList tree)
    (free : other.free = tree.free) (size : other.slots.size = tree.slots.size)
    (live : ∀ handle, (other.slot? handle).isSome = (tree.slot? handle).isSome) :
    FreeList other := by
  refine ⟨free ▸ vacant.distinct, fun handle => ?_⟩
  have same : other.slot? handle = none ↔ tree.slot? handle = none := by
    rw [← Option.isNone_iff_eq_none, ← Option.isNone_iff_eq_none, ← Option.not_isSome,
      ← Option.not_isSome, live]
  rw [free, size, same, vacant.mem_iff]

theorem Rearranged.freeList {other : SplayTree Key Value} (same : Rearranged tree other)
    (vacant : FreeList tree) : FreeList other :=
  vacant.congr same.free same.slots_size same.live

/-- Storing a slot takes a vacated or a new one and changes no other. -/
structure Stored (tree : SplayTree Key Value) (slot : Slot Key Value) (handle : Handle)
    (grown : SplayTree Key Value) : Prop where
  vacant : tree.slot? handle = none
  slot? : ∀ other, grown.slot? other = if other = handle then some slot else tree.slot? other
  root : grown.root = tree.root
  entrance : grown.entrance = tree.entrance
  size : grown.size = tree.size + 1
  freeList : FreeList grown

/-- Allocation stores the slot. -/
theorem FreeList.stored_allocate (vacant : FreeList tree) (slot : Slot Key Value) :
    Stored tree slot (tree.allocate slot).1 (tree.allocate slot).2 := by
  cases free : tree.free with
  | nil =>
    have noFree : ∀ handle < tree.slots.size, tree.slot? handle ≠ none := by
      intro handle inside vacated
      have listed := (vacant.mem_iff handle).mpr ⟨inside, vacated⟩
      simp [free] at listed
    simp only [allocate, free]
    refine ⟨by simp [SplayTree.slot?], slot?_of_push tree rfl, rfl, ?_, rfl, ?_⟩
    · funext side
      cases side <;> rfl
    · refine ⟨List.nodup_nil, fun handle => ?_⟩
      rw [slot?_of_push tree rfl]
      simp only [List.not_mem_nil, false_iff, Array.size_push, not_and]
      intro inside vacated
      by_cases last : handle = tree.slots.size
      · simp [last] at vacated
      · rw [if_neg last] at vacated
        exact noFree handle (Nat.lt_of_le_of_ne (Nat.le_of_lt_succ inside) last) vacated
  | cons handle rest =>
    have listed := (vacant.mem_iff handle).mp (by simp [free])
    have distinct := vacant.distinct
    rw [free, List.nodup_cons] at distinct
    simp only [allocate, free]
    refine ⟨listed.2, slot?_of_modify tree listed.1 rfl, rfl, ?_, rfl, distinct.2, fun other => ?_⟩
    · funext side
      cases side <;> rfl
    · have inFree := vacant.mem_iff other
      rw [free, List.mem_cons] at inFree
      rw [slot?_of_modify tree listed.1 rfl]
      by_cases same : other = handle
      · subst same
        simp [distinct.1]
      · simpa [same] using inFree

/-- Vacating a live slot gives it back and changes no other. -/
theorem FreeList.exists_tryRelease (vacant : FreeList tree) {handle : Handle}
    {slot : Slot Key Value} (found : tree.slot? handle = some slot) :
    ∃ released, tree.tryRelease handle = some (slot, released) ∧
      (∀ other, released.slot? other = if other = handle then none else tree.slot? other) ∧
      released.root = tree.root ∧ released.entrance = tree.entrance ∧
      released.size = tree.size - 1 ∧ FreeList released := by
  have inside : handle < tree.slots.size := lt_size_of_live (by simp [found])
  refine ⟨{ tree with
      slots := tree.slots.modify handle fun _ => none
      free := handle :: tree.free
      size := tree.size - 1 },
    by simp [tryRelease, found], slot?_of_modify tree inside rfl, rfl, ?_, rfl, ?_⟩
  · funext side
    cases side <;> rfl
  · refine ⟨List.nodup_cons.mpr ⟨fun listed => ?_, vacant.distinct⟩, fun other => ?_⟩
    · have vacated := ((vacant.mem_iff handle).mp listed).2
      simp [found] at vacated
    · rw [slot?_of_modify tree inside rfl, List.mem_cons, vacant.mem_iff]
      by_cases same : other = handle
      · subst same
        simp [inside]
      · simp [same]

end JitTrace.SplayTree
