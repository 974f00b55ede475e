import JitTrace.SplayTree.Walk
import JitTrace.Proofs.SplayTree.Lookup

/-!
# Entries of coherent splay trees

What a walk along the thread of a coherent tree sees: the entries of the nodes in
order, whatever the shape. Everything that a map answers can be read off this list.
-/

namespace JitTrace.SplayTree

variable {Key Value : Type} {tree : SplayTree Key Value} {order : List Handle}

/-- The entries of nodes. -/
def entries (tree : SplayTree Key Value) (order : List Handle) : List (Key × Value) :=
  order.filterMap tree.pair?

/-- The side that a walk is heading for. -/
def Heading.side : Heading → Side
  | .ascending => .right
  | .descending => .left

theorem neighbour?_eq_beside? (tree : SplayTree Key Value) (heading : Heading) :
    tree.neighbour? heading = tree.beside? heading.side := by
  cases heading <;> rfl

/-- A walk passes through the nodes that the thread leads through. -/
theorem walk_of_leads {heading : Heading} {start : Option Handle} {handles : List Handle}
    {count : Nat} (leads : Leads (tree.beside? heading.side) start handles none)
    (enough : handles.length ≤ count) : tree.walk heading count start = handles := by
  induction handles generalizing start count with
  | nil =>
    obtain rfl : start = none := leads
    cases count <;> rfl
  | cons handle handles inductionHypothesis =>
    obtain ⟨rfl, onward⟩ := leads
    obtain ⟨count, rfl⟩ := Nat.exists_eq_add_of_lt enough
    rw [walk, neighbour?_eq_beside?, inductionHypothesis onward (by omega)]

variable [Ord Key]

/-- The entries that a walk sees are those of the nodes in order. -/
theorem Coherent.toList_eq (coherent : Coherent tree order) : tree.toList = tree.entries order := by
  have leads := coherent.threaded .right
  rw [toList, entriesFrom, walk_of_leads leads (Nat.le_of_eq coherent.size.symm)]
  rfl

/-- A live node has an entry. -/
theorem Coherent.exists_pair (coherent : Coherent tree order) {handle : Handle}
    (inside : handle ∈ order) : ∃ entry, tree.pair? handle = some entry := by
  obtain ⟨slot, found⟩ := Option.isSome_iff_exists.mp ((coherent.live handle).mpr inside)
  exact ⟨(slot.key, slot.value), by simp [pair?, found]⟩

/-- Every node has one entry. -/
theorem Coherent.map_pair?_eq (coherent : Coherent tree order) {nodes : List Handle}
    (within : nodes ⊆ order) : nodes.map tree.pair? = (tree.entries nodes).map some := by
  rw [entries, List.map_filterMap_some_eq_filter_map_isSome, List.filter_eq_self.mpr]
  refine List.forall_mem_map.mpr fun handle inside => ?_
  obtain ⟨entry, found⟩ := coherent.exists_pair (within inside)
  rw [found, Option.isSome_some]

theorem Coherent.length_entries (coherent : Coherent tree order) {nodes : List Handle}
    (within : nodes ⊆ order) : (tree.entries nodes).length = nodes.length := by
  simpa using (congrArg List.length (coherent.map_pair?_eq within)).symm

/-- The size of a tree is the number of its entries. -/
theorem Coherent.size_eq (coherent : Coherent tree order) : tree.size = tree.toList.length := by
  rw [coherent.toList_eq, coherent.length_entries (List.Subset.refl _), coherent.size]

omit [Ord Key] in
/-- Entries depend on the nodes alone. -/
theorem entries_congr {other : SplayTree Key Value}
    (same : ∀ handle ∈ order, other.pair? handle = tree.pair? handle) :
    other.entries order = tree.entries order :=
  List.filterMap_congr same

omit [Ord Key] in
@[simp] theorem entries_append (tree : SplayTree Key Value) (before after : List Handle) :
    tree.entries (before ++ after) = tree.entries before ++ tree.entries after :=
  List.filterMap_append

omit [Ord Key] in
theorem entries_cons {handle : Handle} {entry : Key × Value}
    (found : tree.pair? handle = some entry) (rest : List Handle) :
    tree.entries (handle :: rest) = entry :: tree.entries rest := by
  simp [entries, found]

/-- Entries can be told apart by their keys as nodes can by the direction of a key. -/
theorem entries_filter (tree : SplayTree Key Value) (order : List Handle) (key : Key)
    (wanted : Ordering → Bool) :
    (tree.entries order).filter (fun entry => wanted (compare key entry.1)) =
      tree.entries (order.filter fun handle => wanted (tree.direction key handle)) := by
  rw [entries, entries, List.filter_filterMap, List.filterMap_filter]
  congr 1
  funext handle
  cases found : tree.slot? handle with
  | none => simp [pair?, found]
  | some slot => simp [pair?, found, direction_of_slot found, Option.filter]

/-- The outermost entry is that of the outermost node. -/
theorem Coherent.head?_orient_entries (coherent : Coherent tree order) (side : Side)
    {nodes : List Handle} (within : nodes ⊆ order) :
    (side.orient (tree.entries nodes)).head? = (side.orient nodes).head?.bind tree.pair? := by
  have oriented : side.orient (tree.entries nodes) = tree.entries (side.orient nodes) := by
    cases side <;> simp [Side.orient, entries, List.filterMap_reverse]
  rw [oriented]
  cases head : side.orient nodes with
  | nil => rfl
  | cons handle rest =>
    have inside : handle ∈ nodes := Side.mem_orient.mp (head ▸ List.mem_cons_self)
    obtain ⟨entry, found⟩ := coherent.exists_pair (within inside)
    simp [entries_cons found, found]

/-- The keys of the entries ascend. -/
theorem Coherent.ascending_entries (coherent : Coherent tree order) :
    (tree.entries order).Pairwise fun first second => compare first.1 second.1 = .lt := by
  refine List.pairwise_filterMap.mpr (coherent.ascending.imp ?_)
  intro first second precedes entry found other otherFound
  refine precedes.compare_keys ?_ ?_
  · rw [key?_eq_map_pair?, found, Option.map_some]
  · rw [key?_eq_map_pair?, otherFound, Option.map_some]

end JitTrace.SplayTree
