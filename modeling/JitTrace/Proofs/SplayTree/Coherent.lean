import JitTrace.Proofs.SplayTree.SearchTree
import JitTrace.Proofs.SplayTree.Thread

/-!
# Coherent splay trees

The invariant of a splay tree: child links, thread, keys, size and free list all
tell of the same nodes in the same order. `Coherent` states it over that order, and
this module shows what a splay, and with it every lookup, does to a coherent tree.
-/

namespace JitTrace.SplayTree

variable {Key Value : Type} [Ord Key]

/-- All links of a tree tell of the same live nodes, listed in key order. -/
structure Coherent (tree : SplayTree Key Value) (order : List Handle) : Prop where
  /-- The child links below the root spell out a binary tree of the nodes. -/
  linked : ∃ shape : Shape, shape.handles = order ∧ Linked tree.child? shape tree.root
  live : ∀ handle, (tree.slot? handle).isSome ↔ handle ∈ order
  ascending : order.Pairwise tree.Precedes
  /-- The thread passes through the nodes in order, towards either side. -/
  threaded : ∀ side, Leads (tree.beside? side) (tree.entrance side) (side.orient order) none
  size : tree.size = order.length
  freeList : FreeList tree

/-- The tree without entries is coherent. -/
theorem coherent_empty : Coherent (empty : SplayTree Key Value) [] where
  linked := ⟨.leaf, rfl, rfl⟩
  live := by simp [SplayTree.slot?, empty]
  ascending := .nil
  threaded side := by cases side <;> rfl
  size := rfl
  freeList := ⟨List.nodup_nil, by simp [empty]⟩

namespace Coherent

variable {tree : SplayTree Key Value} {order : List Handle}

/-- There are no more nodes than slots. -/
theorem length_le (coherent : Coherent tree order) (distinct : order.Nodup) :
    order.length ≤ tree.slots.size :=
  length_le_of_live (fun handle => (coherent.live handle).mpr) distinct

/-- A coherent tree has a root exactly when it has nodes. -/
theorem root_eq_none_iff (coherent : Coherent tree order) : tree.root = none ↔ order = [] := by
  obtain ⟨shape, handles, linked⟩ := coherent.linked
  constructor
  · intro empty
    rw [empty] at linked
    rw [← handles, linked.eq_leaf]
    rfl
  · rintro rfl
    cases shape with
    | leaf => exact linked
    | node left handle right => simp [Shape.handles] at handles

/-- A rearrangement that spells out the same nodes is coherent. -/
theorem rearranged {after : SplayTree Key Value} (coherent : Coherent tree order)
    (same : Rearranged tree after)
    (linked : ∃ shape : Shape, shape.handles = order ∧ Linked after.child? shape after.root) :
    Coherent after order where
  linked := linked
  live handle := by rw [same.live, coherent.live]
  ascending := coherent.ascending.imp fun precedes => precedes.rearranged same
  threaded side := by
    rw [same.beside?, same.entrance]
    exact coherent.threaded side
  size := same.size.trans coherent.size
  freeList := same.freeList coherent.freeList

variable [Std.TransOrd Key]

/-- No node is listed twice. -/
theorem distinct (coherent : Coherent tree order) : order.Nodup :=
  nodup_of_ascending coherent.ascending

/-- Any key can be searched for in a coherent tree. -/
theorem searchable (coherent : Coherent tree order) (key : Key) : Searchable tree key order :=
  searchable_of_ascending (fun handle => (coherent.live handle).mpr) coherent.ascending key

end Coherent

/-- What a splay leaves behind: a rearrangement with a root between the smaller and
the greater keys. -/
structure Splayed (tree : SplayTree Key Value) (key : Key) (left : Shape) (root : Handle)
    (right : Shape) (splayed : SplayTree Key Value) : Prop where
  rearranged : Rearranged tree splayed
  isRoot : splayed.root = some root
  linked : Linked splayed.child? (.node left root right) (some root)
  separates : Separates tree key left right

variable [Std.TransOrd Key] {tree : SplayTree Key Value} {order : List Handle}

/-- A splay of a coherent tree with nodes succeeds and leaves it coherent. -/
theorem Coherent.exists_trySplay (coherent : Coherent tree order) (key : Key)
    (nonempty : order ≠ []) :
    ∃ splayed left root right, tree.trySplay key = some splayed ∧
      Splayed tree key left root right splayed ∧
      left.handles ++ root :: right.handles = order ∧ Coherent splayed order := by
  obtain ⟨shape, rfl, linked⟩ := coherent.linked
  obtain ⟨splayed, left, root, right, splays, same, rootIs, rootLinked, inOrder, separates, -⟩ :=
    SplayTree.exists_trySplay (coherent.searchable key) linked
      (fun isLeaf => nonempty (by simp [isLeaf])) (coherent.length_le coherent.distinct)
  refine ⟨splayed, left, root, right, splays, ⟨same, rootIs, rootLinked, separates⟩, inOrder, ?_⟩
  exact coherent.rearranged same ⟨.node left root right, inOrder, rootIs ▸ rootLinked⟩

omit [Std.TransOrd Key] in
/-- A splay of a tree without nodes does nothing. -/
theorem Coherent.trySplay_nil (coherent : Coherent tree []) (key : Key) :
    tree.trySplay key = some tree := by
  simp [trySplay, coherent.root_eq_none_iff.mpr rfl]

end JitTrace.SplayTree
