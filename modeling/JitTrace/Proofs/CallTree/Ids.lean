import JitTrace.Proofs.CallTree.Links

/-!
# Ids of call tree nodes

The trees of a lineage number their nodes through, in the order in which nodes are created
in any of them, and the id of a node is its number as a 32-bit word. The numbers of one
tree therefore ascend, with gaps where the other trees drew. As long as the numbers fit,
no two nodes have one id.
-/

namespace JitTrace

namespace CallTree

/-- The ids of the nodes in order of creation. -/
def ids (tree : CallTree) : List UInt32 :=
  (List.range tree.size).map fun index => (tree.node index).id

theorem ids_eq (tree : CallTree) : tree.ids = tree.nodes.toList.map CallNode.id := by
  refine List.ext_getElem (by simp [ids, size]) fun index _ inside => ?_
  have within : index < tree.nodes.size := by simpa using inside
  simp [ids, node, Array.getD_eq_getD_getElem?, within]

@[simp] theorem length_ids (tree : CallTree) : tree.ids.length = tree.size := by
  simp [ids]

theorem ids_modifyNode (tree : CallTree) (index : NodeIndex) {change : CallNode → CallNode}
    (same : ∀ node, (change node).id = node.id) :
    (tree.modifyNode index change).ids = tree.ids := by
  simp only [ids, size_modifyNode, read_modifyNode CallNode.id change same]

theorem Reweighted.ids {before after : CallTree} (same : Reweighted before after) :
    after.ids = before.ids := by
  simp only [CallTree.ids, same.size, same.id]

end CallTree

namespace GrowingTree

open CallTree (Reweighted)

theorem ids_addChild (growing : GrowingTree) (parent : NodeIndex) (label : String)
    (entry : Option CodeId) : (growing.addChild parent label entry).2.tree.ids =
      growing.tree.ids ++ [growing.ids] := by
  refine (CallTree.ids_modifyNode ⟨growing.tree.nodes.push _, false⟩ parent ?_).trans ?_
  · exact fun _ => rfl
  · simp [CallTree.ids_eq]

/-- The nodes have drawn their ids from a supply that numbers nodes from one on, of which
`others` belong to other trees. -/
structure Numbered (growing : GrowingTree) (others : Nat) : Prop where
  supply : growing.ids = .ofNat (1 + growing.tree.size + others)
  exists_numbers : ∃ numbers : List Nat, numbers.Pairwise (· < ·) ∧
    (∀ number ∈ numbers, 0 < number ∧ number < 1 + growing.tree.size + others) ∧
    growing.tree.ids = numbers.map .ofNat

theorem numbered_fresh (label : String) (entry : Option CodeId) :
    Numbered (fresh label entry) 0 :=
  ⟨rfl, [1], List.pairwise_singleton .., by simp [fresh, start, CallTree.size], rfl⟩

namespace Numbered

variable {growing : GrowingTree} {others : Nat}

/-- Other weights are no matter. -/
theorem reweighted (numbered : Numbered growing others) {tree : CallTree}
    (same : Reweighted growing.tree tree) : Numbered { growing with tree } others where
  supply := same.size ▸ numbered.supply
  exists_numbers := same.size ▸ same.ids ▸ numbered.exists_numbers

/-- Another tree draws ids. -/
theorem draw (numbered : Numbered growing others) (count : Nat) :
    Numbered { growing with ids := growing.ids + .ofNat count } (others + count) := by
  obtain ⟨numbers, ascending, within, ids⟩ := numbered.exists_numbers
  refine ⟨?_, numbers, ascending, fun number inside => ?_, ids⟩
  · rw [numbered.supply, ← UInt32.ofNat_add, Nat.add_assoc _ others]
  · obtain ⟨positive, below⟩ := within number inside
    exact ⟨positive, Nat.lt_of_lt_of_le below (Nat.add_le_add_left (Nat.le_add_right ..) _)⟩

/-- A new child gets the next number. -/
theorem addChild (numbered : Numbered growing others) (parent : NodeIndex) (label : String)
    (entry : Option CodeId) : Numbered (growing.addChild parent label entry).2 others := by
  obtain ⟨numbers, ascending, within, ids⟩ := numbered.exists_numbers
  have size := size_addChild growing parent label entry
  refine ⟨?_, numbers ++ [1 + growing.tree.size + others], ?_, ?_, ?_⟩
  · rw [size]
    change growing.ids + .ofNat 1 = _
    rw [numbered.supply, ← UInt32.ofNat_add]
    congr 1
    omega
  · rw [List.pairwise_append]
    refine ⟨ascending, List.pairwise_singleton .., fun number old new isNew => ?_⟩
    rw [List.mem_singleton.mp isNew]
    exact (within number old).2
  · intro number listed
    rw [size]
    rcases List.mem_append.mp listed with old | isNew
    · obtain ⟨positive, below⟩ := within number old
      exact ⟨positive, by omega⟩
    · rw [List.mem_singleton.mp isNew]
      omega
  · rw [ids_addChild, ids, numbered.supply, List.map_append, List.map_singleton]

/-- As long as the supply has not run out, ids are distinct. -/
theorem nodup_ids (numbered : Numbered growing others)
    (enough : growing.tree.size + others ≤ 2 ^ 32) : growing.tree.ids.Nodup := by
  obtain ⟨numbers, ascending, within, ids⟩ := numbered.exists_numbers
  rw [ids]
  refine List.Nodup.map_on ?_ (ascending.imp Nat.ne_of_lt)
  intro first inFirst second inSecond same
  have firstWithin := within first inFirst
  have secondWithin := within second inSecond
  have words := congrArg UInt32.toNat same
  rw [UInt32.toNat_ofNat', UInt32.toNat_ofNat'] at words
  omega

end Numbered

end GrowingTree

end JitTrace
