import JitTrace.Proofs.SplayTree.Run

/-!
# Splay trees as sorted maps

To its callers a splay tree is a plain sorted map, which is the list of its entries in
key order. The same calls, made on a tree and on such a list, leave the same entries, and
whatever the tree is asked next, it answers as the list does.
-/

namespace JitTrace.SplayTree

variable {Key Value : Type} [Ord Key]

/-- The entry of a sorted map with the greatest key below a key. -/
def predecessor? (key : Key) (map : List (Key × Value)) : Option (Key × Value) :=
  (map.filter fun entry => (compare entry.1 key).isLT).getLast?

/-- The entry of a sorted map with the greatest key not above a key. -/
def floor? (key : Key) (map : List (Key × Value)) : Option (Key × Value) :=
  (map.filter fun entry => (compare entry.1 key).isLE).getLast?

/-- The entry of a sorted map with the least key above a key. -/
def successor? (key : Key) (map : List (Key × Value)) : Option (Key × Value) :=
  (map.filter fun entry => (compare entry.1 key).isGT).head?

/-- What a caller does with a tree: an operation, or a change of the value behind the
handle of a key, which leaves the links alone. -/
inductive Call (Key Value : Type) where
  | perform (operation : Operation Key Value)
  | assign (key : Key) (change : Value → Value)

/-- The tree after a call. -/
def Call.tryPerform (tree : SplayTree Key Value) : Call Key Value → Option (SplayTree Key Value)
  | .perform operation => operation.tryPerform tree
  | .assign key change => do
    match ← tree.tryPeekFrom key tree.slots.size tree.root with
    | none => return tree
    | some handle => tree.tryModify handle fun slot => { slot with value := change slot.value }

/-- The sorted map after a call. -/
def Call.onMap (map : List (Key × Value)) : Call Key Value → List (Key × Value)
  | .perform operation => operation.onEntries map
  | .assign key change => changed key change map

/-- A tree answers as a sorted map. Where a lookup gives a handle, it leads to the entry
that the map has there, and none is given where the map has no entry. -/
structure Agrees (tree : SplayTree Key Value) (map : List (Key × Value)) : Prop where
  contents : tree.toList = map
  ascending : map.Pairwise fun first second => compare first.1 second.1 = .lt
  /-- A key that is present is not inserted again, and keeps its value. -/
  insert : ∀ key value, ∃ after,
    tree.tryInsert key value = some ((found? key map).isNone, after) ∧
      after.toList = inserted key value map
  remove : ∀ key, ∃ after, tree.tryRemove key = some (found? key map, after) ∧
    after.toList = removed key map
  /-- A search that rearranges the tree ends at the same node as one that does not. -/
  find : ∀ key, ∃ handle? after, tree.tryFind key = some (handle?, after) ∧
    tree.tryPeekFrom key tree.slots.size tree.root = some handle? ∧
    handle?.map tree.pair? = (found? key map).map some ∧
    handle?.map after.pair? = (found? key map).map some ∧ after.toList = map
  contains : ∀ key, ∃ after, tree.contains key = ((found? key map).isSome, after) ∧
    after.toList = map
  get : ∀ key, ∃ after, tree.tryGet key = some ((found? key map).map (·.2), after) ∧
    after.toList = map
  modify : ∀ key change, ∃ after,
    tree.tryChange key change = some ((found? key map).map (·.2), after) ∧
      after.toList = changed key change map
  greatestBelow : ∀ key, ∃ handle? after,
    tree.tryNearest key (·.isLT) .left = some (handle?, after) ∧
      handle?.map after.pair? = (predecessor? key map).map some ∧ after.toList = map
  /-- This lookup, too, can do without rearranging. -/
  greatestAtMost : ∀ key, ∃ handle? after,
    tree.tryNearest key (·.isLE) .left = some (handle?, after) ∧
      tree.tryPeekAtMostFrom key tree.slots.size tree.root none = some handle? ∧
      handle?.map tree.pair? = (floor? key map).map some ∧
      handle?.map after.pair? = (floor? key map).map some ∧ after.toList = map
  leastAbove : ∀ key, ∃ handle? after,
    tree.tryNearest key (·.isGT) .right = some (handle?, after) ∧
      handle?.map after.pair? = (successor? key map).map some ∧ after.toList = map

theorem nearest?_isLT (key : Key) (map : List (Key × Value)) :
    nearest? key (·.isLT) .left map = predecessor? key map :=
  List.head?_reverse

theorem nearest?_isLE (key : Key) (map : List (Key × Value)) :
    nearest? key (·.isLE) .left map = floor? key map :=
  List.head?_reverse

namespace Valid

variable [Std.TransOrd Key] {tree : SplayTree Key Value}

/-- A valid tree answers as the sorted map of its entries. -/
theorem agrees (valid : Valid tree) : Agrees tree tree.toList where
  contents := rfl
  ascending := valid.ascending
  insert key value := by
    obtain ⟨after, inserts, -, contents⟩ := valid.exists_tryInsert key value
    exact ⟨after, inserts, contents⟩
  remove key := by
    obtain ⟨after, removes, -, contents⟩ := valid.exists_tryRemove key
    exact ⟨after, removes, contents⟩
  find key := by
    obtain ⟨handle?, after, finds, same, -, contents, leads⟩ := valid.exists_tryFind key
    refine ⟨handle?, after, finds, ?_, same.pair? ▸ leads, leads, contents⟩
    rw [valid.tryPeek_eq, finds]
    rfl
  contains key := by
    obtain ⟨handle?, after, finds, -, -, contents, leads⟩ := valid.exists_tryFind key
    refine ⟨after, ?_, contents⟩
    have present := congrArg Option.isSome leads
    rw [Option.isSome_map, Option.isSome_map] at present
    rw [SplayTree.contains, SplayTree.find, finds]
    exact congrArg (·, after) present
  get key := by
    obtain ⟨after, gets, -, contents⟩ := valid.exists_tryGet key
    exact ⟨after, gets, contents⟩
  modify key change := by
    obtain ⟨after, changes, -, contents⟩ := valid.exists_tryChange key change
    exact ⟨after, changes, contents⟩
  greatestBelow key := by
    obtain ⟨handle?, after, finds, -, -, contents, leads⟩ :=
      valid.exists_tryNearest key (·.isLT) .left rfl rfl
    exact ⟨handle?, after, finds, nearest?_isLT key _ ▸ leads, contents⟩
  greatestAtMost key := by
    obtain ⟨handle?, after, finds, same, -, contents, leads⟩ :=
      valid.exists_tryNearest key (·.isLE) .left rfl rfl
    rw [nearest?_isLE] at leads
    refine ⟨handle?, after, finds, ?_, same.pair? ▸ leads, leads, contents⟩
    rw [valid.tryPeekAtMost_eq, finds]
    rfl
  leastAbove key := by
    obtain ⟨handle?, after, finds, -, -, contents, leads⟩ :=
      valid.exists_tryNearest key (·.isGT) .right rfl rfl
    exact ⟨handle?, after, finds, leads, contents⟩

end Valid

/-- A call leaves in a valid tree what it leaves in the sorted map of its entries. -/
theorem Valid.exists_call [Std.TransOrd Key] {tree : SplayTree Key Value} (valid : Valid tree)
    (call : Call Key Value) :
    ∃ after, call.tryPerform tree = some after ∧ Valid after ∧
      after.toList = call.onMap tree.toList := by
  cases call with
  | perform operation => exact valid.exists_tryPerform operation
  | assign key change =>
    obtain ⟨order, coherent⟩ := valid
    cases found : order.find? fun handle => tree.direction key handle == .eq with
    | none =>
      refine ⟨tree, by simp [Call.tryPerform, coherent.tryPeek_eq, found], ⟨order, coherent⟩, ?_⟩
      rw [coherent.toList_eq]
      exact coherent.entries_changed (by simp [found])
    | some handle =>
      have live := (coherent.live handle).mpr (List.mem_of_find?_eq_some found)
      have afterCoherent := coherent.revalue handle change
      refine ⟨tree.revalue handle change, ?_, ⟨order, afterCoherent⟩, ?_⟩
      · simp [Call.tryPerform, coherent.tryPeek_eq, found, tryModify_of_live live, revalue]
      · rw [afterCoherent.toList_eq, coherent.toList_eq]
        refine coherent.entries_changed fun other => ?_
        rw [pair?_revalue, found]
        simp only [Option.some.injEq, eq_comm]

/-- Whatever calls are made on an empty tree and on an empty sorted map, every call succeeds
on the tree, and the tree answers as the map does in the end. -/
theorem exists_agrees_of_calls [Std.TransOrd Key] (calls : List (Call Key Value)) :
    ∃ tree, calls.foldlM Call.tryPerform (empty : SplayTree Key Value) = some tree ∧
      Agrees tree (calls.foldl Call.onMap []) := by
  suffices ∀ tree : SplayTree Key Value, Valid tree →
      ∃ after, calls.foldlM Call.tryPerform tree = some after ∧
        Agrees after (calls.foldl Call.onMap tree.toList) from this empty valid_empty
  induction calls with
  | nil => exact fun tree valid => ⟨tree, rfl, valid.agrees⟩
  | cons call calls inductionHypothesis =>
    intro tree valid
    obtain ⟨between, performs, betweenValid, contents⟩ := valid.exists_call call
    obtain ⟨after, runs, agrees⟩ := inductionHypothesis between betweenValid
    refine ⟨after, by simp [performs, runs], ?_⟩
    rw [List.foldl_cons, ← contents]
    exact agrees

/-- A run that searches for an absent key, changes a value behind a handle, and removes the
root while both of its subtrees have nodes. -/
theorem exists_agrees_of_mixed_calls :
    Std.TransOrd Nat ∧
      ∃ tree, [Call.perform (.insert 4 10), .perform (.insert 2 20), .perform (.insert 6 30),
          .perform (.greatestBelow 5), .assign 6 (· + 1), .perform (.remove 4)].foldlM
            Call.tryPerform (empty : SplayTree Nat Nat) = some tree ∧
        Agrees tree [(2, 20), (6, 31)] :=
  ⟨inferInstance, exists_agrees_of_calls _⟩

end JitTrace.SplayTree
