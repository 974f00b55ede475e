import JitTrace.Proofs.SplayTree.Contents

/-!
# Runs of splay tree operations

What every tree that operations can build looks like. One operation keeps a tree
coherent and succeeds on it, so a run from the empty tree never follows a link to a
vacated slot, never vacates a slot twice and never descends without end.
-/

namespace JitTrace.SplayTree

/-- An operation on a tree. Removing a key gives its entry, of which a caller may want
the value alone, and finding one also tells whether it is present. -/
inductive Operation (Key Value : Type) where
  | insert (key : Key) (value : Value)
  | remove (key : Key)
  | find (key : Key)
  | get (key : Key)
  | modify (key : Key) (change : Value → Value)
  | greatestBelow (key : Key)
  | greatestAtMost (key : Key)
  | leastAbove (key : Key)
  | retain {State : Type} (visit : State → Key → Value → Bool × Value × State) (state : State)
  | clear

variable {Key Value : Type} [Ord Key]

/-- The tree after an operation. -/
def Operation.tryPerform (tree : SplayTree Key Value) :
    Operation Key Value → Option (SplayTree Key Value)
  | .insert key value => (tree.tryInsert key value).map (·.2)
  | .remove key => (tree.tryRemove key).map (·.2)
  | .find key => (tree.tryFind key).map (·.2)
  | .get key => (tree.tryGet key).map (·.2)
  | .modify key change => (tree.tryChange key change).map (·.2)
  | .greatestBelow key => (tree.tryNearest key (·.isLT) .left).map (·.2)
  | .greatestAtMost key => (tree.tryNearest key (·.isLE) .left).map (·.2)
  | .leastAbove key => (tree.tryNearest key (·.isGT) .right).map (·.2)
  | .retain visit state => (tree.tryRetain visit state).map (·.2)
  | .clear => some empty

/-- The entries after an operation, in key order. -/
def Operation.onEntries (entries : List (Key × Value)) : Operation Key Value → List (Key × Value)
  | .insert key value => inserted key value entries
  | .remove key => removed key entries
  | .find _ | .get _ | .greatestBelow _ | .greatestAtMost _ | .leastAbove _ => entries
  | .modify key change => changed key change entries
  | .retain visit state => (retained visit state entries).2
  | .clear => []

/-- The tree after operations in a row. -/
def tryRun (tree : SplayTree Key Value) (operations : List (Operation Key Value)) :
    Option (SplayTree Key Value) :=
  operations.foldlM Operation.tryPerform tree

/-- What is true of every tree in use. -/
structure Sound (tree : SplayTree Key Value) (shape : Shape) : Prop where
  /-- The child links from the root spell out a binary tree. -/
  linked : Linked tree.child? shape tree.root
  /-- It passes through no node twice. -/
  distinct : shape.handles.Nodup
  /-- It passes through the live slots. -/
  live : ∀ handle, (tree.slot? handle).isSome ↔ handle ∈ shape.handles
  /-- Its keys ascend from left to right. -/
  ascending : (shape.handles.filterMap tree.key?).Pairwise fun first second =>
    compare first second = .lt
  /-- The thread passes through the same nodes from first to last. -/
  forward : Leads tree.next? tree.first shape.handles none
  /-- And from last to first. -/
  backward : Leads tree.previous? tree.last shape.handles.reverse none
  size : tree.size = shape.handles.length
  /-- The free list names the slots that are not live. -/
  vacant : ∀ handle, handle ∈ tree.free ↔ handle < tree.slots.size ∧ tree.slot? handle = none
  /-- It names none of them twice. -/
  vacantOnce : tree.free.Nodup

variable {tree : SplayTree Key Value} {order : List Handle}

/-- The keys of a coherent tree ascend. -/
theorem Coherent.ascending_keys (coherent : Coherent tree order) :
    (order.filterMap tree.key?).Pairwise fun first second => compare first second = .lt := by
  refine List.pairwise_filterMap.mpr (coherent.ascending.imp ?_)
  intro first second precedes key found other otherFound
  exact precedes.compare_keys found otherFound

variable [Std.TransOrd Key]

/-- A coherent tree is sound. -/
theorem Coherent.exists_sound (coherent : Coherent tree order) : ∃ shape, Sound tree shape := by
  obtain ⟨shape, rfl, linked⟩ := coherent.linked
  exact ⟨shape, linked, coherent.distinct, coherent.live, coherent.ascending_keys,
    coherent.threaded .right, coherent.threaded .left, coherent.size, coherent.freeList.mem_iff,
    coherent.freeList.distinct⟩

/-- An operation leaves in a valid tree what it leaves of its entries. -/
theorem Valid.exists_tryPerform (valid : Valid tree) (operation : Operation Key Value) :
    ∃ after, operation.tryPerform tree = some after ∧ Valid after ∧
      after.toList = operation.onEntries tree.toList := by
  cases operation with
  | insert key value =>
    obtain ⟨after, inserts, rest⟩ := valid.exists_tryInsert key value
    exact ⟨after, by rw [Operation.tryPerform, inserts]; rfl, rest⟩
  | remove key =>
    obtain ⟨after, removes, rest⟩ := valid.exists_tryRemove key
    exact ⟨after, by rw [Operation.tryPerform, removes]; rfl, rest⟩
  | find key =>
    obtain ⟨_, after, finds, -, afterValid, same, -⟩ := valid.exists_tryFind key
    exact ⟨after, by rw [Operation.tryPerform, finds]; rfl, afterValid, same⟩
  | get key =>
    obtain ⟨after, gets, rest⟩ := valid.exists_tryGet key
    exact ⟨after, by rw [Operation.tryPerform, gets]; rfl, rest⟩
  | modify key change =>
    obtain ⟨after, changes, rest⟩ := valid.exists_tryChange key change
    exact ⟨after, by rw [Operation.tryPerform, changes]; rfl, rest⟩
  | greatestBelow key =>
    obtain ⟨_, after, finds, -, afterValid, same, -⟩ :=
      valid.exists_tryNearest key (·.isLT) .left rfl rfl
    exact ⟨after, by rw [Operation.tryPerform, finds]; rfl, afterValid, same⟩
  | greatestAtMost key =>
    obtain ⟨_, after, finds, -, afterValid, same, -⟩ :=
      valid.exists_tryNearest key (·.isLE) .left rfl rfl
    exact ⟨after, by rw [Operation.tryPerform, finds]; rfl, afterValid, same⟩
  | leastAbove key =>
    obtain ⟨_, after, finds, -, afterValid, same, -⟩ :=
      valid.exists_tryNearest key (·.isGT) .right rfl rfl
    exact ⟨after, by rw [Operation.tryPerform, finds]; rfl, afterValid, same⟩
  | retain visit state =>
    obtain ⟨after, retains, rest⟩ := valid.exists_tryRetain visit state
    exact ⟨after, by rw [Operation.tryPerform, retains]; rfl, rest⟩
  | clear => exact ⟨empty, rfl, valid_empty, toList_empty⟩

/-- An operation on a coherent tree succeeds and leaves a coherent tree. -/
theorem Coherent.exists_tryPerform (coherent : Coherent tree order)
    (operation : Operation Key Value) :
    ∃ after order, operation.tryPerform tree = some after ∧ Coherent after order := by
  obtain ⟨after, performs, ⟨kept, afterCoherent⟩, -⟩ :=
    Valid.exists_tryPerform ⟨order, coherent⟩ operation
  exact ⟨after, kept, performs, afterCoherent⟩

/-- Operations in a row on a coherent tree succeed and leave a coherent tree. -/
theorem Coherent.exists_tryRun (operations : List (Operation Key Value))
    (coherent : Coherent tree order) :
    ∃ after order, tree.tryRun operations = some after ∧ Coherent after order := by
  induction operations generalizing tree order with
  | nil => exact ⟨tree, order, rfl, coherent⟩
  | cons operation operations inductionHypothesis =>
    obtain ⟨between, middle, performs, betweenCoherent⟩ := coherent.exists_tryPerform operation
    obtain ⟨after, last, runs, afterCoherent⟩ := inductionHypothesis betweenCoherent
    refine ⟨after, last, ?_, afterCoherent⟩
    rw [tryRun] at runs
    simp [tryRun, performs, runs]

/-- Whatever operations are performed on an empty tree, each of them succeeds, and the
tree is sound in the end. -/
theorem exists_sound_of_tryRun (operations : List (Operation Key Value)) :
    ∃ tree shape, (empty : SplayTree Key Value).tryRun operations = some tree ∧
      Sound tree shape := by
  obtain ⟨tree, order, runs, coherent⟩ := coherent_empty.exists_tryRun operations
  obtain ⟨shape, sound⟩ := coherent.exists_sound
  exact ⟨tree, shape, runs, sound⟩

/-- A run that removes the root while both of its subtrees have nodes, and reuses its
slot. -/
theorem exists_sound_of_reusing_run :
    Std.TransOrd Nat ∧
      ∃ tree shape, (empty : SplayTree Nat Bool).tryRun
        [.insert 4 true, .insert 2 true, .insert 6 false, .remove 4, .insert 5 true] = some tree ∧
        Sound tree shape :=
  ⟨inferInstance, exists_sound_of_tryRun _⟩

end JitTrace.SplayTree
