import JitTrace.CallTree.Basic
import JitTrace.Proofs.CallTree.LineTicks
import Mathlib.Algebra.BigOperators.Group.Finset.Basic
import Mathlib.Algebra.BigOperators.Group.Finset.Piecewise

/-!
# Weights of call trees

Growing a call tree leaves its weights alone, a recorded sample adds to one node,
and a moved sample goes from one node to another. Totals are passed to parents, and
parents come before their children, so the total of the root is the sum of all
weights.
-/

namespace JitTrace

namespace CallTree

/-- Every node but the root has a parent that was created before it, and what is found
under a label is a node of the tree. -/
structure Rooted (tree : CallTree) : Prop where
  nonempty : 0 < tree.size
  exists_parent : ∀ index, 0 < index → index < tree.size →
    ∃ parent, (tree.node index).parent = some parent ∧ parent < index
  found_lt : ∀ {parent label child}, tree.findChild? parent label = some child → child < tree.size

/-- The nodes after one of them has been changed. -/
theorem node_modifyNode (tree : CallTree) (index : NodeIndex) (change : CallNode → CallNode)
    (other : NodeIndex) :
    (tree.modifyNode index change).node other =
      if other = index ∧ index < tree.size then change (tree.node index) else tree.node other := by
  simp only [node, modifyNode, Array.getD_eq_getD_getElem?, Array.getElem?_modify, size]
  by_cases same : index = other
  · subst same
    by_cases inside : index < tree.nodes.size <;> simp [inside]
  · simp [same, Ne.symm same]

@[simp] theorem size_modifyNode (tree : CallTree) (index : NodeIndex)
    (change : CallNode → CallNode) : (tree.modifyNode index change).size = tree.size := by
  simp [modifyNode, size]

/-- What a change leaves alone in the node is left alone in the tree. -/
theorem read_modifyNode {Read : Type} (read : CallNode → Read) (change : CallNode → CallNode)
    (ignores : ∀ node, read (change node) = read node) (tree : CallTree) (index other : NodeIndex) :
    read ((tree.modifyNode index change).node other) = read (tree.node other) := by
  rw [node_modifyNode]
  split
  · simp [*]
  · rfl

/-- Trees with the same links are rooted alike. -/
theorem Rooted.congr {tree other : CallTree} (rooted : Rooted tree) (size : other.size = tree.size)
    (parent : ∀ index, (other.node index).parent = (tree.node index).parent)
    (byLabel : ∀ index, (other.node index).byLabel = (tree.node index).byLabel) :
    Rooted other where
  nonempty := size ▸ rooted.nonempty
  exists_parent index positive inside := by
    rw [parent]
    exact rooted.exists_parent index positive (size ▸ inside)
  found_lt {index label child} found := by
    rw [findChild?, byLabel] at found
    exact size ▸ rooted.found_lt found

/-- Changing a node other than in its links keeps a tree rooted. -/
theorem Rooted.modifyNode {tree : CallTree} (rooted : Rooted tree) (index : NodeIndex)
    (change : CallNode → CallNode) (parent : ∀ node, (change node).parent = node.parent)
    (byLabel : ∀ node, (change node).byLabel = node.byLabel) :
    Rooted (tree.modifyNode index change) :=
  rooted.congr (size_modifyNode ..) (read_modifyNode (·.parent) change parent tree index)
    (read_modifyNode (·.byLabel) change byLabel tree index)

/-! ## Samples -/

variable {tree : CallTree}

@[simp] theorem size_recordSample (tree : CallTree) (index : NodeIndex) (line : Option Nat) :
    (tree.recordSample index line).size = tree.size :=
  size_modifyNode ..

/-- A recorded sample adds to the weight of its node. -/
theorem selfWeight_recordSample {index : NodeIndex} (inside : index < tree.size)
    (line : Option Nat) (other : NodeIndex) :
    ((tree.recordSample index line).node other).selfWeight =
      (tree.node other).selfWeight + if other = index then 1 else 0 := by
  change ((tree.modifyNode index _).node other).selfWeight = _
  rw [node_modifyNode]
  by_cases same : other = index <;> simp [same, inside]

/-- A recorded sample adds to its line of its node. -/
theorem count_recordSample {index : NodeIndex} (inside : index < tree.size)
    (sorted : (tree.node index).lineTicks.Sorted) (line : Option Nat) (other : NodeIndex)
    (reader : Nat) :
    ((tree.recordSample index line).node other).lineTicks.count reader =
      (tree.node other).lineTicks.count reader +
        if other = index ∧ line = some reader then 1 else 0 := by
  change ((tree.modifyNode index _).node other).lineTicks.count reader = _
  rw [node_modifyNode]
  by_cases same : other = index
  · subst same
    cases line with
    | none => simp [inside]
    | some line =>
      simp only [inside, and_true, if_true, true_and, Option.some.injEq]
      rw [LineTicks.count_add sorted]
      simp [eq_comm]
  · simp [same]

theorem sorted_recordSample (sorted : ∀ index, (tree.node index).lineTicks.Sorted)
    (index : NodeIndex) (line : Option Nat) (other : NodeIndex) :
    ((tree.recordSample index line).node other).lineTicks.Sorted := by
  change ((tree.modifyNode index _).node other).lineTicks.Sorted
  rw [node_modifyNode]
  split
  · cases line with
    | none => exact sorted index
    | some line => exact LineTicks.sorted_add (sorted index) line 1
  · exact sorted other

/-- What does not depend on samples is left alone. -/
theorem read_recordSample {Read : Type} (read : CallNode → Read)
    (ignores : ∀ node weight ticks,
      read { node with selfWeight := weight, lineTicks := ticks } = read node)
    (tree : CallTree) (index : NodeIndex) (line : Option Nat) (other : NodeIndex) :
    read ((tree.recordSample index line).node other) = read (tree.node other) := by
  change read ((tree.modifyNode index _).node other) = _
  exact read_modifyNode read _ (fun node => ignores node _ _) tree index other

theorem Rooted.recordSample (rooted : Rooted tree) (index : NodeIndex) (line : Option Nat) :
    Rooted (tree.recordSample index line) :=
  rooted.congr (size_recordSample ..)
    (read_recordSample (·.parent) (fun _ _ _ => rfl) tree index line)
    (read_recordSample (·.byLabel) (fun _ _ _ => rfl) tree index line)

/-- The tree with a sample taken back. -/
def takeSample (tree : CallTree) (index : NodeIndex) (line : Option Nat) : CallTree :=
  tree.modifyNode index fun node =>
    { node with
      selfWeight := node.selfWeight - 1
      lineTicks := match line with
        | some line => LineTicks.remove line node.lineTicks
        | none => node.lineTicks }

theorem moveSample_eq (tree : CallTree) (source : NodeIndex) (sourceLine : Option Nat)
    (target : NodeIndex) (targetLine : Option Nat) :
    tree.moveSample source sourceLine target targetLine =
      (tree.takeSample source sourceLine).recordSample target targetLine := rfl

@[simp] theorem size_takeSample (tree : CallTree) (index : NodeIndex) (line : Option Nat) :
    (tree.takeSample index line).size = tree.size :=
  size_modifyNode ..

/-- A sample taken back takes from the weight of its node. -/
theorem selfWeight_takeSample {index : NodeIndex} (inside : index < tree.size)
    (line : Option Nat) (other : NodeIndex) :
    ((tree.takeSample index line).node other).selfWeight =
      (tree.node other).selfWeight - if other = index then 1 else 0 := by
  rw [takeSample, node_modifyNode]
  by_cases same : other = index <;> simp [same, inside]

/-- A sample taken back takes from its line of its node. -/
theorem count_takeSample {index : NodeIndex} (inside : index < tree.size)
    (sorted : (tree.node index).lineTicks.Sorted) (line : Option Nat) (other : NodeIndex)
    (reader : Nat) :
    ((tree.takeSample index line).node other).lineTicks.count reader =
      (tree.node other).lineTicks.count reader -
        if other = index ∧ line = some reader then 1 else 0 := by
  rw [takeSample, node_modifyNode]
  by_cases same : other = index
  · subst same
    cases line with
    | none => simp [inside]
    | some line =>
      simp only [inside, and_true, if_true, true_and, Option.some.injEq]
      rw [LineTicks.count_remove sorted]
      simp [eq_comm]
  · simp [same]

theorem sorted_takeSample (sorted : ∀ index, (tree.node index).lineTicks.Sorted)
    (index : NodeIndex) (line : Option Nat) (other : NodeIndex) :
    ((tree.takeSample index line).node other).lineTicks.Sorted := by
  rw [takeSample, node_modifyNode]
  split
  · cases line with
    | none => exact sorted index
    | some line => exact LineTicks.sorted_remove (sorted index) line
  · exact sorted other

theorem Rooted.takeSample (rooted : Rooted tree) (index : NodeIndex) (line : Option Nat) :
    Rooted (tree.takeSample index line) :=
  rooted.modifyNode index _ (fun _ => rfl) (fun _ => rfl)

/-! ## Growth -/

/-- A tree has grown when it has kept its nodes with their weights and has got new
ones without. -/
structure Grown (before after : CallTree) : Prop where
  rooted : Rooted after
  size_le : before.size ≤ after.size
  selfWeight : ∀ index, (after.node index).selfWeight = (before.node index).selfWeight
  lineTicks : ∀ index, (after.node index).lineTicks = (before.node index).lineTicks

theorem Grown.refl (rooted : Rooted tree) : Grown tree tree :=
  ⟨rooted, Nat.le_refl _, fun _ => rfl, fun _ => rfl⟩

theorem Grown.trans {before middle after : CallTree} (first : Grown before middle)
    (second : Grown middle after) : Grown before after :=
  ⟨second.rooted, Nat.le_trans first.size_le second.size_le,
    fun index => (second.selfWeight index).trans (first.selfWeight index),
    fun index => (second.lineTicks index).trans (first.lineTicks index)⟩

end CallTree

namespace GrowingTree

open CallTree (Grown Rooted)

variable {growing : GrowingTree}

/-- A tree of a root alone. -/
theorem rooted_start (label : String) (entry : Option CodeId) (ids : IdSupply) :
    Rooted (start label entry ids).tree := by
  refine ⟨Nat.one_pos, ?_, ?_⟩
  · intro index positive inside
    exact absurd inside (Nat.not_lt.mpr positive)
  · intro index sought child found
    have blank : ((start label entry ids).tree.node index).byLabel = [] := by
      cases index <;> rfl
    rw [CallTree.findChild?, blank] at found
    contradiction

/-- The nodes after one more has been created. -/
theorem node_push (tree : CallTree) (new : CallNode) (valid : Bool) (other : NodeIndex) :
    ({ nodes := tree.nodes.push new, totalsValid := valid } : CallTree).node other =
      if other = tree.size then new else tree.node other := by
  simp only [CallTree.node, Array.getD_eq_getD_getElem?, Array.getElem?_push, CallTree.size]
  split <;> simp

/-- The nodes after a child has been created. -/
theorem node_addChild {parent : NodeIndex} (inside : parent < growing.tree.size) (label : String)
    (entry : Option CodeId) (other : NodeIndex) :
    (growing.addChild parent label entry).2.tree.node other =
      if other = growing.tree.size then { id := growing.ids, label, entry, parent := some parent }
      else if other = parent then
        { growing.tree.node parent with
          children := (growing.tree.node parent).children.push growing.tree.size
          byLabel := (label, growing.tree.size) :: (growing.tree.node parent).byLabel }
      else growing.tree.node other := by
  let new : CallNode := { id := growing.ids, label, entry, parent := some parent }
  let pushed : CallTree := { nodes := growing.tree.nodes.push new, totalsValid := false }
  have size : pushed.size = growing.tree.size + 1 := by simp [CallTree.size, pushed]
  change (pushed.modifyNode parent _).node other = _
  rw [CallTree.node_modifyNode, node_push, node_push]
  have different : parent ≠ growing.tree.size := Nat.ne_of_lt inside
  by_cases isParent : other = parent
  · subst isParent
    simp [different, size, Nat.lt_succ_of_lt inside]
  · simp [isParent, new]

/-- A new child is found under its label below its parent, and all other children as
before. -/
theorem findChild?_addChild {parent : NodeIndex} (inside : parent < growing.tree.size)
    (label : String) (entry : Option CodeId) (other : NodeIndex) (sought : String) :
    (growing.addChild parent label entry).2.tree.findChild? other sought =
      if other = parent ∧ sought = label then some growing.tree.size
      else growing.tree.findChild? other sought := by
  have different : parent ≠ growing.tree.size := Nat.ne_of_lt inside
  have beyond : (growing.tree.node growing.tree.size).byLabel = [] := by
    simp [CallTree.node, CallTree.size, Array.getD_eq_getD_getElem?]
    rfl
  simp only [CallTree.findChild?, node_addChild inside]
  by_cases isNew : other = growing.tree.size
  · simp [isNew, different.symm, beyond]
  · by_cases isParent : other = parent
    · subst isParent
      by_cases same : sought = label
      · simp [isNew, same]
      · simp [isNew, same, List.lookup_cons, beq_eq_false_iff_ne.mpr same]
    · simp [isNew, isParent]

theorem size_addChild (growing : GrowingTree) (parent : NodeIndex) (label : String)
    (entry : Option CodeId) :
    (growing.addChild parent label entry).2.tree.size = growing.tree.size + 1 := by
  simp [addChild, CallTree.size]

/-- A new child is the last node of a grown tree. -/
theorem grown_addChild (rooted : Rooted growing.tree) {parent : NodeIndex}
    (inside : parent < growing.tree.size) (label : String) (entry : Option CodeId) :
    (growing.addChild parent label entry).1 < (growing.addChild parent label entry).2.tree.size ∧
      Grown growing.tree (growing.addChild parent label entry).2.tree := by
  have nodes := node_addChild inside label entry
  have size := size_addChild growing parent label entry
  have index : (growing.addChild parent label entry).1 = growing.tree.size := rfl
  have beyond : growing.tree.node growing.tree.size = default := by
    simp [CallTree.node, CallTree.size, Array.getD_eq_getD_getElem?]
  have samples : ∀ other, (((growing.addChild parent label entry).2.tree.node other).selfWeight,
      ((growing.addChild parent label entry).2.tree.node other).lineTicks) =
        ((growing.tree.node other).selfWeight, (growing.tree.node other).lineTicks) := by
    intro other
    rw [nodes]
    split
    · rename_i isNew
      rw [isNew, beyond]
      rfl
    · split <;> simp [*]
  rw [index, size]
  refine ⟨Nat.lt_succ_self _, ⟨?_, ?_, ?_⟩, size ▸ Nat.le_succ _,
    fun other => congrArg Prod.fst (samples other), fun other => congrArg Prod.snd (samples other)⟩
  · exact size ▸ Nat.succ_pos _
  · intro other positive within
    rw [size] at within
    rw [nodes]
    by_cases isNew : other = growing.tree.size
    · exact ⟨parent, by rw [if_pos isNew], isNew ▸ inside⟩
    · obtain ⟨above, isParent, below⟩ := rooted.exists_parent other positive
        (Nat.lt_of_le_of_ne (Nat.le_of_lt_succ within) isNew)
      refine ⟨above, ?_, below⟩
      rw [if_neg isNew, ← isParent]
      split <;> simp [*]
  · intro other sought child found
    rw [size]
    rw [findChild?_addChild inside] at found
    split at found
    · exact Option.some.inj found ▸ Nat.lt_succ_self _
    · exact Nat.lt_succ_of_lt (rooted.found_lt found)

/-- Following a path ends at a node of a grown tree. -/
theorem grown_addPathFrom (rooted : Rooted growing.tree) {start : NodeIndex}
    (inside : start < growing.tree.size) (path : List (String × Option CodeId)) :
    (growing.addPathFrom start path).1 < (growing.addPathFrom start path).2.tree.size ∧
      Grown growing.tree (growing.addPathFrom start path).2.tree := by
  induction path generalizing growing start with
  | nil => exact ⟨inside, .refl rooted⟩
  | cons step path inductionHypothesis =>
    obtain ⟨label, entry⟩ := step
    simp only [addPathFrom, findOrAddChild]
    cases found : growing.tree.findChild? start label with
    | some child =>
      exact inductionHypothesis rooted
        (rooted.found_lt found)
    | none =>
      obtain ⟨childInside, grown⟩ := grown_addChild rooted inside label entry
      obtain ⟨last, further⟩ := inductionHypothesis grown.rooted childInside
      exact ⟨last, grown.trans further⟩

end GrowingTree

end JitTrace
