import JitTrace.CallTree.Derived
import JitTrace.Proofs.CallTree.Trie

/-!
# Links of derived trees

Every derived tree is built the way samples build a tree: from a root alone, by following
labels and creating nodes where there are none. Its weights are then set directly, which
its links do not depend on. So derived trees are tries too, whatever tree they are
derived from.
-/

namespace JitTrace

namespace CallTree

/-! ## Breadth-first walks -/

section Walk

variable {State Passed : Type} {visit : State → NodeIndex → Option Passed → State × Option Passed}

/-- A walk keeps what every visit keeps, as long as what a visit passes on fits the state it
leaves and goes on fitting while other nodes are visited. -/
theorem breadthFirst_keeps (tree : CallTree) (holds : State → Prop)
    (fits : State → Passed → Prop)
    (keeps : ∀ {state} index (passed : Option Passed), holds state →
      (∀ value ∈ passed, fits state value) → holds (visit state index passed).1 ∧
        (∀ value ∈ (visit state index passed).2, fits (visit state index passed).1 value) ∧
        ∀ {value}, fits state value → fits (visit state index passed).1 value)
    {state : State} (initial : holds state) : holds (tree.breadthFirst visit state) := by
  suffices ∀ steps (pending : List (NodeIndex × Option Passed)) {state}, holds state →
      (∀ next ∈ pending, ∀ value ∈ next.2, fits state value) →
        holds (tree.runQueue visit steps pending state)
    from this tree.size [(0, none)] initial (by simp)
  intro steps
  induction steps with
  | zero => exact fun _ _ held _ => held
  | succ steps inductionHypothesis =>
    intro pending state held fitting
    match pending with
    | [] => exact held
    | (index, passed) :: pending =>
      obtain ⟨kept, passesOn, goesOn⟩ :=
        keeps index passed held (fitting _ List.mem_cons_self)
      refine inductionHypothesis _ kept fun next queued value isValue => ?_
      rcases List.mem_append.mp queued with waiting | isChild
      · exact goesOn (fitting next (List.mem_cons_of_mem _ waiting) value isValue)
      · obtain ⟨child, -, rfl⟩ := List.mem_map.mp isChild
        exact passesOn value isValue

end Walk

/-! ## Subtrees -/

theorem Reweighted.absorb (tree : CallTree) (index : NodeIndex) (node : CallNode) :
    Reweighted tree (tree.modifyNode index (CallTree.absorb node)) :=
  .modifyNode tree index _ fun _ => rfl

/-- A copied node is a node of a trie, and so is the copy of every earlier one. -/
theorem trie_copyNode {growing : GrowingTree} (trie : growing.tree.Trie) (tree : CallTree)
    (label : String) (index : NodeIndex) (parent : Option NodeIndex)
    (inside : ∀ copy ∈ parent, copy < growing.tree.size) :
    (tree.copyNode label growing index parent).1.tree.Trie ∧
      (∀ copy ∈ (tree.copyNode label growing index parent).2,
        copy < (tree.copyNode label growing index parent).1.tree.size) ∧
      ∀ {copy}, copy < growing.tree.size →
        copy < (tree.copyNode label growing index parent).1.tree.size := by
  rw [copyNode]
  split
  · exact ⟨trie, by simp, fun within => within⟩
  · have parentInside : parent.getD 0 < growing.tree.size := by
      cases parent with
      | none => exact trie.nonempty
      | some copy => exact inside copy rfl
    have reached := GrowingTree.reached_findOrAddChild trie parentInside
      (tree.node index).label (tree.node index).entry
    let copied := growing.findOrAddChild (parent.getD 0) (tree.node index).label
      (tree.node index).entry
    have same := Reweighted.absorb copied.2.tree copied.1 (tree.node index)
    refine ⟨reached.trie.reweighted same, fun copy isCopy => ?_, fun within => ?_⟩
    · exact Option.some.inj isCopy ▸ same.size ▸ reached.inside parentInside
    · exact same.size ▸ Nat.lt_of_lt_of_le within reached.size_le

/-- The merged subtrees are a trie with computed totals. -/
theorem exists_computeTotals_subtrees (tree : CallTree) (label : String) (ids : IdSupply) :
    ∃ copied : CallTree, copied.Trie ∧
      (tree.subtrees label ids).tree = copied.computeTotals := by
  have trie : (tree.breadthFirst (tree.copyNode label)
      (GrowingTree.start rootLabel none ids)).tree.Trie :=
    tree.breadthFirst_keeps (fun growing : GrowingTree => growing.tree.Trie)
      (fun growing copy => copy < growing.tree.size)
      (fun index passed trie fitting => trie_copyNode trie tree label index passed fitting)
      (GrowingTree.trie_start rootLabel none ids)
  exact ⟨_, trie, rfl⟩

/-! ## Callers -/

theorem trie_addCallers {growing : GrowingTree} (trie : growing.tree.Trie) (tree : CallTree)
    (index : NodeIndex) : (tree.addCallers growing index).tree.Trie := by
  rw [addCallers]
  split
  · exact trie
  · exact (GrowingTree.reached_addPath trie _).trie.reweighted (.modifyNode _ _ _ fun _ => rfl)

/-- The inverted tree is a trie with computed totals. -/
theorem exists_computeTotals_bottomUp (tree : CallTree) (ids : IdSupply) :
    ∃ inverted : CallTree, inverted.Trie ∧
      (tree.bottomUp ids).tree = inverted.computeTotals := by
  have trie : (((List.range tree.size).drop 1).foldl tree.addCallers
      (GrowingTree.start (tree.node 0).label (tree.node 0).entry ids)).tree.Trie :=
    List.foldlRecOn (motive := fun growing : GrowingTree => growing.tree.Trie) _ _
      (GrowingTree.trie_start _ _ ids) fun _ trie index _ => trie_addCallers trie tree index
  have weighed := trie.reweighted (.modifyNode _ 0
    (fun node => { node with selfWeight := (tree.node 0).selfWeight }) fun _ => rfl)
  exact ⟨_, weighed, rfl⟩

/-! ## Functions -/

namespace FlatWalk

theorem trie_addToRoot {growing : GrowingTree} (trie : growing.tree.Trie) (node : CallNode) :
    (addToRoot growing node).tree.Trie :=
  trie.reweighted (.modifyNode _ _ _ fun _ => rfl)

theorem trie_addToRow {growing : GrowingTree} (trie : growing.tree.Trie) (node : CallNode)
    (outermost : Bool) : (addToRow growing node outermost).tree.Trie :=
  (GrowingTree.reached_findOrAddChild trie trie.nonempty _ _).trie.reweighted
    (.modifyNode _ _ _ fun _ => rfl)

theorem trie_visit {walk : FlatWalk} (trie : walk.growing.tree.Trie) (tree : CallTree)
    (region : String) (step : Visit) : (visit tree region walk step).growing.tree.Trie := by
  cases step with
  | enter index =>
    rw [visit, enter]
    split
    · dsimp only
      split
      · exact trie_addToRow trie _ _
      · exact trie_addToRoot trie _
    · exact trie
  | leave index =>
    rw [visit, leave]
    split
    · exact trie
    · exact trie

end FlatWalk

theorem trie_flat (tree : CallTree) (region : Option String) (ids : IdSupply) :
    (tree.flat region ids).tree.Trie := by
  have rows : (tree.withTotals.depthFirst.foldl
      (FlatWalk.visit tree.withTotals (region.getD rootLabel))
      { growing := GrowingTree.start (region.getD rootLabel) none ids }).growing.tree.Trie :=
    List.foldlRecOn (motive := fun walk : FlatWalk => walk.growing.tree.Trie) _ _
      (GrowingTree.trie_start _ _ ids) fun _ trie step _ =>
        FlatWalk.trie_visit trie tree.withTotals (region.getD rootLabel) step
  exact rows.reweighted ⟨rfl, fun _ => rfl⟩

end CallTree

end JitTrace
