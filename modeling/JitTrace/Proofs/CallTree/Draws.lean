import JitTrace.Proofs.CallTree.Derived
import JitTrace.Proofs.CallTree.Ids

/-!
# Ids that trees draw

A tree that grows keeps the ids it has, and its new nodes get the next ones of the supply, one
each and in order of creation. A derived tree grows out of nothing in the same way.
-/

namespace JitTrace

open CallTree (Reweighted)

namespace GrowingTree

/-- The ids that a supply gives next. -/
def nextIds (ids : IdSupply) (count : Nat) : List UInt32 :=
  (List.range count).map fun offset => ids + .ofNat offset

theorem nextIds_add (ids : IdSupply) (first second : Nat) :
    nextIds ids (first + second) = nextIds ids first ++ nextIds (ids + .ofNat first) second := by
  simp [nextIds, List.range_add, UInt32.ofNat_add, UInt32.add_assoc]

/-- A tree without nodes, not even a root. -/
def unborn (ids : IdSupply) : GrowingTree where
  tree := default
  ids := ids

/-- One tree has grown into another by `count` nodes. -/
structure GrewBy (count : Nat) (before after : GrowingTree) : Prop where
  supply : after.ids = before.ids + .ofNat count
  ids : after.tree.ids = before.tree.ids ++ nextIds before.ids count

/-- One tree has grown into another. -/
def Grows (before after : GrowingTree) : Prop :=
  ∃ count, GrewBy count before after

theorem GrewBy.size {count : Nat} {before after : GrowingTree} (grew : GrewBy count before after) :
    after.tree.size = before.tree.size + count := by
  have lengths := congrArg List.length grew.ids
  simpa [nextIds] using lengths

namespace Grows

variable {before middle after : GrowingTree}

theorem refl (growing : GrowingTree) : Grows growing growing :=
  ⟨0, by simp, by simp [nextIds]⟩

theorem trans (first : Grows before middle) (second : Grows middle after) :
    Grows before after := by
  obtain ⟨early, first⟩ := first
  obtain ⟨late, second⟩ := second
  refine ⟨early + late, ?_, ?_⟩
  · rw [second.supply, first.supply, UInt32.add_assoc, UInt32.ofNat_add]
  · rw [second.ids, first.ids, first.supply, nextIds_add, List.append_assoc]

/-- Weights are no matter. -/
theorem reweighted (grows : Grows before after) {tree : CallTree}
    (same : Reweighted after.tree tree) : Grows before { after with tree } := by
  obtain ⟨count, supply, ids⟩ := grows
  exact ⟨count, supply, same.ids.trans ids⟩

/-- A tree that starts draws the id of its root. -/
theorem start (label : String) (entry : Option CodeId) (ids : IdSupply) :
    Grows (unborn ids) (GrowingTree.start label entry ids) := by
  have root : (GrowingTree.start label entry ids).tree.ids = [ids] := rfl
  have nothing : (unborn ids).tree.ids = [] := rfl
  have next : nextIds ids 1 = [ids] := by simp [nextIds]
  exact ⟨1, rfl, by rw [root, nothing, List.nil_append]; exact next.symm⟩

theorem addChild (growing : GrowingTree) (parent : NodeIndex) (label : String)
    (entry : Option CodeId) : Grows growing (growing.addChild parent label entry).2 :=
  ⟨1, rfl, by simp [ids_addChild, nextIds]⟩

theorem findOrAddChild (growing : GrowingTree) (parent : NodeIndex) (label : String)
    (entry : Option CodeId) : Grows growing (growing.findOrAddChild parent label entry).2 := by
  unfold GrowingTree.findOrAddChild
  split
  · exact refl growing
  · exact addChild growing parent label entry

theorem addPathFrom (growing : GrowingTree) (start : NodeIndex)
    (path : List (String × Option CodeId)) : Grows growing (growing.addPathFrom start path).2 := by
  induction path generalizing growing start with
  | nil => exact refl growing
  | cons step path inductionHypothesis =>
    exact (findOrAddChild growing start step.1 step.2).trans (inductionHypothesis _ _)

theorem addPath (growing : GrowingTree) (path : List (String × Option CodeId)) :
    Grows growing (growing.addPath path).2 :=
  addPathFrom growing 0 path

end Grows

end GrowingTree

/-! ## Derived trees -/

namespace CallTree

open GrowingTree (Grows unborn)

variable {before : GrowingTree}

theorem grows_copyNode {growing : GrowingTree} (grows : Grows before growing) (tree : CallTree)
    (label : String) (index : NodeIndex) (parent : Option NodeIndex) :
    Grows before (tree.copyNode label growing index parent).1 := by
  rw [copyNode]
  split
  · exact grows
  · exact (grows.trans (.findOrAddChild ..)).reweighted (.absorb ..)

theorem grows_subtrees (tree : CallTree) (label : String) (ids : IdSupply) :
    Grows (unborn ids) (tree.subtrees label ids) := by
  have copied : Grows (unborn ids)
      (tree.breadthFirst (tree.copyNode label) (GrowingTree.start rootLabel none ids)) :=
    tree.breadthFirst_keeps (Grows (unborn ids)) (fun _ _ => True)
      (fun index passed grows _ =>
        ⟨grows_copyNode grows tree label index passed, fun _ _ => trivial, id⟩)
      (.start rootLabel none ids)
  exact copied.reweighted (.computeTotals _)

theorem grows_addCallers {growing : GrowingTree} (grows : Grows before growing)
    (tree : CallTree) (index : NodeIndex) : Grows before (tree.addCallers growing index) := by
  rw [addCallers]
  split
  · exact grows
  · exact (grows.trans (.addPath ..)).reweighted (.modifyNode _ _ _ fun _ => rfl)

theorem grows_bottomUp (tree : CallTree) (ids : IdSupply) :
    Grows (unborn ids) (tree.bottomUp ids) := by
  have inverted : Grows (unborn ids) (((List.range tree.size).drop 1).foldl tree.addCallers
      (GrowingTree.start (tree.node 0).label (tree.node 0).entry ids)) :=
    List.foldlRecOn (motive := Grows (unborn ids)) _ _ (.start _ _ ids)
      fun _ grows index _ => grows_addCallers grows tree index
  have weighed := inverted.reweighted (.modifyNode _ 0
    (fun node => { node with selfWeight := (tree.node 0).selfWeight }) fun _ => rfl)
  exact weighed.reweighted (.computeTotals _)

theorem FlatWalk.grows_visit {walk : FlatWalk} (grows : Grows before walk.growing)
    (tree : CallTree) (region : String) (step : Visit) :
    Grows before (visit tree region walk step).growing := by
  cases step with
  | enter index =>
    rw [visit, enter]
    split
    · dsimp only
      split
      · exact (grows.trans (.findOrAddChild ..)).reweighted (.modifyNode _ _ _ fun _ => rfl)
      · exact grows.reweighted (.modifyNode _ _ _ fun _ => rfl)
    · exact grows
  | leave index =>
    rw [visit, leave]
    split
    · exact grows
    · exact grows

theorem grows_flat (tree : CallTree) (region : Option String) (ids : IdSupply) :
    Grows (unborn ids) (tree.flat region ids) := by
  have rows : Grows (unborn ids) (tree.withTotals.depthFirst.foldl
      (FlatWalk.visit tree.withTotals (region.getD rootLabel))
      { growing := GrowingTree.start (region.getD rootLabel) none ids }).growing :=
    List.foldlRecOn (motive := fun walk : FlatWalk => Grows (unborn ids) walk.growing) _ _
      (.start _ _ ids) fun _ grows step _ =>
        FlatWalk.grows_visit grows tree.withTotals (region.getD rootLabel) step
  exact rows.reweighted ⟨rfl, fun _ => rfl⟩

end CallTree

end JitTrace
