import JitTrace.Proofs.SplayTree.Slots

/-!
# Spines of a splay

A top-down splay cuts nodes off on the way down and hangs them on one of two
spines. `Hanging` relates a spine to the pieces that hang on it, each a node with
its outer subtree, the innermost first. The inner child of the innermost node is
left open, so nothing is said about that one link until the spine is closed.
-/

namespace JitTrace

open SplayTree (Spine)

/-- Nodes cut off on one side with their outer subtrees, the innermost first. -/
abbrev Pieces := List (Shape × Handle)

namespace Pieces

/-- The handles of pieces that lie on a side, from left to right. -/
def handles (side : Side) : Pieces → List Handle
  | [] => []
  | (outer, pivot) :: pieces => side.join (side.join (handles side pieces) outer.handles) [pivot]

/-- Close the pieces of a side over the shape inside them. -/
def close (side : Side) : Pieces → Shape → Shape
  | [], shape => shape
  | (outer, pivot) :: pieces, shape => close side pieces (.onSide side outer pivot shape)

/-- Closing keeps the handles in order. -/
theorem handles_close (side : Side) (pieces : Pieces) (shape : Shape) :
    (close side pieces shape).handles = side.join (handles side pieces) shape.handles := by
  induction pieces generalizing shape with
  | nil => simp [close, handles]
  | cons piece pieces inductionHypothesis =>
    obtain ⟨outer, pivot⟩ := piece
    simp only [close, handles, inductionHypothesis, Shape.handles_onSide, Side.join_assoc]

end Pieces

/-- A spine holds the given pieces, and its innermost inner child is open. -/
inductive Hanging (child : ChildLinks) (side : Side) : Pieces → Spine → Prop where
  | empty : Hanging child side [] {}
  | outermost {outer pivot} (linked : Linked child outer (child side pivot)) :
      Hanging child side [(outer, pivot)] ⟨some pivot, some pivot⟩
  | inner {pieces head above outer pivot} (chain : Hanging child side pieces ⟨head, some above⟩)
      (link : child side.opposite above = some pivot)
      (linked : Linked child outer (child side pivot)) :
      Hanging child side ((outer, pivot) :: pieces) ⟨head, some pivot⟩

namespace Hanging

variable {child : ChildLinks} {side : Side} {pieces : Pieces} {spine : Spine}

/-- The tail of a spine is among its handles. -/
theorem tail_mem {head : Option Handle} {tail : Handle}
    (hanging : Hanging child side pieces ⟨head, some tail⟩) :
    tail ∈ Pieces.handles side pieces := by
  cases hanging <;> simp [Pieces.handles]

/-- A spine without a tail holds nothing. -/
theorem eq_nil {head : Option Handle} (hanging : Hanging child side pieces ⟨head, none⟩) :
    pieces = [] := by
  cases hanging
  rfl

/-- A spine depends on the links of its own nodes only, the open one excepted. -/
theorem congr {other : ChildLinks} (hanging : Hanging child side pieces spine)
    (distinct : (Pieces.handles side pieces).Nodup)
    (agree : ∀ handle ∈ Pieces.handles side pieces, ∀ on,
      (on = side.opposite → some handle ≠ spine.tail) → other on handle = child on handle) :
    Hanging other side pieces spine := by
  induction hanging with
  | empty => exact .empty
  | @outermost outer pivot linked =>
    simp only [Pieces.handles, Side.nodup_join, Side.mem_join, List.mem_singleton] at distinct agree
    have here : other side pivot = child side pivot :=
      agree pivot (.inr rfl) side fun same => absurd same side.ne_opposite
    refine .outermost (here ▸ linked.congr fun handle inside on => ?_)
    have apart : handle ≠ pivot := distinct.2.2 handle (.inr inside)
    exact agree handle (.inl (.inr inside)) on fun _ same => apart (Option.some.inj same)
  | @inner pieces head above outer pivot chain link linked inductionHypothesis =>
    simp only [Pieces.handles, Side.nodup_join, Side.mem_join, List.mem_singleton] at distinct agree
    obtain ⟨⟨chainDistinct, -, -⟩, -, apartFromPivot⟩ := distinct
    have here : other side pivot = child side pivot :=
      agree pivot (.inr rfl) side fun same => absurd same side.ne_opposite
    have within : ∀ handle, handle ∈ Pieces.handles side pieces ∨ handle ∈ outer.handles →
        ∀ on, other on handle = child on handle := by
      intro handle inside on
      refine agree handle (.inl inside) on fun _ same => ?_
      exact apartFromPivot handle inside (Option.some.inj same)
    refine .inner (inductionHypothesis chainDistinct fun handle inside on _ =>
      within handle (.inl inside) on) ?_ ?_
    · rw [within above (.inl chain.tail_mem)]
      exact link
    · exact here ▸ linked.congr fun handle inside on => within handle (.inr inside) on

/-- Changing a link outside a spine leaves the spine alone. -/
theorem relink (hanging : Hanging child side pieces spine)
    (distinct : (Pieces.handles side pieces).Nodup) {changed : Handle} (on : Side)
    (target : Option Handle) (outside : changed ∉ Pieces.handles side pieces) :
    Hanging (ChildLinks.relink child changed on target) side pieces spine :=
  hanging.congr distinct fun _ inside reader _ =>
    child.relink_of_ne on target (ne_of_mem_of_not_mem inside outside) reader

/-- Filling the open link of a spine leaves the spine alone. -/
theorem relink_tail {head : Option Handle} {tail : Handle}
    (hanging : Hanging child side pieces ⟨head, some tail⟩)
    (distinct : (Pieces.handles side pieces).Nodup) (target : Option Handle) :
    Hanging (ChildLinks.relink child tail side.opposite target) side pieces ⟨head, some tail⟩ := by
  refine hanging.congr distinct fun handle _ on notOpen => ?_
  by_cases same : handle = tail ∧ on = side.opposite
  · exact absurd (congrArg some same.1) (notOpen same.2)
  · simp [ChildLinks.relink, same]

/-- A spine whose open link leads to a shape is closed over that shape. -/
theorem close {head : Option Handle} {tail : Handle} {shape : Shape}
    (hanging : Hanging child side pieces ⟨head, some tail⟩)
    (inside : Linked child shape (child side.opposite tail)) :
    Linked child (Pieces.close side pieces shape) head := by
  generalize same : (⟨head, some tail⟩ : Spine) = spine at hanging
  induction hanging generalizing shape tail with
  | empty => cases same
  | outermost linked =>
    cases same
    exact Linked.onSide_iff.mpr ⟨rfl, linked, inside⟩
  | @inner pieces head above outer pivot chain link linked inductionHypothesis =>
    cases same
    refine inductionHypothesis ?_ rfl
    rw [link]
    exact Linked.onSide_iff.mpr ⟨rfl, linked, inside⟩

end Hanging

end JitTrace
