import JitTrace.SplayTree.Basic
import Mathlib.Data.List.Basic

/-!
# Shapes of splay trees

A shape is a binary tree of handles. `Linked` says that the child links below a
link spell out a shape, so that whatever holds of shapes can be said of linked
slots. A shape is read on either side: `onSide` and `join` name the two mirror
images of one tree and of one list by the side that comes first.
-/

namespace JitTrace

namespace Side

@[simp] theorem opposite_opposite (side : Side) : side.opposite.opposite = side := by
  cases side <;> rfl

@[simp] theorem opposite_ne (side : Side) : side.opposite ≠ side := by
  cases side <;> decide

@[simp] theorem ne_opposite (side : Side) : side ≠ side.opposite := by
  cases side <;> decide

theorem eq_opposite_of_ne {side other : Side} (different : other ≠ side) :
    other = side.opposite := by
  cases side <;> cases other <;> simp_all [opposite]

/-- A comparison chooses a side exactly when it is that side's. -/
@[simp] theorem ofOrdering?_eq_some {ordering : Ordering} {side : Side} :
    ofOrdering? ordering = some side ↔ ordering = side.ordering := by
  cases ordering <;> cases side <;> simp [ofOrdering?, Side.ordering]

/-- A comparison chooses no side exactly when it is equality. -/
@[simp] theorem ofOrdering?_eq_none {ordering : Ordering} :
    ofOrdering? ordering = none ↔ ordering = .eq := by
  cases ordering <;> simp [ofOrdering?]

/-- Turning a comparison round turns the side round. -/
@[simp] theorem swap_ordering (side : Side) : side.ordering.swap = side.opposite.ordering := by
  cases side <;> rfl

theorem ordering_ne_opposite (side : Side) : side.ordering ≠ side.opposite.ordering := by
  cases side <;> decide

theorem ordering_ne_eq (side : Side) : side.ordering ≠ .eq := by
  cases side <;> decide

/-- The list with `near` on the given side of `rest`. -/
def join {α : Type} (side : Side) (near rest : List α) : List α :=
  match side with
  | .left => near ++ rest
  | .right => rest ++ near

@[simp] theorem mem_join {α : Type} {side : Side} {near rest : List α} {item : α} :
    item ∈ side.join near rest ↔ item ∈ near ∨ item ∈ rest := by
  cases side <;> simp [join, or_comm]

@[simp] theorem length_join {α : Type} (side : Side) (near rest : List α) :
    (side.join near rest).length = near.length + rest.length := by
  cases side <;> simp [join, Nat.add_comm]

@[simp] theorem join_nil_left {α : Type} (side : Side) (rest : List α) :
    side.join [] rest = rest := by
  cases side <;> simp [join]

theorem join_assoc {α : Type} (side : Side) (near middle far : List α) :
    side.join (side.join near middle) far = side.join near (side.join middle far) := by
  cases side <;> simp [join]

/-- A join is free of repetitions exactly when its parts are and share nothing. -/
theorem nodup_join {α : Type} {side : Side} {near rest : List α} :
    (side.join near rest).Nodup ↔
      near.Nodup ∧ rest.Nodup ∧ ∀ item ∈ near, item ∉ rest := by
  cases side with
  | left =>
    simp only [join, List.nodup_append]
    grind
  | right =>
    simp only [join, List.nodup_append]
    grind

end Side

/-- A binary tree of handles. -/
inductive Shape where
  | leaf
  | node (left : Shape) (handle : Handle) (right : Shape)
deriving Repr, DecidableEq

namespace Shape

/-- The handles from left to right. -/
def handles : Shape → List Handle
  | .leaf => []
  | .node left handle right => left.handles ++ handle :: right.handles

/-- The node with the subtree `near` on the given side and `far` on the other. -/
def onSide (side : Side) (near : Shape) (handle : Handle) (far : Shape) : Shape :=
  match side with
  | .left => .node near handle far
  | .right => .node far handle near

@[simp] theorem handles_leaf : leaf.handles = [] := rfl

theorem handles_node (left : Shape) (handle : Handle) (right : Shape) :
    (node left handle right).handles = left.handles ++ handle :: right.handles := rfl

theorem handles_onSide (side : Side) (near : Shape) (handle : Handle) (far : Shape) :
    (onSide side near handle far).handles =
      side.join near.handles (side.join [handle] far.handles) := by
  cases side <;> simp [onSide, handles, Side.join]

/-- Every shape but the empty one is a node on either side. -/
theorem exists_onSide (side : Side) (shape : Shape) (nonempty : shape ≠ .leaf) :
    ∃ near handle far, shape = onSide side near handle far := by
  cases shape with
  | leaf => exact absurd rfl nonempty
  | node left handle right =>
    cases side with
    | left => exact ⟨left, handle, right, rfl⟩
    | right => exact ⟨right, handle, left, rfl⟩

end Shape

/-- The children of every node, as links give them. -/
abbrev ChildLinks := Side → Handle → Option Handle

namespace ChildLinks

/-- The links with one of them changed. -/
def relink (child : ChildLinks) (changed : Handle) (on : Side) (link : Option Handle) :
    ChildLinks :=
  fun side handle => if handle = changed ∧ side = on then link else child side handle

@[simp] theorem relink_same (child : ChildLinks) (changed : Handle) (on : Side)
    (link : Option Handle) : child.relink changed on link on changed = link := by
  simp [relink]

@[simp] theorem relink_opposite (child : ChildLinks) (changed : Handle) (on : Side)
    (link : Option Handle) :
    child.relink changed on link on.opposite changed = child on.opposite changed := by
  simp [relink]

theorem relink_of_ne (child : ChildLinks) {changed : Handle} (on : Side)
    (link : Option Handle) {handle : Handle} (different : handle ≠ changed) (side : Side) :
    child.relink changed on link side handle = child side handle := by
  simp [relink, different]

end ChildLinks

/-- The child links below a link spell out a shape. -/
def Linked (child : ChildLinks) : Shape → Option Handle → Prop
  | .leaf, link => link = none
  | .node left handle right, link =>
    link = some handle ∧ Linked child left (child .left handle) ∧
      Linked child right (child .right handle)

namespace Linked

variable {child : ChildLinks} {shape : Shape} {link : Option Handle}

@[simp] theorem leaf_iff : Linked child .leaf link ↔ link = none := Iff.rfl

theorem node_iff {left : Shape} {handle : Handle} {right : Shape} :
    Linked child (.node left handle right) link ↔
      link = some handle ∧ Linked child left (child .left handle) ∧
        Linked child right (child .right handle) := Iff.rfl

theorem onSide_iff {side : Side} {near : Shape} {handle : Handle} {far : Shape} :
    Linked child (.onSide side near handle far) link ↔
      link = some handle ∧ Linked child near (child side handle) ∧
        Linked child far (child side.opposite handle) := by
  cases side
  · exact node_iff
  · rw [Shape.onSide, node_iff, and_comm (a := Linked child far _)]
    rfl

/-- A shape depends only on the links of its own nodes. -/
theorem congr {other : ChildLinks} (linked : Linked child shape link)
    (agree : ∀ handle ∈ shape.handles, ∀ side, other side handle = child side handle) :
    Linked other shape link := by
  induction shape generalizing link with
  | leaf => exact linked
  | node left handle right leftHypothesis rightHypothesis =>
    obtain ⟨rfl, onLeft, onRight⟩ := linked
    have here : ∀ side, other side handle = child side handle :=
      agree handle (by simp [Shape.handles])
    refine ⟨rfl, ?_, ?_⟩
    · rw [here .left]
      exact leftHypothesis onLeft fun below inside =>
        agree below (by simp [Shape.handles, inside])
    · rw [here .right]
      exact rightHypothesis onRight fun below inside =>
        agree below (by simp [Shape.handles, inside])

/-- Changing the link of a node outside a shape leaves the shape alone. -/
theorem relink (linked : Linked child shape link) {changed : Handle} (on : Side)
    (target : Option Handle) (outside : changed ∉ shape.handles) :
    Linked (child.relink changed on target) shape link :=
  linked.congr fun _ inside side =>
    child.relink_of_ne on target (ne_of_mem_of_not_mem inside outside) side

/-- A link that leads to a node has a shape that is a node. -/
theorem ne_leaf {handle : Handle} (linked : Linked child shape (some handle)) :
    shape ≠ .leaf := by
  rintro rfl
  simp at linked

/-- No link at all has the empty shape. -/
theorem eq_leaf (linked : Linked child shape none) : shape = .leaf := by
  cases shape with
  | leaf => rfl
  | node left handle right => simp [node_iff] at linked

/-- A node, seen from a side. -/
theorem exists_onSide {handle : Handle} (linked : Linked child shape (some handle)) (side : Side) :
    ∃ near far, shape = .onSide side near handle far ∧ Linked child near (child side handle) ∧
      Linked child far (child side.opposite handle) := by
  obtain ⟨near, root, far, rfl⟩ := shape.exists_onSide side linked.ne_leaf
  obtain ⟨same, onNear, onFar⟩ := onSide_iff.mp linked
  obtain rfl := Option.some.inj same
  exact ⟨near, far, rfl, onNear, onFar⟩

end Linked

end JitTrace
