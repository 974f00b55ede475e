/-!
# Slots of splay trees

A splay tree keeps its entries in slots that point at one another: to the two
children, and to the two neighbours in key order. Left and right are treated
alike throughout, so what is said of one side is said of both.
-/

namespace JitTrace

/-- Names a stored entry. -/
abbrev Handle := Nat

/-- The two sides of a node, of smaller and of greater keys. -/
inductive Side where
  | left
  | right
deriving DecidableEq, Repr

namespace Side

/-- The other side. -/
def opposite : Side → Side
  | .left => .right
  | .right => .left

/-- How a key compares with the nodes on whose given side it lies. -/
def ordering : Side → Ordering
  | .left => .lt
  | .right => .gt

/-- The side on which a key lies, unless it is the node's own. -/
def ofOrdering? : Ordering → Option Side
  | .lt => some .left
  | .eq => none
  | .gt => some .right

end Side

/-- A stored entry with its links. -/
structure Slot (Key Value : Type) where
  key : Key
  value : Value
  left : Option Handle := none
  right : Option Handle := none
  previous : Option Handle := none
  next : Option Handle := none
deriving Repr

namespace Slot

variable {Key Value : Type}

/-- The child on a side. -/
def child (slot : Slot Key Value) : Side → Option Handle
  | .left => slot.left
  | .right => slot.right

/-- The slot with another child on a side. -/
def withChild (slot : Slot Key Value) (side : Side) (child : Option Handle) : Slot Key Value :=
  match side with
  | .left => { slot with left := child }
  | .right => { slot with right := child }

/-- The neighbour in key order on a side. -/
def neighbour (slot : Slot Key Value) : Side → Option Handle
  | .left => slot.previous
  | .right => slot.next

/-- The slot with another neighbour on a side. -/
def withNeighbour (slot : Slot Key Value) (side : Side) (neighbour : Option Handle) :
    Slot Key Value :=
  match side with
  | .left => { slot with previous := neighbour }
  | .right => { slot with next := neighbour }

end Slot

end JitTrace
