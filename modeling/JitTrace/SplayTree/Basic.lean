import JitTrace.SplayTree.Slot

/-!
# Splay trees

An ordered map that moves every key it is asked for to the root, so that the
clustered addresses of a log are found quickly. Entries live in slots named by
handles, which stay valid until their key is removed. Besides the tree, a thread
links the entries in key order; neighbours and walks are read off it and never
depend on the shape of the tree.

Every operation follows links from slot to slot. The operations whose names begin
with `try` fail when a link leads to a vacated slot, or when a descent does not
end within as many steps as there are slots. The operations without `try` give
up the tree then.
-/

namespace JitTrace

/-- An ordered map with the links of a splay tree and of an in-order thread. -/
structure SplayTree (Key Value : Type) where
  slots : Array (Option (Slot Key Value)) := #[]
  /-- Vacated slots, the most recent one first. -/
  free : List Handle := []
  root : Option Handle := none
  first : Option Handle := none
  last : Option Handle := none
  size : Nat := 0

namespace SplayTree

variable {Key Value : Type}

/-- The map without entries. -/
def empty : SplayTree Key Value := {}

instance : Inhabited (SplayTree Key Value) := ⟨empty⟩

/-- Whether the map has no entries. -/
def isEmpty (tree : SplayTree Key Value) : Bool :=
  tree.root.isNone

/-! ## Slots -/

/-- The slot behind a handle. -/
def slot? (tree : SplayTree Key Value) (handle : Handle) : Option (Slot Key Value) :=
  tree.slots[handle]?.join

/-- The key behind a handle. -/
def key? (tree : SplayTree Key Value) (handle : Handle) : Option Key :=
  (tree.slot? handle).map (·.key)

/-- The value behind a handle. -/
def value? (tree : SplayTree Key Value) (handle : Handle) : Option Value :=
  (tree.slot? handle).map (·.value)

/-- The key and value behind a handle. -/
def pair? (tree : SplayTree Key Value) (handle : Handle) : Option (Key × Value) :=
  (tree.slot? handle).map fun slot => (slot.key, slot.value)

/-- The child of a node on a side. -/
def child? (tree : SplayTree Key Value) (side : Side) (handle : Handle) : Option Handle :=
  (tree.slot? handle).bind (·.child side)

/-- The neighbour of a node in key order on a side. -/
def beside? (tree : SplayTree Key Value) (side : Side) (handle : Handle) : Option Handle :=
  (tree.slot? handle).bind (·.neighbour side)

/-- The next handle in key order. -/
def next? (tree : SplayTree Key Value) (handle : Handle) : Option Handle :=
  tree.beside? .right handle

/-- The previous handle in key order. -/
def previous? (tree : SplayTree Key Value) (handle : Handle) : Option Handle :=
  tree.beside? .left handle

/-- Where a walk towards a side enters the thread. -/
def entrance (tree : SplayTree Key Value) : Side → Option Handle
  | .left => tree.last
  | .right => tree.first

/-- The tree with another entrance to its thread. -/
def withEntrance (tree : SplayTree Key Value) (side : Side) (handle : Option Handle) :
    SplayTree Key Value :=
  match side with
  | .left => { tree with last := handle }
  | .right => { tree with first := handle }

/-- Change the slot behind a handle, when there is one. -/
def modifySlot (tree : SplayTree Key Value) (handle : Handle)
    (change : Slot Key Value → Slot Key Value) : SplayTree Key Value :=
  { tree with slots := tree.slots.modify handle (Option.map change) }

/-- Change the slot behind a handle. -/
def tryModify (tree : SplayTree Key Value) (handle : Handle)
    (change : Slot Key Value → Slot Key Value) : Option (SplayTree Key Value) :=
  if (tree.slot? handle).isSome then some (tree.modifySlot handle change) else none

/-- Store a value behind a handle. -/
def setValue (tree : SplayTree Key Value) (handle : Handle) (value : Value) :
    SplayTree Key Value :=
  tree.modifySlot handle fun slot => { slot with value }

/-- Let what follows `handle` on a side be `neighbour`; without a handle, let walks
towards that side begin with `neighbour`. -/
def tryThread (tree : SplayTree Key Value) (side : Side) (handle neighbour : Option Handle) :
    Option (SplayTree Key Value) :=
  match handle with
  | some handle => tree.tryModify handle (·.withNeighbour side neighbour)
  | none => some (tree.withEntrance side neighbour)

/-- Store a slot, in the slot vacated last if there is one. -/
def allocate (tree : SplayTree Key Value) (slot : Slot Key Value) :
    Handle × SplayTree Key Value :=
  match tree.free with
  | handle :: free =>
    (handle, { tree with
      slots := tree.slots.modify handle fun _ => some slot
      free
      size := tree.size + 1 })
  | [] =>
    (tree.slots.size, { tree with slots := tree.slots.push (some slot), size := tree.size + 1 })

/-- Vacate a slot; what it held. -/
def tryRelease (tree : SplayTree Key Value) (handle : Handle) :
    Option (Slot Key Value × SplayTree Key Value) :=
  (tree.slot? handle).map fun slot =>
    (slot, { tree with
      slots := tree.slots.modify handle fun _ => none
      free := handle :: tree.free
      size := tree.size - 1 })

/-! ## Splaying -/

/-- The nodes that a splay has cut off on one side, from the outermost to the
innermost, which takes the next one as its inner child. -/
structure Spine where
  head : Option Handle := none
  tail : Option Handle := none
deriving DecidableEq, Repr

/-- Where a splay has got to. -/
structure Descent where
  current : Handle
  /-- The nodes of smaller keys. -/
  left : Spine := {}
  /-- The nodes of greater keys. -/
  right : Spine := {}
deriving DecidableEq, Repr

/-- The nodes cut off on a side. -/
def Descent.spine (descent : Descent) : Side → Spine
  | .left => descent.left
  | .right => descent.right

/-- The descent with another spine on a side. -/
def Descent.withSpine (descent : Descent) (side : Side) (spine : Spine) : Descent :=
  match side with
  | .left => { descent with left := spine }
  | .right => { descent with right := spine }

/-- Cut the current node off with all that lies on its far side, and go on at
`next`, on its side `side`. -/
def tryCut (tree : SplayTree Key Value) (descent : Descent) (side : Side) (next : Handle) :
    Option (SplayTree Key Value × Descent) :=
  let far := side.opposite
  let current := some descent.current
  match descent.spine far with
  | ⟨_, none⟩ => some (tree, { descent.withSpine far ⟨current, current⟩ with current := next })
  | ⟨head, some tail⟩ =>
    (tree.tryModify tail (·.withChild side current)).map fun tree =>
      (tree, { descent.withSpine far ⟨head, current⟩ with current := next })

/-- Rotate the child on a side above the current node. -/
def tryRotate (tree : SplayTree Key Value) (current : Handle) (side : Side) (child : Handle)
    (inner : Option Handle) : Option (SplayTree Key Value) := do
  let tree ← tree.tryModify current (·.withChild side inner)
  tree.tryModify child (·.withChild side.opposite (some current))

variable [Ord Key]

/-- One turn of a descent towards a side; whether the descent goes on. Two steps
towards the same side rotate before they cut, which is what halves the depth of a
long path. -/
def tryTurn (tree : SplayTree Key Value) (key : Key) (descent : Descent) (side : Side) :
    Option (Bool × SplayTree Key Value × Descent) := do
  let slot ← tree.slot? descent.current
  match slot.child side with
  | none => return (false, tree, descent)
  | some child =>
    let childSlot ← tree.slot? child
    if compare key childSlot.key = side.ordering then
      let tree ← tree.tryRotate descent.current side child (childSlot.child side.opposite)
      let rotated ← tree.slot? child
      match rotated.child side with
      | none => return (false, tree, { descent with current := child })
      | some next => return (true, ← tree.tryCut { descent with current := child } side next)
    else return (true, ← tree.tryCut descent side child)

/-- Descend towards a key until it is found or the path to it ends. -/
def tryDescend (key : Key) : Nat → SplayTree Key Value → Descent →
    Option (SplayTree Key Value × Descent)
  | 0, _, _ => none
  | steps + 1, tree, descent => do
    let slot ← tree.slot? descent.current
    match Side.ofOrdering? (compare key slot.key) with
    | none => return (tree, descent)
    | some side =>
      match ← tree.tryTurn key descent side with
      | (true, tree, descent) => tryDescend key steps tree descent
      | (false, tree, descent) => return (tree, descent)

omit [Ord Key] in
/-- Close a spine over the node that a descent has ended at, whose child on that
side was `inner`. -/
def tryClose (tree : SplayTree Key Value) (descent : Descent) (side : Side)
    (inner : Option Handle) : Option (SplayTree Key Value) :=
  match descent.spine side with
  | ⟨_, none⟩ => some tree
  | ⟨head, some tail⟩ => do
    let tree ← tree.tryModify tail (·.withChild side.opposite inner)
    tree.tryModify descent.current (·.withChild side head)

/-- Bring `key`, or the last node on the way to it, to the root. -/
def trySplay (tree : SplayTree Key Value) (key : Key) : Option (SplayTree Key Value) :=
  match tree.root with
  | none => some tree
  | some root => do
    let (tree, descent) ← tryDescend key tree.slots.size tree { current := root }
    let slot ← tree.slot? descent.current
    let tree ← tree.tryClose descent .left slot.left
    let tree ← tree.tryClose descent .right slot.right
    return { tree with root := some descent.current }

/-! ## Operations -/

/-- Hang a new entry into the tree and the thread on a side of the root, which is
its neighbour there, and make it the root. -/
def tryAdopt (tree : SplayTree Key Value) (root : Handle) (slot : Slot Key Value) (side : Side)
    (key : Key) (value : Value) : Option (SplayTree Key Value) := do
  let far := slot.neighbour side
  let new := (((Slot.mk key value none none none none).withChild side (slot.child side)
    |>.withChild side.opposite (some root)).withNeighbour side far
    |>.withNeighbour side.opposite (some root))
  let (handle, tree) := tree.allocate new
  let tree ← tree.tryModify root fun slot =>
    (slot.withChild side none).withNeighbour side (some handle)
  let tree ← tree.tryThread side.opposite far (some handle)
  return { tree with root := some handle }

/-- Add an entry unless its key is present already. The splayed root is a
neighbour of the new key, so the new node takes its place and adopts it. -/
def tryInsert (tree : SplayTree Key Value) (key : Key) (value : Value) :
    Option (Bool × SplayTree Key Value) :=
  match tree.root with
  | none =>
    let (handle, tree) := tree.allocate { key, value }
    some (true, { tree with root := some handle, first := some handle, last := some handle })
  | some _ => do
    let tree ← tree.trySplay key
    let root ← tree.root
    let slot ← tree.slot? root
    match Side.ofOrdering? (compare key slot.key) with
    | none => return (false, tree)
    | some side => return (true, ← tree.tryAdopt root slot side key value)

/-- Let the subtrees of a node that is going to be removed take its place. Every
key on the left is smaller than the removed one, so splaying it there leaves a
root without right child. -/
def tryJoin (tree : SplayTree Key Value) (key : Key) (slot : Slot Key Value) :
    Option (SplayTree Key Value) :=
  match slot.left with
  | none => some { tree with root := slot.right }
  | some left => do
    let tree ← trySplay { tree with root := some left } key
    match tree.root with
    | some root => tree.tryModify root (·.withChild .right slot.right)
    | none => some tree

/-- Remove a key with its value. -/
def tryRemove (tree : SplayTree Key Value) (key : Key) :
    Option (Option (Key × Value) × SplayTree Key Value) := do
  let tree ← tree.trySplay key
  match tree.root with
  | none => return (none, tree)
  | some root =>
    let slot ← tree.slot? root
    if compare slot.key key = .eq then
      let tree ← tree.tryJoin key slot
      let tree ← tree.tryThread .right slot.previous slot.next
      let tree ← tree.tryThread .left slot.next slot.previous
      let (slot, tree) ← tree.tryRelease root
      return (some (slot.key, slot.value), tree)
    else return (none, tree)

/-- The handle of a key. -/
def tryFind (tree : SplayTree Key Value) (key : Key) :
    Option (Option Handle × SplayTree Key Value) := do
  let tree ← tree.trySplay key
  match tree.root with
  | none => return (none, tree)
  | some root =>
    let slot ← tree.slot? root
    return (if compare slot.key key = .eq then some root else none, tree)

/-- The value of a key. -/
def tryGet (tree : SplayTree Key Value) (key : Key) :
    Option (Option Value × SplayTree Key Value) := do
  let (handle?, tree) ← tree.tryFind key
  match handle? with
  | none => return (none, tree)
  | some handle =>
    let slot ← tree.slot? handle
    return (some slot.value, tree)

/-- Change the value of a key; the value it had. -/
def tryChange (tree : SplayTree Key Value) (key : Key) (change : Value → Value) :
    Option (Option Value × SplayTree Key Value) := do
  let (handle?, tree) ← tree.tryFind key
  match handle? with
  | none => return (none, tree)
  | some handle =>
    let slot ← tree.slot? handle
    let tree ← tree.tryModify handle fun slot => { slot with value := change slot.value }
    return (some slot.value, tree)

/-- The handle nearest to `key` among those that compare with it as wanted. All on
`side` of the splayed root do, or else none on the other side. -/
def tryNearest (tree : SplayTree Key Value) (key : Key) (wanted : Ordering → Bool) (side : Side) :
    Option (Option Handle × SplayTree Key Value) := do
  let tree ← tree.trySplay key
  match tree.root with
  | none => return (none, tree)
  | some root =>
    let slot ← tree.slot? root
    return (if wanted (compare slot.key key) then some root else slot.neighbour side, tree)

/-- Search below a link without rearranging. -/
def tryPeekFrom (tree : SplayTree Key Value) (key : Key) : Nat → Option Handle →
    Option (Option Handle)
  | _, none => some none
  | 0, some _ => none
  | steps + 1, some handle => do
    let slot ← tree.slot? handle
    match Side.ofOrdering? (compare key slot.key) with
    | none => return some handle
    | some side => tree.tryPeekFrom key steps (slot.child side)

/-- Search below a link for the greatest key not above `key`, without rearranging;
`best` is the greatest seen so far. -/
def tryPeekAtMostFrom (tree : SplayTree Key Value) (key : Key) : Nat → Option Handle →
    Option Handle → Option (Option Handle)
  | _, none, best => some best
  | 0, some _, _ => none
  | steps + 1, some handle, best => do
    let slot ← tree.slot? handle
    match compare key slot.key with
    | .eq => return some handle
    | .lt => tree.tryPeekAtMostFrom key steps slot.left best
    | .gt => tree.tryPeekAtMostFrom key steps slot.right (some handle)

omit [Ord Key] in
/-- The last node on a path that keeps to one side. -/
def tryOutermost (tree : SplayTree Key Value) (side : Side) : Nat → Handle → Option Handle
  | 0, _ => none
  | steps + 1, handle => do
    let slot ← tree.slot? handle
    match slot.child side with
    | none => return handle
    | some child => tree.tryOutermost side steps child

/-- Add an entry unless its key is present already. -/
def insert (tree : SplayTree Key Value) (key : Key) (value : Value) :
    Bool × SplayTree Key Value :=
  (tree.tryInsert key value).getD (false, empty)

/-- Remove a key with its value. -/
def remove (tree : SplayTree Key Value) (key : Key) :
    Option (Key × Value) × SplayTree Key Value :=
  (tree.tryRemove key).getD (none, empty)

/-- The handle of a key. -/
def find (tree : SplayTree Key Value) (key : Key) : Option Handle × SplayTree Key Value :=
  (tree.tryFind key).getD (none, empty)

/-- The value of a key. -/
def get (tree : SplayTree Key Value) (key : Key) : Option Value × SplayTree Key Value :=
  (tree.tryGet key).getD (none, empty)

/-- Whether a key is present. -/
def contains (tree : SplayTree Key Value) (key : Key) : Bool × SplayTree Key Value :=
  let (handle?, tree) := tree.find key
  (handle?.isSome, tree)

/-- The handle nearest to `key` among those that compare with it as wanted. -/
def nearest (tree : SplayTree Key Value) (key : Key) (wanted : Ordering → Bool) (side : Side) :
    Option Handle × SplayTree Key Value :=
  (tree.tryNearest key wanted side).getD (none, empty)

/-- The handle with the greatest key below `key`. -/
def greatestBelow (tree : SplayTree Key Value) (key : Key) :
    Option Handle × SplayTree Key Value :=
  tree.nearest key (·.isLT) .left

/-- The handle with the greatest key not above `key`. -/
def greatestAtMost (tree : SplayTree Key Value) (key : Key) :
    Option Handle × SplayTree Key Value :=
  tree.nearest key (·.isLE) .left

/-- The handle with the least key above `key`. -/
def leastAbove (tree : SplayTree Key Value) (key : Key) :
    Option Handle × SplayTree Key Value :=
  tree.nearest key (·.isGT) .right

/-- The handle of a key, without rearranging. -/
def peek? (tree : SplayTree Key Value) (key : Key) : Option Handle :=
  (tree.tryPeekFrom key tree.slots.size tree.root).join

/-- The handle with the greatest key not above `key`, without rearranging. -/
def peekAtMost? (tree : SplayTree Key Value) (key : Key) : Option Handle :=
  (tree.tryPeekAtMostFrom key tree.slots.size tree.root none).join

omit [Ord Key] in
/-- The smallest handle of the subtree below a node. -/
def subtreeFirst (tree : SplayTree Key Value) (handle : Handle) : Handle :=
  (tree.tryOutermost .left tree.slots.size handle).getD handle

omit [Ord Key] in
/-- The largest handle of the subtree below a node. -/
def subtreeLast (tree : SplayTree Key Value) (handle : Handle) : Handle :=
  (tree.tryOutermost .right tree.slots.size handle).getD handle

end SplayTree

end JitTrace
