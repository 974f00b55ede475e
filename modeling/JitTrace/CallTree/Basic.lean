import JitTrace.CallTree.LineTicks
import JitTrace.Code.Entry

/-!
# Call trees

A call tree has a node for every distinct chain of labels from the root that a
sample was taken on. Children are told apart by their labels, and a node is
always created after its parent. Every node draws a stable id from a supply that
the trees of one lineage share, so an id is never given out twice.
-/

namespace JitTrace

/-- The place of a node in its tree, in order of creation; the root is 0. -/
abbrev NodeIndex := Nat

/-- The next unused node id. -/
abbrev IdSupply := UInt32

/-- The supply of a new lineage. -/
def IdSupply.initial : IdSupply := 1

/-- A node of a call tree. -/
structure CallNode where
  /-- Unique among all trees that draw from one supply. -/
  id : UInt32
  label : String
  /-- The code entry that the node was created for. -/
  entry : Option CodeId
  parent : Option NodeIndex
  /-- Samples that ended in this node. -/
  selfWeight : Nat := 0
  /-- Samples that ended in this node or below it, once computed. -/
  totalWeight : Nat := 0
  lineTicks : LineTicks := []
  /-- In order of creation. -/
  children : Array NodeIndex := #[]
  /-- Under which label each child is found. -/
  byLabel : List (String × NodeIndex) := []
deriving Repr, Inhabited

/-- A call tree. -/
structure CallTree where
  nodes : Array CallNode
  /-- Whether the total weights are up to date. -/
  totalsValid : Bool := true
deriving Inhabited

/-- A tree together with the supply it draws ids from. -/
structure GrowingTree where
  tree : CallTree
  ids : IdSupply
deriving Inhabited

namespace CallTree

/-- The label of the root of every top-down tree. -/
def rootLabel : String := "(root)"

/-- The node at an index. -/
def node (tree : CallTree) (index : NodeIndex) : CallNode :=
  tree.nodes.getD index default

/-- The number of nodes, the root included. -/
def size (tree : CallTree) : Nat :=
  tree.nodes.size

/-- Whether the tree has nothing but its root. -/
def isEmpty (tree : CallTree) : Bool :=
  tree.nodes.size == 1

/-- Change the node at an index. -/
def modifyNode (tree : CallTree) (index : NodeIndex) (change : CallNode → CallNode) : CallTree :=
  { tree with nodes := tree.nodes.modify index change }

/-- The child of a node with a label. -/
def findChild? (tree : CallTree) (parent : NodeIndex) (label : String) : Option NodeIndex :=
  (tree.node parent).byLabel.lookup label

/-- The node reached from `start` by a chain of labels. -/
def findFrom? (tree : CallTree) (start : NodeIndex) : List String → Option NodeIndex
  | [] => some start
  | label :: labels =>
    match tree.findChild? start label with
    | some child => tree.findFrom? child labels
    | none => none

/-- The node reached from the root by a chain of labels. -/
def findPath? (tree : CallTree) (labels : List String) : Option NodeIndex :=
  tree.findFrom? 0 labels

/-- The nodes above a node, its parent first. -/
def ancestors (tree : CallTree) (index : NodeIndex) : List NodeIndex :=
  match (tree.node index).parent with
  | none => []
  | some parent => if parent < index then parent :: tree.ancestors parent else []
termination_by index

/-- A node and the nodes above it, without the root: the chain of calls that the
node stands for, innermost first. -/
def callChain (tree : CallTree) (index : NodeIndex) : List NodeIndex :=
  (index :: tree.ancestors index).takeWhile (· != 0)

/-- The labels from below the root down to a node. -/
def pathLabels (tree : CallTree) (index : NodeIndex) : List String :=
  ((tree.callChain index).map fun ancestor => (tree.node ancestor).label).reverse

/-- The node directly below the root that a node belongs to; none for the root. -/
def topLevelAncestor? (tree : CallTree) (index : NodeIndex) : Option NodeIndex :=
  (tree.callChain index).getLast?

/-- Count a sample that ended in a node. -/
def recordSample (tree : CallTree) (index : NodeIndex) (line : Option Nat) : CallTree :=
  let tree := tree.modifyNode index fun node =>
    { node with
      selfWeight := node.selfWeight + 1
      lineTicks := match line with
        | some line => LineTicks.add line 1 node.lineTicks
        | none => node.lineTicks }
  { tree with totalsValid := false }

/-- Take back a sample that ended in one node and count it in another. -/
def moveSample (tree : CallTree) (source : NodeIndex) (sourceLine : Option Nat)
    (target : NodeIndex) (targetLine : Option Nat) : CallTree :=
  let tree := tree.modifyNode source fun node =>
    { node with
      selfWeight := node.selfWeight - 1
      lineTicks := match sourceLine with
        | some line => LineTicks.remove line node.lineTicks
        | none => node.lineTicks }
  tree.recordSample target targetLine

/-- Add the totals of the nodes `count`, …, 1 to their parents, in this order, so
that each total is complete before it is passed on. -/
def passTotalsUp (nodes : Array CallNode) : Nat → Array CallNode
  | 0 => nodes
  | index + 1 =>
    let node := nodes.getD (index + 1) default
    let nodes :=
      match node.parent with
      | some parent =>
        nodes.modify parent fun above =>
          { above with totalWeight := above.totalWeight + node.totalWeight }
      | none => nodes
    passTotalsUp nodes index

/-- Compute the total weight of every node. -/
def computeTotals (tree : CallTree) : CallTree :=
  let nodes := tree.nodes.map fun node => { node with totalWeight := node.selfWeight }
  { nodes := passTotalsUp nodes (nodes.size - 1), totalsValid := true }

/-- The tree with its total weights up to date. -/
def withTotals (tree : CallTree) : CallTree :=
  if tree.totalsValid then tree else tree.computeTotals

end CallTree

namespace GrowingTree

/-- A tree with nothing but a root, drawing from a supply. -/
def start (label : String) (entry : Option CodeId) (ids : IdSupply) : GrowingTree where
  tree := { nodes := #[{ id := ids, label, entry, parent := none }] }
  ids := ids + 1

/-- A first tree of a new lineage. -/
def fresh (label : String) (entry : Option CodeId) : GrowingTree :=
  start label entry IdSupply.initial

/-- Change the tree and leave the supply alone. -/
def mapTree (growing : GrowingTree) (change : CallTree → CallTree) : GrowingTree :=
  { growing with tree := change growing.tree }

/-- Create a child. -/
def addChild (growing : GrowingTree) (parent : NodeIndex) (label : String)
    (entry : Option CodeId) : NodeIndex × GrowingTree :=
  let index := growing.tree.size
  let nodes := growing.tree.nodes.push { id := growing.ids, label, entry, parent := some parent }
  let nodes := nodes.modify parent fun node =>
    { node with
      children := node.children.push index
      byLabel := (label, index) :: node.byLabel }
  (index, { tree := { nodes, totalsValid := false }, ids := growing.ids + 1 })

/-- The child of a node with a label, created when there is none. -/
def findOrAddChild (growing : GrowingTree) (parent : NodeIndex) (label : String)
    (entry : Option CodeId) : NodeIndex × GrowingTree :=
  match growing.tree.findChild? parent label with
  | some child => (child, growing)
  | none => growing.addChild parent label entry

/-- Follow a path from `start`, creating nodes where there are none. -/
def addPathFrom (growing : GrowingTree) (start : NodeIndex) :
    List (String × Option CodeId) → NodeIndex × GrowingTree
  | [] => (start, growing)
  | (label, entry) :: path =>
    let (child, growing) := growing.findOrAddChild start label entry
    growing.addPathFrom child path

/-- Follow a path from the root, outermost call first. -/
def addPath (growing : GrowingTree) (path : List (String × Option CodeId)) :
    NodeIndex × GrowingTree :=
  growing.addPathFrom 0 path

end GrowingTree

end JitTrace
