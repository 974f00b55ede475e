import JitTrace.CallTree.Walk
import JitTrace.Tally

/-!
# Trees derived from call trees

Three other views of the same samples: subtrees of one function merged together,
callers below their callees, and one row for each function. A derived tree draws
its ids from the supply of the tree it comes from, which it leaves unchanged.
-/

namespace JitTrace.CallTree

/-- Add the samples of a node to a node of another tree. -/
def absorb (node : CallNode) (target : CallNode) : CallNode :=
  { target with
    selfWeight := target.selfWeight + node.selfWeight
    lineTicks := target.lineTicks.merge node.lineTicks }

/-- Copy one node of a breadth-first walk. Outside the wanted subtrees nothing is
copied; a copied node hands its copy to its children as their parent. -/
def copyNode (tree : CallTree) (label : String) (growing : GrowingTree) (index : NodeIndex)
    (copiedParent : Option NodeIndex) : GrowingTree × Option NodeIndex :=
  let node := tree.node index
  if copiedParent.isNone && node.label != label then (growing, none)
  else
    let (copy, growing) :=
      growing.findOrAddChild (copiedParent.getD 0) node.label node.entry
    (growing.mapTree fun copied => copied.modifyNode copy (absorb node), some copy)

/-- The subtrees whose roots carry a label, under one new root, nodes at the same
place merged. -/
def subtrees (tree : CallTree) (label : String) (ids : IdSupply) : GrowingTree :=
  let copied := tree.breadthFirst (tree.copyNode label) (GrowingTree.start rootLabel none ids)
  copied.mapTree computeTotals

/-- Add the samples of one node to the path of its callers, innermost first. -/
def addCallers (tree : CallTree) (growing : GrowingTree) (index : NodeIndex) : GrowingTree :=
  let weight := (tree.node index).selfWeight
  if weight == 0 then growing
  else
    let path := (tree.callChain index).map fun ancestor =>
      ((tree.node ancestor).label, (tree.node ancestor).entry)
    let (last, growing) := growing.addPath path
    growing.mapTree fun inverted => inverted.modifyNode last fun node =>
      { node with selfWeight := node.selfWeight + weight }

/-- The inverted tree: below each function stand its callers. Samples are counted
at the outermost caller, so the total of a first-level node is the function's
own time. -/
def bottomUp (tree : CallTree) (ids : IdSupply) : GrowingTree :=
  let root := tree.node 0
  let inverted := ((List.range tree.size).drop 1).foldl tree.addCallers
    (GrowingTree.start root.label root.entry ids)
  inverted.mapTree fun inverted =>
    (inverted.modifyNode 0 fun node => { node with selfWeight := root.selfWeight }).computeTotals

/-- Where the walk that fills a flat tree has got to. -/
structure FlatWalk where
  growing : GrowingTree
  /-- How often each label stands between the outermost node of the region and here. -/
  depths : Tally String := []

namespace FlatWalk

/-- Whether the walk has entered the region. -/
def inside (walk : FlatWalk) (region : String) : Bool :=
  0 < Tally.count walk.depths region

/-- Count a node that starts the region for the root. -/
def addToRoot (growing : GrowingTree) (node : CallNode) : GrowingTree :=
  growing.mapTree fun flat => flat.modifyNode 0 fun root =>
    { root with
      selfWeight := root.selfWeight + node.selfWeight
      totalWeight := root.totalWeight + node.totalWeight }

/-- Count a node inside the region for the row of its label. -/
def addToRow (growing : GrowingTree) (node : CallNode) (outermost : Bool) : GrowingTree :=
  let (row, growing) := growing.findOrAddChild 0 node.label node.entry
  growing.mapTree fun flat => flat.modifyNode row fun row =>
    { row with
      selfWeight := row.selfWeight + node.selfWeight
      totalWeight := row.totalWeight + if outermost then node.totalWeight else 0 }

/-- Enter a node. A row's total leaves out nodes whose function is already running
inside the region; for nodes labelled like the region itself it does not. -/
def enter (walk : FlatWalk) (region : String) (node : CallNode) : FlatWalk :=
  let isRegion := node.label == region
  if isRegion || walk.inside region then
    { growing :=
        if walk.inside region then
          addToRow walk.growing node (isRegion || Tally.count walk.depths node.label == 0)
        else addToRoot walk.growing node
      depths := Tally.bump node.label walk.depths }
  else walk

/-- Leave a node. Whether it was counted on the way in is decided once more. -/
def leave (walk : FlatWalk) (region : String) (node : CallNode) : FlatWalk :=
  if node.label == region || walk.inside region then
    { walk with depths := Tally.lower node.label walk.depths }
  else walk

/-- One step of the walk. -/
def visit (tree : CallTree) (region : String) (walk : FlatWalk) : Visit → FlatWalk
  | .enter index => walk.enter region (tree.node index)
  | .leave index => walk.leave region (tree.node index)

end FlatWalk

/-- One row for each function below the nodes labelled `region`, or below the
root when no region is given. -/
def flat (tree : CallTree) (region : Option String) (ids : IdSupply) : GrowingTree :=
  let tree := tree.withTotals
  let region := region.getD rootLabel
  let walk := tree.depthFirst.foldl (FlatWalk.visit tree region)
    { growing := GrowingTree.start region none ids }
  walk.growing.mapTree fun flat => { flat with totalsValid := true }

end JitTrace.CallTree
