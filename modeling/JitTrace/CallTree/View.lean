import JitTrace.CallTree.Basic

/-!
# Views of call trees

A view is a copy of a call tree with times in place of sample counts and with
percentages filled in, ready to be sorted and shown.
-/

namespace JitTrace

/-- What a view shows of one node. -/
structure ViewRow where
  label : String
  entry : Option CodeId
  totalTime : Float
  selfTime : Float
  /-- Shares of the total time of the whole view. -/
  totalPercent : Float := 0.0
  selfPercent : Float := 0.0
  /-- Share of the parent's total time. -/
  parentTotalPercent : Float := 0.0
deriving Inhabited

/-- A view of a tree or subtree. -/
inductive ProfileView where
  | node (row : ViewRow) (children : List ProfileView)
deriving Inhabited

namespace ProfileView

/-- The row at the head of a view. -/
def row : ProfileView → ViewRow
  | .node row _ => row

/-- The views below the head. -/
def children : ProfileView → List ProfileView
  | .node _ children => children

/-- A share in percent; zero of nothing. -/
def percent (part whole : Float) : Float :=
  if 0.0 < whole then part * 100.0 / whole else 0.0

mutual

/-- Fill in the percentages of a view. -/
def fillPercents (headTotal parentTotal : Float) : ProfileView → ProfileView
  | .node row children =>
    .node
      { row with
        totalPercent := percent row.totalTime headTotal
        selfPercent := percent row.selfTime headTotal
        parentTotalPercent := percent row.totalTime parentTotal }
      (fillAll headTotal row.totalTime children)

/-- Fill in the percentages of the views below a head. -/
def fillAll (headTotal parentTotal : Float) : List ProfileView → List ProfileView
  | [] => []
  | view :: views => view.fillPercents headTotal parentTotal :: fillAll headTotal parentTotal views

end

mutual

/-- Sort the children on every level. -/
def sort (before : ViewRow → ViewRow → Bool) : ProfileView → ProfileView
  | .node row children =>
    .node row ((sortAll before children).mergeSort fun left right => before left.row right.row)

/-- Sort below every view of a list. -/
def sortAll (before : ViewRow → ViewRow → Bool) : List ProfileView → List ProfileView
  | [] => []
  | view :: views => view.sort before :: sortAll before views

end

/-- Order by descending total time, then by label. -/
def byTotal (left right : ViewRow) : Bool :=
  if right.totalTime < left.totalTime then true
  else if left.totalTime < right.totalTime then false
  else left.label ≤ right.label

/-- Order by descending label. -/
def byLabelDescending (left right : ViewRow) : Bool :=
  right.label ≤ left.label

mutual

/-- The rows with their depths, each before the rows below it. -/
def rows (depth : Nat) : ProfileView → List (Nat × ViewRow)
  | .node row children => (depth, row) :: rowsOfAll (depth + 1) children

/-- The rows of several views. -/
def rowsOfAll (depth : Nat) : List ProfileView → List (Nat × ViewRow)
  | [] => []
  | view :: views => view.rows depth ++ rowsOfAll depth views

end

/-- The time shown as a node's own. In an inverted tree a function's own time is
the total of its first-level node, and its callers have none. -/
def selfTime (node : CallNode) (rate : Float) (inverted : Bool) (depth : Nat) : Float :=
  if inverted then
    if depth == 1 then node.totalWeight.toFloat * rate else 0.0
  else node.selfWeight.toFloat * rate

/-- The view of a subtree, without percentages. Children come after their parents,
so the number of nodes bounds the depth. -/
def ofNode (tree : CallTree) (rate : Float) (inverted : Bool) :
    Nat → NodeIndex → Nat → ProfileView
  | 0, _, _ => default
  | fuel + 1, index, depth =>
    let node := tree.node index
    .node
      { label := node.label
        entry := node.entry
        totalTime := node.totalWeight.toFloat * rate
        selfTime := selfTime node rate inverted depth }
      (node.children.toList.map fun child => ofNode tree rate inverted fuel child (depth + 1))

/-- The view of a tree, where a sample stands for `rate` units of time. -/
def ofTree (tree : CallTree) (rate : Float) (inverted : Bool) : ProfileView :=
  let tree := tree.withTotals
  let view := ofNode tree rate inverted tree.size 0 0
  view.fillPercents view.row.totalTime view.row.totalTime

end ProfileView

end JitTrace
