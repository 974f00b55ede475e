import JitTrace.CallTree.Derived

/-!
# Reports on call trees

Two texts made of a tree: folded stacks, the input of flame graphs, and the
listing of the most expensive functions.
-/

namespace JitTrace

/-- Which weight a ranking goes by. -/
inductive WeightKind where
  | own
  | total
deriving DecidableEq, Repr

/-- A row of a function listing, with its shares of the whole in percent. -/
structure FunctionCost where
  label : String
  selfWeight : Nat
  totalWeight : Nat
  selfPercent : Float
  totalPercent : Float
deriving Inhabited

/-- The weight of a row that a ranking goes by. -/
def FunctionCost.weight (cost : FunctionCost) : WeightKind → Nat
  | .own => cost.selfWeight
  | .total => cost.totalWeight

namespace CallTree

/-- A label as part of a folded stack, whose parts are divided by semicolons. -/
def foldedLabel (label : String) : String :=
  String.ofList (label.toList.map fun c => if c == ';' then ':' else c)

/-- The line of a node in the folded stacks; none for a node without samples. -/
def foldedLine? (tree : CallTree) (index : NodeIndex) : Option String :=
  let weight := (tree.node index).selfWeight
  if weight == 0 then none
  else
    some (";".intercalate ((tree.pathLabels index).map foldedLabel) ++ " " ++
      toString weight ++ "\n")

/-- One line for each node with samples, in order of creation. The root is left
out. -/
def foldedStacks (tree : CallTree) : String :=
  String.join (((List.range tree.size).drop 1).filterMap tree.foldedLine?)

/-- The row of a node in a listing whose root has the given total. -/
def functionCost (node : CallNode) (total : Float) : FunctionCost where
  label := node.label
  selfWeight := node.selfWeight
  totalWeight := node.totalWeight
  selfPercent := node.selfWeight.toFloat * 100.0 / total
  totalPercent := node.totalWeight.toFloat * 100.0 / total

/-- Whether `left` stands before `right` in a ranking: the heavier one, or of two
equal ones the one with the smaller label. -/
def ranksBefore (kind : WeightKind) (left right : FunctionCost) : Bool :=
  match compare (right.weight kind) (left.weight kind) with
  | .lt => true
  | .eq => left.label ≤ right.label
  | .gt => false

/-- The `count` most expensive functions. The flat tree behind them draws ids. -/
def topFunctions (tree : CallTree) (count : Nat) (kind : WeightKind) (ids : IdSupply) :
    List FunctionCost × IdSupply :=
  let ⟨flat, ids⟩ := tree.flat none ids
  let total := (max (flat.node 0).totalWeight 1).toFloat
  let rows := (flat.node 0).children.toList.map fun row => functionCost (flat.node row) total
  ((rows.mergeSort (ranksBefore kind)).take count, ids)

end CallTree

end JitTrace
