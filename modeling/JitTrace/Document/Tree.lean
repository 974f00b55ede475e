import JitTrace.CallTree.Report
import JitTrace.CallTree.View
import JitTrace.Document.Code

/-!
# Documents of call trees

The documents of call trees, of views and of function listings: rows in the order
in which a depth-first walk enters the nodes.
-/

namespace JitTrace.Document

/-- A node of a call tree, with its id where that is wanted. -/
def callNode (tree : CallTree) (withIds : Bool) (index : NodeIndex) : Json :=
  let node := tree.node index
  Json.ofMembers <|
    [("depth", nat (tree.ancestors index).length), ("label", text node.label),
      ("self", nat node.selfWeight), ("total", nat node.totalWeight),
      ("lines", list (fun (line, count) => .array [nat line, nat count]) node.lineTicks),
      ("entry", optional codeId node.entry)] ++
    (if withIds then [("id", nat node.id.toNat)] else [])

/-- A call tree. -/
def callTree (tree : CallTree) (withIds : Bool) : Json :=
  list (callNode tree withIds) tree.preOrder

/-- A step of a depth-first walk. -/
def visit (tree : CallTree) : CallTree.Visit → Json
  | .enter index => .array [text "enter", text (tree.node index).label]
  | .leave index => .array [text "exit", text (tree.node index).label]

/-- A row of a view. -/
def viewRow (depth : Nat) (row : ViewRow) : Json :=
  .array
    [nat depth, text row.label, optional codeId row.entry, float row.totalTime,
      float row.selfTime, float row.totalPercent, float row.selfPercent,
      float row.parentTotalPercent]

/-- A view. -/
def view (view : ProfileView) : Json :=
  list (fun (depth, row) => viewRow depth row) (view.rows 0)

/-- A row of a function listing. -/
def functionCost (cost : FunctionCost) : Json :=
  .array [text cost.label, nat cost.selfWeight, nat cost.totalWeight, float cost.selfPercent,
    float cost.totalPercent]

end JitTrace.Document
