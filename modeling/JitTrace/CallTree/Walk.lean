import JitTrace.CallTree.Basic

/-!
# Walks over call trees

The two orders in which a tree is visited. A depth-first walk enters a node
before its subtree and leaves it afterwards; a breadth-first walk hands a value
from each node to its children.
-/

namespace JitTrace.CallTree

/-- A step of a depth-first walk. -/
inductive Visit where
  | enter (index : NodeIndex)
  | leave (index : NodeIndex)
deriving Repr, DecidableEq

/-- Run a stack of pending visits. Entering a node puts its children, and then
its own leaving, on top of the stack. -/
def runVisits (tree : CallTree) : Nat → List Visit → List Visit
  | 0, _ => []
  | _, [] => []
  | fuel + 1, .leave index :: pending => .leave index :: tree.runVisits fuel pending
  | fuel + 1, .enter index :: pending =>
    .enter index ::
      tree.runVisits fuel
        ((tree.node index).children.toList.map .enter ++ .leave index :: pending)

/-- The depth-first walk from the root. Every node is entered and left once, so
twice the number of nodes bounds the steps. -/
def depthFirst (tree : CallTree) : List Visit :=
  tree.runVisits (2 * tree.size) [.enter 0]

/-- The nodes in the order in which a depth-first walk enters them. -/
def preOrder (tree : CallTree) : List NodeIndex :=
  tree.depthFirst.filterMap fun visit =>
    match visit with
    | .enter index => some index
    | .leave _ => none

variable {State Passed : Type}

/-- Run a queue of pending visits with the values passed to them. -/
def runQueue (tree : CallTree)
    (visit : State → NodeIndex → Option Passed → State × Option Passed) :
    Nat → List (NodeIndex × Option Passed) → State → State
  | 0, _, state => state
  | _, [], state => state
  | fuel + 1, (index, passed) :: pending, state =>
    let (state, next) := visit state index passed
    tree.runQueue visit fuel
      (pending ++ (tree.node index).children.toList.map fun child => (child, next)) state

/-- The breadth-first walk from the root. The visitor gets the value that the
visit to the parent returned, and returns the value for the children. -/
def breadthFirst (tree : CallTree)
    (visit : State → NodeIndex → Option Passed → State × Option Passed) (state : State) : State :=
  tree.runQueue visit tree.size [(0, none)] state

end JitTrace.CallTree
