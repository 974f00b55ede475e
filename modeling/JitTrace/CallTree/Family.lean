import JitTrace.CallTree.Derived

/-!
# Families of call trees

The trees of one lineage: a first tree and all that have been copied or derived
from its members. They draw their node ids from one supply.
-/

namespace JitTrace

/-- The trees of a lineage, in order of creation, and the supply they share. -/
structure TreeFamily where
  trees : Array CallTree
  ids : IdSupply
deriving Inhabited

namespace TreeFamily

/-- The family of a first tree. -/
def ofFirst (growing : GrowingTree) : TreeFamily where
  trees := #[growing.tree]
  ids := growing.ids

/-- A member, ready to grow. -/
def member (family : TreeFamily) (index : Nat) : GrowingTree where
  tree := family.trees.getD index default
  ids := family.ids

/-- Put a member that has grown back into its place. -/
def replace (family : TreeFamily) (index : Nat) (growing : GrowingTree) : TreeFamily where
  trees := family.trees.modify index fun _ => growing.tree
  ids := growing.ids

/-- Add a tree that was derived from a member. -/
def adopt (family : TreeFamily) (growing : GrowingTree) : TreeFamily where
  trees := family.trees.push growing.tree
  ids := growing.ids

end TreeFamily

end JitTrace
