import JitTrace.Proofs.CallTree.Derived

/-!
# Trees that arise

The trees that samples and derivations build from fresh ones. Trees of one lineage draw
ids from one supply, so between two steps of one tree others may have drawn. All these
trees are tries. Their totals are up to date whenever they say so, except in the rows of
functions: there a total leaves out what recursion would count twice.
-/

namespace JitTrace

open CallTree (Climbs Gathered Reweighted)

namespace GrowingTree

/-- Whether the totals of a tree are those of calls below calls, or those of rows of
functions. -/
inductive Layout where
  | nested
  | rows

/-- A tree arises by any sequence of steps from a fresh tree. A copy of a tree is the tree
itself, and goes on with the same supply. -/
inductive Arises : Layout → GrowingTree → Prop
  | fresh (label : String) (entry : Option CodeId) : Arises .nested (fresh label entry)
  | addPath {layout : Layout} {growing : GrowingTree} (path : List (String × Option CodeId)) :
    Arises layout growing → Arises layout (growing.addPath path).2
  | findOrAddChild {layout : Layout} {growing : GrowingTree} {parent : NodeIndex}
    (label : String) (entry : Option CodeId) : parent < growing.tree.size →
      Arises layout growing → Arises layout (growing.findOrAddChild parent label entry).2
  | recordSample {layout : Layout} {growing : GrowingTree} (index : NodeIndex)
    (line : Option Nat) : Arises layout growing →
      Arises layout (growing.mapTree fun tree => tree.recordSample index line)
  | moveSample {layout : Layout} {growing : GrowingTree} (source : NodeIndex)
    (sourceLine : Option Nat) (target : NodeIndex) (targetLine : Option Nat) :
    Arises layout growing → Arises layout
      (growing.mapTree fun tree => tree.moveSample source sourceLine target targetLine)
  | computeTotals {layout : Layout} {growing : GrowingTree} :
    Arises layout growing → Arises layout (growing.mapTree CallTree.computeTotals)
  | draw {layout : Layout} {growing : GrowingTree} (ids : IdSupply) :
    Arises layout growing → Arises layout { growing with ids }
  | bottomUp {layout : Layout} {growing : GrowingTree} :
    Arises layout growing → Arises .nested (growing.tree.bottomUp growing.ids)
  | subtrees {layout : Layout} {growing : GrowingTree} (label : String) :
    Arises layout growing → Arises .nested (growing.tree.subtrees label growing.ids)
  | flat {layout : Layout} {growing : GrowingTree} (region : Option String) :
    Arises layout growing → Arises .rows (growing.tree.flat region growing.ids)

variable {layout : Layout} {growing : GrowingTree}

theorem Arises.trie (arises : Arises layout growing) : growing.tree.Trie := by
  induction arises with
  | fresh label entry => exact trie_start label entry .initial
  | addPath path _ trie => exact (reached_addPath trie path).trie
  | findOrAddChild label entry inside _ trie =>
    exact (reached_findOrAddChild trie inside label entry).trie
  | recordSample index line _ trie => exact trie.reweighted (.recordSample _ index line)
  | moveSample source sourceLine target targetLine _ trie =>
    exact trie.reweighted (.moveSample _ source sourceLine target targetLine)
  | computeTotals _ trie => exact trie.reweighted (.computeTotals _)
  | draw _ _ trie => exact trie
  | @bottomUp _ growing =>
    obtain ⟨inverted, trie, isInverted⟩ :=
      growing.tree.exists_computeTotals_bottomUp growing.ids
    exact isInverted ▸ trie.reweighted (.computeTotals inverted)
  | @subtrees _ growing label =>
    obtain ⟨copied, trie, isCopied⟩ :=
      growing.tree.exists_computeTotals_subtrees label growing.ids
    exact isCopied ▸ trie.reweighted (.computeTotals copied)
  | flat => exact CallTree.trie_flat ..

/-- What the links and the labels of a tree promise to whoever finds their way in it. -/
structure Navigable (growing : GrowingTree) : Prop where
  /-- The root alone has no parent. -/
  parent_eq_none : ∀ index < growing.tree.size,
    ((growing.tree.node index).parent = none ↔ index = 0)
  /-- Every other node comes after its parent, which lists it once, and no other node
  lists it. -/
  listed_once : ∀ index < growing.tree.size, index ≠ 0 → ∃ parent < index,
    (growing.tree.node index).parent = some parent ∧
      ∀ other, (growing.tree.node other).children.toList.count index =
        if other = parent then 1 else 0
  distinct_labels : ∀ parent, ((growing.tree.node parent).children.toList.map fun child =>
    (growing.tree.node child).label).Nodup
  /-- A child is found under its label, and nothing else is found. -/
  findChild : ∀ parent label child, growing.tree.findChild? parent label = some child ↔
    child ∈ (growing.tree.node parent).children ∧ (growing.tree.node child).label = label
  findPath : ∀ index < growing.tree.size,
    growing.tree.findPath? (growing.tree.pathLabels index) = some index
  /-- Adding the path of a node leads to the node and creates none. -/
  addPath : ∀ index < growing.tree.size, ∀ path : List (String × Option CodeId),
    path.map Prod.fst = growing.tree.pathLabels index → growing.addPath path = (index, growing)
  /-- Climbing from parent to parent ends, at the ancestor below the root. -/
  climbs : ∀ index < growing.tree.size,
    Climbs growing.tree index (growing.tree.topLevelAncestor? index)
  no_topLevelAncestor : ∀ index < growing.tree.size,
    (growing.tree.topLevelAncestor? index = none ↔ index = 0)
  topLevelAncestor : ∀ index < growing.tree.size, ∀ above,
    growing.tree.topLevelAncestor? index = some above ↔
      above ∈ growing.tree.lineage index ∧ (growing.tree.node above).parent = some 0

/-- Every tree that arises can be navigated by its links and by its labels. -/
theorem navigable_of_arises (arises : Arises layout growing) : Navigable growing := by
  have trie := arises.trie
  have linked := trie.toLinked
  refine {
    parent_eq_none := fun _ => linked.parent_eq_none
    listed_once := fun index inside notRoot => ?_
    distinct_labels := trie.distinct_labels
    findChild := fun _ _ _ => trie.findChild
    findPath := fun _ => trie.findPath?_pathLabels
    addPath := fun index inside path labels => ?_
    climbs := fun _ => linked.climbs
    no_topLevelAncestor := fun _ _ => CallTree.topLevelAncestor?_eq_none
    topLevelAncestor := fun _ inside _ => linked.topLevelAncestor?_eq_some inside }
  · obtain ⟨parent, isParent, before⟩ :=
      linked.exists_parent index (Nat.pos_of_ne_zero notRoot) inside
    refine ⟨parent, before, isParent, fun other => ?_⟩
    have isChild : index ∈ (growing.tree.node other).children.toList ↔ other = parent := by
      rw [Array.mem_toList_iff, linked.mem_children, isParent, Option.some.injEq, eq_comm]
      exact and_iff_right inside
    rw [(linked.distinct other).count]
    simp only [isChild]
  · refine addPathFrom_of_findFrom? ?_
    rw [labels]
    exact trie.findPath?_pathLabels inside

/-- A function called below another and one called on its own, with a sample each, and
then the callers below them. -/
def sampledTwice : GrowingTree :=
  let nested := ((fresh CallTree.rootLabel none).addPath [("main", none), ("work", none)]).2
  let once := nested.mapTree fun tree => tree.recordSample 2 none
  let both := (once.addPath [("idle", none)]).2
  let twice := both.mapTree fun tree => tree.recordSample 3 none
  twice.tree.bottomUp twice.ids

theorem arises_sampledTwice : Arises .nested sampledTwice := by
  have once := (Arises.fresh CallTree.rootLabel none).addPath [("main", none), ("work", none)]
  have both := (once.recordSample 2 none).addPath [("idle", none)]
  exact (both.recordSample 3 none).bottomUp

theorem navigable_sampledTwice : Arises .nested sampledTwice ∧ Navigable sampledTwice :=
  ⟨arises_sampledTwice, navigable_of_arises arises_sampledTwice⟩

/-! ## Totals -/

/-- A step that leaves totals valid has created no node. -/
theorem findOrAddChild_of_valid {parent : NodeIndex} {label : String} {entry : Option CodeId}
    (valid : (growing.findOrAddChild parent label entry).2.tree.totalsValid = true) :
    (growing.findOrAddChild parent label entry).2 = growing := by
  rw [findOrAddChild] at valid ⊢
  split
  · rfl
  · rename_i isNew
    rw [isNew] at valid
    contradiction

theorem addPathFrom_of_valid {start : NodeIndex} {path : List (String × Option CodeId)}
    (valid : (growing.addPathFrom start path).2.tree.totalsValid = true) :
    (growing.addPathFrom start path).2 = growing := by
  induction path generalizing growing start with
  | nil => rfl
  | cons step path inductionHypothesis =>
    simp only [addPathFrom] at valid ⊢
    have rest := inductionHypothesis valid
    rw [rest] at valid ⊢
    exact findOrAddChild_of_valid valid

/-- Valid totals of calls below calls are gathered. -/
theorem Arises.gathered (arises : Arises layout growing) (nested : layout = .nested)
    (valid : growing.tree.totalsValid = true) : Gathered growing.tree := by
  induction arises with
  | fresh label entry =>
    intro index inside
    obtain rfl := Nat.lt_one_iff.mp inside
    rfl
  | addPath path _ gathered =>
    have same := addPathFrom_of_valid valid
    rw [GrowingTree.addPath, same] at valid ⊢
    exact gathered nested valid
  | findOrAddChild label entry inside _ gathered =>
    have same := findOrAddChild_of_valid valid
    rw [same] at valid ⊢
    exact gathered nested valid
  | recordSample => contradiction
  | moveSample => contradiction
  | computeTotals arises _ => exact arises.trie.toRooted.gathered_computeTotals
  | draw _ _ gathered => exact gathered nested valid
  | @bottomUp _ growing =>
    obtain ⟨_, trie, isInverted⟩ := growing.tree.exists_computeTotals_bottomUp growing.ids
    exact isInverted ▸ trie.toRooted.gathered_computeTotals
  | @subtrees _ growing label =>
    obtain ⟨_, trie, isCopied⟩ := growing.tree.exists_computeTotals_subtrees label growing.ids
    exact isCopied ▸ trie.toRooted.gathered_computeTotals
  | flat => contradiction

/-- Where a tree says that its totals are up to date, every total is the node's own weight
and the totals of its children, and the root holds the sum of all weights. -/
theorem totals_of_arises (arises : Arises .nested growing)
    (valid : growing.tree.totalsValid = true) :
    (∀ index < growing.tree.size, (growing.tree.node index).totalWeight =
      (growing.tree.node index).selfWeight +
        ((growing.tree.node index).children.toList.map fun child =>
          (growing.tree.node child).totalWeight).sum) ∧
      (growing.tree.node 0).totalWeight =
        ∑ index ∈ Finset.range growing.tree.size, (growing.tree.node index).selfWeight := by
  have gathered := arises.gathered rfl valid
  have linked := arises.trie.toLinked
  refine ⟨fun index inside => ?_, linked.root_of_gathered gathered⟩
  rw [gathered index inside,
    linked.sum_children index fun child => (growing.tree.node child).totalWeight]

theorem totals_sampledTwice : Arises .nested sampledTwice ∧
    sampledTwice.tree.totalsValid = true ∧ (sampledTwice.tree.node 0).totalWeight = 2 ∧
    (sampledTwice.tree.node 0).totalWeight =
      ∑ index ∈ Finset.range sampledTwice.tree.size,
        (sampledTwice.tree.node index).selfWeight :=
  ⟨arises_sampledTwice, rfl, by decide +kernel,
    (totals_of_arises arises_sampledTwice rfl).2⟩

end GrowingTree

end JitTrace
