import JitTrace.Proofs.CallTree.Flat
import Mathlib.Data.List.TakeWhile

/-!
# Where merged subtrees put a node

The subtrees of a label begin at the outermost nodes that carry it. A node in one of them is
copied to the chain of labels that leads to it from there, so nodes of different subtrees meet
where these chains are the same. The chain can be told from the labels above the node alone, and
that is how a walk that knows nothing but the copy of the parent gets it.
-/

namespace JitTrace.CallTree

variable {tree : CallTree} {label : String} {path : List String} {index : NodeIndex}

/-- The labels of the nodes above a node, from the outermost one that carries the given label
on. -/
def pathAbove (tree : CallTree) (label : String) (index : NodeIndex) : List String :=
  (tree.labelsAbove index).reverse.dropWhile (· != label)

/-- The same with the node's own label: the path of its copy. It is empty when the node has
none. -/
def copyPath (tree : CallTree) (label : String) (index : NodeIndex) : List String :=
  ((tree.node index).label :: tree.labelsAbove index).reverse.dropWhile (· != label)

/-- The chain of labels leads to the node from the start of a subtree. -/
def PlacedAt (tree : CallTree) (label : String) (path : List String) (index : NodeIndex) : Prop :=
  ∃ top < tree.size, tree.StartsRegion label top ∧ tree.findFrom? top path = some index

instance (tree : CallTree) (label : String) (path : List String) :
    DecidablePred (tree.PlacedAt label path) :=
  fun _ => inferInstanceAs (Decidable (∃ top < tree.size, _))

theorem pathAbove_eq_nil : tree.pathAbove label index = [] ↔ ¬ tree.InRegion label index := by
  rw [pathAbove, List.dropWhile_eq_nil_iff, inRegion_iff]
  simp only [List.mem_reverse, bne_iff_ne]
  exact ⟨fun apart carries => apart label carries rfl, fun outside _ above same =>
    outside (same ▸ above)⟩

theorem copyPath_of_outside (outside : ¬ tree.InRegion label index) :
    tree.copyPath label index = if (tree.node index).label = label then [label] else [] := by
  have nothing := pathAbove_eq_nil.mpr outside
  rw [pathAbove] at nothing
  rw [copyPath, List.reverse_cons, List.dropWhile_append, nothing]
  by_cases same : (tree.node index).label = label <;> simp [same]

theorem copyPath_of_inside (inside : tree.InRegion label index) :
    tree.copyPath label index = tree.pathAbove label index ++ [(tree.node index).label] := by
  have something : ¬ (tree.pathAbove label index).isEmpty = true := fun isEmpty =>
    pathAbove_eq_nil.mp (List.isEmpty_iff.mp isEmpty) inside
  rw [copyPath, List.reverse_cons, List.dropWhile_append]
  exact if_neg something

/-- A node has a copy when it starts a subtree or is inside one. -/
theorem copyPath_ne_nil : tree.copyPath label index ≠ [] ↔
    (tree.node index).label = label ∨ tree.InRegion label index := by
  by_cases inside : tree.InRegion label index
  · simp [copyPath_of_inside inside, inside]
  · simp [copyPath_of_outside inside, inside]

/-- Where there is a copy, the node's own label ends its path. -/
theorem copyPath_eq_append (copied : tree.copyPath label index ≠ []) :
    tree.copyPath label index = tree.pathAbove label index ++ [(tree.node index).label] := by
  by_cases inside : tree.InRegion label index
  · exact copyPath_of_inside inside
  · have same := (copyPath_ne_nil.mp copied).resolve_right inside
    rw [copyPath_of_outside inside, if_pos same, pathAbove_eq_nil.mpr inside, same]
    rfl

/-- The path of a copy begins with the label of the subtrees. -/
theorem head?_copyPath (copied : tree.copyPath label index ≠ []) :
    (tree.copyPath label index).head? = some label := by
  have unwanted := List.head?_dropWhile_not (· != label)
    ((tree.node index).label :: tree.labelsAbove index).reverse
  rw [← copyPath] at unwanted
  cases head : (tree.copyPath label index).head? with
  | none => exact absurd (List.head?_eq_none_iff.mp head) copied
  | some first =>
    rw [head] at unwanted
    simpa using unwanted

namespace Linked

theorem pathAbove_of_no_parent (isTop : (tree.node index).parent = none) :
    tree.pathAbove label index = [] :=
  pathAbove_eq_nil.mpr (inRegion_of_no_parent isTop)

/-- The copy of a child belongs below the copy of its parent. -/
theorem pathAbove_of_parent (linked : Linked tree) {parent : NodeIndex}
    (isParent : (tree.node index).parent = some parent) :
    tree.pathAbove label index = tree.copyPath label parent := by
  rw [pathAbove, linked.labelsAbove_of_parent isParent]
  rfl

/-- Below a node one of the copies that stand above or at its own has a given path, if that is a
front of its path, and otherwise none has. -/
theorem countP_lineage_copyPath (linked : Linked tree) (nonempty : path ≠ [])
    (index : NodeIndex) :
    (tree.lineage index).countP (fun above => tree.copyPath label above = path) =
      if path <+: tree.copyPath label index then 1 else 0 := by
  -- What is counted above a node is told by the path of its parent's copy.
  have step : ∀ {index count}, (count = if path <+: tree.pathAbove label index then 1 else 0) →
      (count + if tree.copyPath label index = path then 1 else 0) =
        if path <+: tree.copyPath label index then 1 else 0 := by
    rintro index count rfl
    by_cases copied : tree.copyPath label index = []
    · have outside := not_or.mp (mt copyPath_ne_nil.mpr (not_not.mpr copied))
      simp [copied, pathAbove_eq_nil.mpr outside.2, nonempty, nonempty.symm]
    · rw [copyPath_eq_append copied]
      by_cases whole : path = tree.pathAbove label index ++ [(tree.node index).label]
      · have longer : ¬ path <+: tree.pathAbove label index := fun front => by
          have length := front.length_le
          simp [whole] at length
        simp [← whole, longer]
      · simp [List.prefix_concat_iff, whole, eq_comm (b := path)]
  induction index using linked.induction_above with
  | top index isTop =>
    have nothing : 0 = if path <+: tree.pathAbove label index then 1 else 0 := by
      simp [pathAbove_of_no_parent isTop, nonempty]
    rw [lineage_of_no_parent isTop, List.countP_singleton, ← step nothing, Nat.zero_add]
    simp only [decide_eq_true_eq]
  | step index parent isParent inductionHypothesis =>
    rw [← linked.pathAbove_of_parent isParent] at inductionHypothesis
    rw [linked.lineage_of_parent isParent, List.countP_cons, ← step inductionHypothesis]
    simp only [decide_eq_true_eq]

/-- What is below the nodes that are copied to a path is what the nodes hold that are copied to
it or to a path that goes on from it. -/
theorem sum_weightBelow_copyPath (linked : Linked tree) (nonempty : path ≠ []) :
    ∑ index ∈ Finset.range tree.size with tree.copyPath label index = path,
        tree.weightBelow index =
      ∑ index ∈ Finset.range tree.size with path <+: tree.copyPath label index,
        (tree.node index).selfWeight := by
  rw [linked.sum_weightBelow, Finset.sum_filter]
  refine Finset.sum_congr rfl fun index _ => ?_
  rw [linked.countP_lineage_copyPath nonempty, ite_mul, one_mul, zero_mul]

end Linked

namespace Trie

/-- A chain of labels that goes on inside the subtrees goes on from the copy. -/
theorem copyPath_of_findFrom? (trie : Trie tree) {start last : NodeIndex}
    (copied : tree.copyPath label start ≠ []) (found : tree.findFrom? start path = some last) :
    tree.copyPath label last = tree.copyPath label start ++ path := by
  induction path generalizing start with
  | nil => rw [← Option.some.inj found, List.append_nil]
  | cons next path inductionHypothesis =>
    simp only [findFrom?] at found
    cases isChild : tree.findChild? start next with
    | none => simp [isChild] at found
    | some child =>
      rw [isChild] at found
      obtain ⟨listed, hasLabel⟩ := trie.findChild.mp isChild
      have above : tree.pathAbove label child = tree.copyPath label start :=
        trie.toLinked.pathAbove_of_parent (trie.mem_children.mp listed).2
      have inside : tree.InRegion label child := by
        by_contra outside
        exact copied (above ▸ pathAbove_eq_nil.mpr outside)
      have step : tree.copyPath label child = tree.copyPath label start ++ [next] := by
        rw [copyPath_of_inside inside, above, hasLabel]
      rw [inductionHypothesis (by simp [step]) found, step, List.append_assoc]
      rfl

/-- The path of a copy is the chain of labels from the start of the subtree. -/
theorem copyPath_eq_cons_iff (trie : Trie tree) (inside : index < tree.size) :
    tree.copyPath label index = label :: path ↔ tree.PlacedAt label path index := by
  have linked := trie.toLinked
  constructor
  · intro isCopy
    induction index using linked.induction_above generalizing path with
    | top index isTop =>
      have outside : ¬ tree.InRegion label index := Linked.inRegion_of_no_parent isTop
      rw [copyPath_of_outside outside] at isCopy
      split at isCopy
      · rename_i same
        obtain rfl := List.tail_eq_of_cons_eq isCopy
        exact ⟨index, inside, ⟨same, outside⟩, rfl⟩
      · contradiction
    | step index parent isParent inductionHypothesis =>
      have parentInside := Nat.lt_trans (linked.parent_lt isParent) inside
      have above : tree.pathAbove label index = tree.copyPath label parent :=
        linked.pathAbove_of_parent isParent
      by_cases within : tree.InRegion label index
      · rw [copyPath_of_inside within, above] at isCopy
        have copied : tree.copyPath label parent ≠ [] := fun nothing =>
          pathAbove_eq_nil.mp (above.trans nothing) within
        obtain ⟨front, isFront⟩ : ∃ front, tree.copyPath label parent = label :: front :=
          ⟨_, (List.cons_head?_tail (head?_copyPath copied)).symm⟩
        rw [isFront, List.cons_append, List.cons_inj_right] at isCopy
        obtain ⟨top, topInside, starts, found⟩ := inductionHypothesis parentInside isFront
        refine ⟨top, topInside, starts, ?_⟩
        rw [← isCopy, findFrom?_append, found, Option.bind_some, findFrom?_singleton,
          trie.findChild?_of_parent isParent]
      · rw [copyPath_of_outside within] at isCopy
        split at isCopy
        · rename_i same
          obtain rfl := List.tail_eq_of_cons_eq isCopy
          exact ⟨index, inside, ⟨same, within⟩, rfl⟩
        · contradiction
  · rintro ⟨top, -, ⟨same, outside⟩, found⟩
    have atTop : tree.copyPath label top = [label] := by
      rw [copyPath_of_outside outside, if_pos same]
    rw [trie.copyPath_of_findFrom? (by simp [atTop]) found, atTop]
    rfl

end Trie

end JitTrace.CallTree
