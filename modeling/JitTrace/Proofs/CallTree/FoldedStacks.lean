import JitTrace.CallTree.Report
import JitTrace.Proofs.CallTree.Inversion
import JitTrace.Proofs.Number.Decimal
import JitTrace.Proofs.Text.Cut

/-!
# Reading folded stacks back

Folded stacks are read line by line: the number behind the last space is the weight, and the
frames before it are divided by semicolons. A label may hold spaces and semicolons, since the
last space is that of the weight and semicolons are replaced. Line feeds are written as they
are, and a label that has one breaks its line.
-/

namespace JitTrace

/-! ## Lines -/

namespace Text

theorem withoutReturn_of_getLast?_ne {cs : List Char} (unreturned : cs.getLast? ≠ some '\r') :
    withoutReturn cs = cs := by
  rw [withoutReturn]
  split
  · contradiction
  · rfl

/-- The first line of a text ends with the first line feed. -/
theorem lines_append {front : List Char} (unbroken : '\n' ∉ front) (rest : List Char) :
    lines (front ++ '\n' :: rest) = withoutReturn front :: lines rest := by
  obtain ⟨piece, pieces, split⟩ := List.exists_cons_of_ne_nil (List.splitOn_ne_nil '\n' rest)
  rw [lines, lines, List.splitOn_append_cons_self_of_not_mem unbroken, split]
  dsimp only
  rw [List.getLast?_cons_cons, List.dropLast_cons_cons, List.map_cons]
  split <;> rfl

/-- A line that has line feeds of its own counts as one more for each. -/
theorem length_lines_append (body rest : List Char) :
    (lines (body ++ '\n' :: rest)).length = body.count '\n' + 1 + (lines rest).length := by
  by_cases broken : '\n' ∈ body
  · obtain ⟨front, back, rfl, unbroken⟩ := List.eq_append_cons_of_mem broken
    rw [List.append_assoc, List.cons_append, lines_append unbroken, List.length_cons,
      length_lines_append back rest, List.count_append, List.count_eq_zero.mpr unbroken,
      List.count_cons_self]
    omega
  · rw [lines_append broken, List.length_cons, List.count_eq_zero.mpr broken]
    omega
termination_by body.length

end Text

/-! ## Stacks -/

/-- A line of folded stacks: the frames of a stack, outermost first, and the samples that ended
in the last of them. -/
structure FoldedStack where
  frames : List String
  weight : Nat
deriving DecidableEq, Repr

namespace FoldedStack

/-- The stack that a line holds. -/
def ofLine? (line : List Char) : Option FoldedStack := do
  let (stack, digits) ← Text.cutLast ' ' line
  let weight ← Number.natural? 10 digits
  return { frames := (stack.splitOn ';').map String.ofList, weight }

/-- The stacks that a text holds, one on each line; none when a line holds no stack. -/
def readLines? (text : String) : Option (List FoldedStack) :=
  (Text.lines text.toList).mapM ofLine?

/-- The line of a stack. -/
def line (stack : FoldedStack) : List Char :=
  [';'].intercalate (stack.frames.map String.toList) ++ ' ' :: Nat.toDigits 10 stack.weight

/-- Whatever else the frames hold, the stack is read back from its line. -/
theorem ofLine?_line {stack : FoldedStack} (nonempty : stack.frames ≠ [])
    (clear : ∀ frame ∈ stack.frames, ';' ∉ frame.toList) : ofLine? stack.line = some stack := by
  have divided : ([';'].intercalate (stack.frames.map String.toList)).splitOn ';' =
      stack.frames.map String.toList :=
    List.splitOn_intercalate ';' (List.forall_mem_map.mpr clear)
      (mt List.map_eq_nil_iff.mp nonempty)
  rw [ofLine?, line, Text.cutLast_append (Number.notMem_toDigits rfl _)]
  simp [Number.natural?_ten.mpr (Number.decimalNumber_toDigits _), divided, Function.comp_def]

theorem withoutReturn_line (stack : FoldedStack) : Text.withoutReturn stack.line = stack.line := by
  refine Text.withoutReturn_of_getLast?_ne fun returned => ?_
  rw [line, List.getLast?_append_of_ne_nil _ (List.cons_ne_nil _ _),
    List.getLast?_cons_of_ne_nil Nat.toDigits_ne_nil] at returned
  exact Number.notMem_toDigits rfl _ (List.mem_of_getLast? returned)

theorem count_intercalate {separator c : Char} (differs : separator ≠ c)
    (parts : List (List Char)) :
    ([separator].intercalate parts).count c = (parts.map (List.count c)).sum := by
  induction parts with
  | nil => rfl
  | cons part parts inductionHypothesis =>
    cases parts with
    | nil => simp
    | cons next parts =>
      rw [List.intercalate_cons_cons, List.count_append, List.count_append, inductionHypothesis,
        List.count_singleton, if_neg (by simpa using differs), List.map_cons, List.sum_cons]
      rfl

/-- Only the frames can break the line of a stack. -/
theorem count_line (stack : FoldedStack) :
    stack.line.count '\n' = (stack.frames.map fun frame => frame.toList.count '\n').sum := by
  rw [line, List.count_append, count_intercalate (by decide), List.map_map,
    List.count_cons_of_ne (by decide), List.count_eq_zero.mpr (Number.notMem_toDigits rfl _)]
  rfl

theorem lines_flatMap {written : List FoldedStack}
    (unbroken : ∀ stack ∈ written, stack.line.count '\n' = 0) :
    Text.lines (written.flatMap fun stack => stack.line ++ ['\n']) = written.map line := by
  induction written with
  | nil => rfl
  | cons stack written inductionHypothesis =>
    obtain ⟨first, further⟩ := List.forall_mem_cons.mp unbroken
    rw [List.flatMap_cons, List.append_assoc, List.singleton_append,
      Text.lines_append (List.count_eq_zero.mp first), withoutReturn_line,
      inductionHypothesis further, List.map_cons]

theorem length_lines_flatMap (written : List FoldedStack) :
    (Text.lines (written.flatMap fun stack => stack.line ++ ['\n'])).length =
      (written.map fun stack => stack.line.count '\n' + 1).sum := by
  induction written with
  | nil => rfl
  | cons stack written inductionHypothesis =>
    rw [List.flatMap_cons, List.append_assoc, List.singleton_append, Text.length_lines_append,
      inductionHypothesis, List.map_cons, List.sum_cons]

theorem mapM_eq_some {Item Value : Type} {read? : Item → Option Value} {items : List Item}
    {values : List Value} : items.mapM read? = some values ↔
      List.Forall₂ (fun item value => read? item = some value) items values := by
  induction items generalizing values with
  | nil => simp [eq_comm]
  | cons item items inductionHypothesis =>
    simp only [List.mapM_cons, Option.bind_eq_bind, Option.bind_eq_some_iff, inductionHypothesis,
      List.forall₂_cons_left_iff, Option.pure_def, Option.some.injEq]
    constructor
    · rintro ⟨value, isRead, further, each, rfl⟩
      exact ⟨value, further, isRead, each, rfl⟩
    · rintro ⟨value, further, isRead, each, rfl⟩
      exact ⟨value, isRead, further, each, rfl⟩

/-- Stacks written on a line each are read back exactly when no frame breaks its line. -/
theorem readLines?_flatMap {written : List FoldedStack}
    (nonempty : ∀ stack ∈ written, stack.frames ≠ [])
    (clear : ∀ stack ∈ written, ∀ frame ∈ stack.frames, ';' ∉ frame.toList) :
    readLines? (String.ofList (written.flatMap fun stack => stack.line ++ ['\n'])) = some written ↔
      ∀ stack ∈ written, stack.line.count '\n' = 0 := by
  rw [readLines?, String.toList_ofList, mapM_eq_some]
  constructor
  · intro each
    have lengths := each.length_eq
    rw [length_lines_flatMap, List.sum_map_add, List.map_const', List.sum_replicate_nat,
      Nat.mul_one, Nat.add_eq_right, List.sum_eq_zero_iff] at lengths
    exact List.forall_mem_map.mp lengths
  · intro unbroken
    rw [lines_flatMap unbroken, List.forall₂_map_left_iff, List.forall₂_same]
    exact fun stack inside => ofLine?_line (nonempty stack inside) (clear stack inside)

end FoldedStack

/-! ## Nodes with samples -/

namespace CallTree

variable {tree : CallTree}

/-- The stack that a node stands for, with its own samples. -/
def foldedStack (tree : CallTree) (index : NodeIndex) : FoldedStack where
  frames := (tree.pathLabels index).map foldedLabel
  weight := (tree.node index).selfWeight

/-- How often the labels on the path of a node break a line. -/
def lineBreaks (tree : CallTree) (index : NodeIndex) : Nat :=
  ((tree.pathLabels index).map fun label => label.toList.count '\n').sum

theorem notMem_foldedLabel (label : String) : ';' ∉ (foldedLabel label).toList := by
  rw [foldedLabel, String.toList_ofList, List.mem_map]
  rintro ⟨c, -, isSemicolon⟩
  split at isSemicolon
  · contradiction
  · rename_i differs
    exact differs (beq_iff_eq.mpr isSemicolon)

theorem count_foldedLabel (label : String) :
    (foldedLabel label).toList.count '\n' = label.toList.count '\n' := by
  rw [foldedLabel, String.toList_ofList, List.count, List.countP_map]
  refine List.countP_congr fun c _ => ?_
  rw [Function.comp]
  split
  · rename_i isSemicolon
    rw [beq_iff_eq.mp isSemicolon]
    decide
  · rfl

theorem count_foldedStack (tree : CallTree) (index : NodeIndex) :
    (tree.foldedStack index).line.count '\n' = tree.lineBreaks index := by
  simp only [FoldedStack.count_line, foldedStack, List.map_map, Function.comp_def,
    count_foldedLabel, lineBreaks]

theorem foldedLine?_eq (tree : CallTree) (index : NodeIndex) : tree.foldedLine? index =
    if (tree.node index).selfWeight != 0 then
      some (String.ofList ((tree.foldedStack index).line ++ ['\n']))
    else none := by
  have written : ";".intercalate ((tree.pathLabels index).map foldedLabel) ++ " " ++
      toString (tree.node index).selfWeight ++ "\n" =
        String.ofList ((tree.foldedStack index).line ++ ['\n']) := by
    rw [← String.toList_inj]
    simp [FoldedStack.line, foldedStack]
  rw [foldedLine?, written, bne]
  cases (tree.node index).selfWeight == 0 <;> rfl

theorem foldedStacks_eq (tree : CallTree) : tree.foldedStacks = String.ofList
    ((tree.sampledNodes.map tree.foldedStack).flatMap fun stack => stack.line ++ ['\n']) := by
  have lines : ((List.range tree.size).drop 1).filterMap tree.foldedLine? =
      tree.sampledNodes.map fun index =>
        String.ofList ((tree.foldedStack index).line ++ ['\n']) := by
    rw [← List.filterMap_eq_map, sampledNodes, List.filterMap_filter]
    exact List.filterMap_congr fun index _ => tree.foldedLine?_eq index
  rw [← String.toList_inj, foldedStacks, lines, String.toList_join, String.toList_ofList,
    List.flatMap_map, List.flatMap_map]
  simp only [String.toList_ofList]

/-- The chain of calls of a node is as long as the node is deep. -/
theorem Linked.length_callChain (linked : Linked tree) {index : NodeIndex}
    (inside : index < tree.size) :
    (tree.callChain index).length = (tree.ancestors index).length := by
  induction index using linked.induction_above with
  | top index isTop =>
    obtain rfl : index = 0 := by
      by_contra isRoot
      obtain ⟨parent, isParent, -⟩ :=
        linked.exists_parent index (Nat.pos_of_ne_zero isRoot) inside
      rw [isTop] at isParent
      contradiction
    rw [callChain_root, ancestors, isTop]
  | step index parent isParent inductionHypothesis =>
    have above := inductionHypothesis (Nat.lt_trans (linked.parent_lt isParent) inside)
    rw [linked.callChain_of_parent isParent, linked.ancestors_of_parent isParent, lineage,
      List.length_cons, List.length_cons, above]

end CallTree

namespace GrowingTree

open CallTree (rootLabel)

variable {layout : Layout} {growing : GrowingTree}

/-- Folded stacks have a line for every node with samples, and one more for every line feed in
the labels on its path. They are read back as the nodes with samples, in order of creation,
exactly when there is no such line feed. -/
theorem foldedStacks_of_arises (arises : Arises layout growing) :
    (Text.lines growing.tree.foldedStacks.toList).length =
        (growing.tree.sampledNodes.map fun index => growing.tree.lineBreaks index + 1).sum ∧
      (FoldedStack.readLines? growing.tree.foldedStacks =
          some (growing.tree.sampledNodes.map growing.tree.foldedStack) ↔
        ∀ index ∈ growing.tree.sampledNodes, ∀ label ∈ growing.tree.pathLabels index,
          '\n' ∉ label.toList) ∧
      (∀ index ∈ growing.tree.sampledNodes, (growing.tree.foldedStack index).frames.length =
        (growing.tree.ancestors index).length) ∧
      ((growing.tree.sampledNodes.map growing.tree.foldedStack).map FoldedStack.weight).sum =
        ∑ index ∈ (Finset.range growing.tree.size).erase 0,
          (growing.tree.node index).selfWeight := by
  refine ⟨?_, ?_, fun index sampled => ?_, ?_⟩
  · rw [CallTree.foldedStacks_eq, String.toList_ofList, FoldedStack.length_lines_flatMap,
      List.map_map]
    simp only [Function.comp_def, CallTree.count_foldedStack]
  · rw [CallTree.foldedStacks_eq, FoldedStack.readLines?_flatMap, List.forall_mem_map]
    · simp only [CallTree.count_foldedStack, CallTree.lineBreaks, List.sum_eq_zero_iff,
        List.forall_mem_map, List.count_eq_zero]
    · refine List.forall_mem_map.mpr fun index sampled => ?_
      have notRoot := (CallTree.mem_sampledNodes.mp sampled).2.1
      simp [CallTree.foldedStack, CallTree.pathLabels, CallTree.callChain, notRoot]
    · refine List.forall_mem_map.mpr fun index _ => List.forall_mem_map.mpr fun label _ => ?_
      exact CallTree.notMem_foldedLabel label
  · have inside := (CallTree.mem_sampledNodes.mp sampled).1
    rw [CallTree.foldedStack, List.length_map, CallTree.pathLabels, List.length_reverse,
      List.length_map, arises.trie.toLinked.length_callChain inside]
  · rw [List.map_map]
    exact CallTree.sum_sampledNodes fun _ isZero => isZero

/-- A function whose label has a semicolon and a space, called by another one; both have a
sample. -/
def dividedLabel : GrowingTree :=
  let called := ((fresh rootLabel none).addPath [("main", none), ("a;b c", none)]).2
  (called.mapTree fun tree => tree.recordSample 1 none).mapTree fun tree =>
    tree.recordSample 2 (some 4)

theorem arises_dividedLabel : Arises .nested dividedLabel := by
  have called := (Arises.fresh rootLabel none).addPath [("main", none), ("a;b c", none)]
  exact (called.recordSample 1 none).recordSample 2 (some 4)

theorem foldedStacks_dividedLabel : Arises .nested dividedLabel ∧
    dividedLabel.tree.foldedStacks = "main 1\nmain;a:b c 1\n" ∧
    FoldedStack.readLines? dividedLabel.tree.foldedStacks =
      some [⟨["main"], 1⟩, ⟨["main", "a:b c"], 1⟩] :=
  ⟨arises_dividedLabel, by decide +kernel,
    ((foldedStacks_of_arises arises_dividedLabel).2.1.mpr (by decide +kernel)).trans
      (by decide +kernel)⟩

/-- A function whose label has a line feed, with a sample. -/
def brokenLabel : GrowingTree :=
  ((fresh rootLabel none).addPath [("a\nb", none)]).2.mapTree fun tree => tree.recordSample 1 none

/-- The one line of its folded stacks is broken into two, and the first holds no weight. -/
theorem foldedStacks_brokenLabel : Arises .nested brokenLabel ∧
    brokenLabel.tree.foldedStacks = "a\nb 1\n" ∧
    FoldedStack.readLines? brokenLabel.tree.foldedStacks = none :=
  ⟨((Arises.fresh rootLabel none).addPath [("a\nb", none)]).recordSample 1 none,
    by decide +kernel, by decide +kernel⟩

end GrowingTree

end JitTrace
