/-!
# Cutting texts at a separator

The log nests several little formats in one field (`url:line:column`,
`name url:line:column`). Each is taken apart at the first or the last
occurrence of a separator.
-/

namespace JitTrace.Text

/-- The parts before and after the first character that satisfies `isSeparator`. -/
def cutFirst (isSeparator : Char → Bool) : List Char → Option (List Char × List Char)
  | [] => none
  | c :: rest =>
    if isSeparator c then
      some ([], rest)
    else
      (cutFirst isSeparator rest).map fun (before, after) => (c :: before, after)

/-- The parts before and after the last occurrence of `separator`. -/
def cutLast (separator : Char) (cs : List Char) : Option (List Char × List Char) :=
  (cutFirst (· == separator) cs.reverse).map fun (after, before) =>
    (before.reverse, after.reverse)

/-- The rest of a text behind `front`, when the text starts with it. -/
def dropFront? : List Char → List Char → Option (List Char)
  | [], cs => some cs
  | _ :: _, [] => none
  | expected :: front, c :: cs => if expected == c then dropFront? front cs else none

/-- A line without the carriage return at its end. -/
def withoutReturn (cs : List Char) : List Char :=
  match cs.getLast? with
  | some '\r' => cs.dropLast
  | _ => cs

/-- The lines of a text. A line ends with a line feed, or a carriage return and a
line feed; what follows the last line feed is a line unless it is empty. -/
def lines (cs : List Char) : List (List Char) :=
  match cs.splitOn '\n' with
  | [] => []
  | pieces =>
    let complete := pieces.dropLast.map withoutReturn
    match pieces.getLast? with
    | none | some [] => complete
    | some last => complete ++ [last]

/-- Whether `part` occurs somewhere in the text. -/
def occursIn (part : List Char) : List Char → Bool
  | [] => part.isEmpty
  | c :: cs => part.isPrefixOf (c :: cs) || occursIn part cs

/-- Cutting loses nothing but the separator itself. -/
theorem eq_append_of_cutFirst {isSeparator : Char → Bool} {cs before after : List Char}
    (cut : cutFirst isSeparator cs = some (before, after)) :
    ∃ separator, isSeparator separator = true ∧ cs = before ++ separator :: after ∧
      ∀ c ∈ before, isSeparator c = false := by
  induction cs generalizing before with
  | nil => simp [cutFirst] at cut
  | cons c rest inductionHypothesis =>
    simp only [cutFirst] at cut
    split at cut
    · next separated =>
      simp only [Option.some.injEq, Prod.mk.injEq] at cut
      obtain ⟨rfl, rfl⟩ := cut
      exact ⟨c, separated, rfl, by simp⟩
    · next kept =>
      obtain ⟨⟨front, back⟩, inner, equal⟩ := Option.map_eq_some_iff.1 cut
      simp only [Prod.mk.injEq] at equal
      obtain ⟨rfl, rfl⟩ := equal
      obtain ⟨separator, separates, split, clear⟩ := inductionHypothesis inner
      refine ⟨separator, separates, by rw [split]; rfl, ?_⟩
      intro d member
      rcases List.mem_cons.1 member with rfl | inFront
      · simpa using kept
      · exact clear d inFront

end JitTrace.Text
