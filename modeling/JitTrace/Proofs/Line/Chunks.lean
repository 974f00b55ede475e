import JitTrace.Line.Reader

/-!
# Reading a log in pieces

A log that arrives in pieces is read as if it were there at once. What a piece leaves
unfinished is held back and goes on in the next one, so the cuts may lie anywhere.
-/

namespace JitTrace

namespace LogReader

variable {Sink : Type}

/-- The lines of a text. Nothing follows a last line feed. -/
def textLines (text : List Char) : List String :=
  let pieces := text.splitOn '\n'
  (if pieces.getLastD [] == [] then pieces.dropLast else pieces).map String.ofList

/-- Process the pieces of a log, up to the first cancellation. -/
def processChunks (reader : LogReader Sink) : List String → Reading Sink → ReadOutcome Sink
  | [], reading => (.ok (), reading)
  | chunk :: chunks, reading =>
    match reader.processChunk chunk reading with
    | (.ok (), reading) => reader.processChunks chunks reading
    | (.error fault, reading) => (.error fault, reading)

/-- Process a log that arrives in pieces, with the line that is left at its end. -/
def processPieces (reader : LogReader Sink) (chunks : List String) (reading : Reading Sink) :
    ReadOutcome Sink :=
  match reader.processChunks chunks reading with
  | (.ok (), reading) => reader.finish reading
  | (.error fault, reading) => (.error fault, reading)

/-! ## The lines of a text -/

/-- Text that follows another one goes on with the last piece of that. -/
theorem splitOn_append (front back : List Char) :
    (front ++ back).splitOn '\n' =
      (front.splitOn '\n').dropLast ++
        ((front.splitOn '\n').getLastD [] ++ back).splitOn '\n' := by
  induction front with
  | nil => rfl
  | cons head front inductionHypothesis =>
    obtain ⟨piece, pieces, split⟩ := List.exists_cons_of_ne_nil (List.splitOn_ne_nil '\n' front)
    rw [split] at inductionHypothesis
    rw [List.cons_append, List.splitOn_cons_eq_if_modifyHead, List.splitOn_cons_eq_if_modifyHead,
      inductionHypothesis, split]
    by_cases ends : head == '\n'
    · simp [ends]
    · cases pieces with
      | nil => simp [ends, List.splitOn_cons_eq_if_modifyHead]
      | cons next pieces => simp [ends]

/-- The last piece of a text holds no line feed. -/
theorem notMem_getLastD_splitOn (text : List Char) :
    '\n' ∉ (text.splitOn '\n').getLastD [] := by
  induction text with
  | nil => simp
  | cons head text inductionHypothesis =>
    obtain ⟨piece, pieces, split⟩ := List.exists_cons_of_ne_nil (List.splitOn_ne_nil '\n' text)
    rw [split] at inductionHypothesis
    rw [List.splitOn_cons_eq_if_modifyHead, split]
    by_cases ends : head == '\n'
    · simpa [ends] using inductionHypothesis
    · cases pieces with
      | nil =>
        have differs : '\n' ≠ head := by
          rintro rfl
          exact ends rfl
        simpa [ends, differs] using inductionHypothesis
      | cons next pieces => simpa [ends] using inductionHypothesis

/-- A text without a line feed is one line, unless it is empty. -/
theorem textLines_unended {text : List Char} (unended : '\n' ∉ text) :
    textLines text = if text.isEmpty then [] else [String.ofList text] := by
  cases text <;> simp [textLines, List.splitOn_eq_singleton unended]

/-- The lines of a text that follows another one. -/
theorem textLines_append (front back : List Char) :
    textLines (front ++ back) =
      (front.splitOn '\n').dropLast.map String.ofList ++
        textLines ((front.splitOn '\n').getLastD [] ++ back) := by
  obtain ⟨piece, pieces, split⟩ := List.exists_cons_of_ne_nil
    (List.splitOn_ne_nil '\n' ((front.splitOn '\n').getLastD [] ++ back))
  have last : ((front.splitOn '\n').dropLast ++ piece :: pieces).getLastD [] =
      (piece :: pieces).getLastD [] := by
    rw [List.getLastD_eq_getLast?, List.getLast?_append, List.getLastD_eq_getLast?,
      List.getLast?_cons]
    rfl
  simp only [textLines, splitOn_append front back, split, last, List.dropLast_append_cons]
  split <;> rw [List.map_append]

/-- A line may be empty, but no empty line follows the last line feed. -/
example : textLines "tick\n\ntimer\n".toList = ["tick", "", "timer"] := by decide

/-! ## What is held back stays so -/

theorem heldBack_processNow (reader : LogReader Sink) (number : Nat) (line : String)
    (reading : Reading Sink) :
    (reader.processNow number line reading).2.heldBack = reading.heldBack := by
  simp only [processNow]
  split
  · rfl
  · split
    · rfl
    · split
      · rfl
      · rfl
      · split <;> rfl

theorem heldBack_processRange (reader : LogReader Sink) (lines : List (Nat × String))
    (reading : Reading Sink) :
    (reader.processRange lines reading).2.heldBack = reading.heldBack := by
  induction lines generalizing reading with
  | nil => rfl
  | cons line lines inductionHypothesis =>
    have processed := reader.heldBack_processNow line.1 line.2 reading
    simp only [processRange]
    split
    · rfl
    · split <;> rename_i outcome <;> rw [outcome] at processed
      · rw [inductionHypothesis, processed]
      · exact processed

theorem heldBack_processMarker (reader : LogReader Sink) (reading : Reading Sink) :
    (reader.processMarker reading).2.heldBack = reading.heldBack := by
  have ranged := reader.heldBack_processRange reading.rangeLines.reverse
    { reading with rangeLines := [] }
  simp only [processMarker]
  split
  · split <;> rename_i outcome <;> rw [outcome] at ranged <;> exact ranged
  · rfl

theorem heldBack_processLine (reader : LogReader Sink) (line : String) (reading : Reading Sink) :
    (reader.processLine line reading).2.heldBack = reading.heldBack := by
  have processed := reader.heldBack_processNow (reading.lineNumber + 1) line (countLine reading)
  simp only [processLine]
  split
  · rfl
  · split
    · exact processed
    · split
      · exact reader.heldBack_processMarker (countLine reading)
      · split
        · rfl
        · split
          · rfl
          · exact processed

theorem heldBack_processLines (reader : LogReader Sink) (lines : List String)
    (reading : Reading Sink) :
    (reader.processLines lines reading).2.heldBack = reading.heldBack := by
  induction lines generalizing reading with
  | nil => rfl
  | cons line lines inductionHypothesis =>
    have processed := reader.heldBack_processLine line reading
    simp only [processLines]
    split <;> rename_i outcome <;> rw [outcome] at processed
    · rw [inductionHypothesis, processed]
    · exact processed

/-! ## Reading in pieces -/

theorem processLines_append (reader : LogReader Sink) (front back : List String)
    (reading : Reading Sink) :
    reader.processLines (front ++ back) reading =
      match reader.processLines front reading with
      | (.ok (), reading) => reader.processLines back reading
      | (.error fault, reading) => (.error fault, reading) := by
  induction front generalizing reading with
  | nil => rfl
  | cons line front inductionHypothesis =>
    simp only [List.cons_append, processLines]
    rcases reader.processLine line reading with ⟨_ | _, between⟩
    · rfl
    · exact inductionHypothesis between

theorem processPieces_cons (reader : LogReader Sink) (chunk : String) (chunks : List String)
    (reading : Reading Sink) :
    reader.processPieces (chunk :: chunks) reading =
      match reader.processChunk chunk reading with
      | (.ok (), reading) => reader.processPieces chunks reading
      | (.error fault, reading) => (.error fault, reading) := by
  simp only [processPieces, processChunks]
  rcases reader.processChunk chunk reading with ⟨_ | _, between⟩ <;> rfl

/-- A read that goes on in pieces goes on with the line it holds back. -/
theorem processPieces_heldBack (reader : LogReader Sink) (chunks : List String)
    (reading : Reading Sink) (unended : '\n' ∉ reading.heldBack) :
    reader.processPieces chunks reading =
      reader.processLines (textLines (reading.heldBack ++ (String.join chunks).toList))
        { reading with heldBack := [] } := by
  induction chunks generalizing reading with
  | nil =>
    simp only [processPieces, processChunks, finish, String.join_nil, String.toList_empty,
      List.append_nil, textLines_unended unended]
    split
    · rfl
    · simp only [processLines]
      split <;> rename_i outcome <;> exact outcome
  | cons chunk chunks inductionHypothesis =>
    have kept := reader.heldBack_processLines
      (((reading.heldBack ++ chunk.toList).splitOn '\n').dropLast.map String.ofList)
      { reading with heldBack := [] }
    rw [String.join_cons, String.toList_append, ← List.append_assoc, textLines_append,
      processLines_append, processPieces_cons, processChunk]
    revert kept
    rcases reader.processLines _ { reading with heldBack := [] } with ⟨_ | _, between⟩
    · exact fun _ => rfl
    · intro (kept : between.heldBack = [])
      have remaining := inductionHypothesis
        { between with
          heldBack := ((reading.heldBack ++ chunk.toList).splitOn '\n').getLastD [] }
        (notMem_getLastD_splitOn _)
      have same : { between with heldBack := [] } = between := by rw [← kept]
      dsimp only at remaining ⊢
      rw [remaining, same]

/-- However a log is cut into pieces, reading the pieces is reading the lines of the whole. -/
theorem processPieces_eq_processLines (reader : LogReader Sink) (chunks : List String)
    (reading : Reading Sink) :
    reader.processPieces chunks { reading with heldBack := [] } =
      reader.processLines (textLines (String.join chunks).toList)
        { reading with heldBack := [] } :=
  reader.processPieces_heldBack chunks { reading with heldBack := [] } (by simp)

end LogReader

end JitTrace
