import JitTrace.Proofs.Line.Chunks
import JitTrace.Proofs.Line.Selection
import JitTrace.Proofs.Text.Utf8
import Mathlib.Data.List.Forall2
import Mathlib.Data.List.TakeWhile

/-!
# Carriage returns

A log that is read as bytes loses the carriage return at the end of a line before the line is
taken apart, and a log that is read as text loses it then. To a read, both are the same, unless
a line ends in two carriage returns.
-/

namespace JitTrace

/-! ## The bytes of lines -/

namespace Text

theorem withoutReturn_append_singleton (front : List Char) (c : Char) :
    withoutReturn (front ++ [c]) = if c = '\r' then front else front ++ [c] := by
  by_cases isReturn : c = '\r'
  · simp [withoutReturn, isReturn]
  · simp only [withoutReturn, List.getLast?_concat, if_neg isReturn]
    split
    · rename_i same
      exact absurd (Option.some.inj same) isReturn
    · rfl

/-- Behind bytes without the separator, the first piece goes on. -/
theorem splitOn_append_of_notMem {separator : UInt8} {front : List UInt8}
    (absent : separator ∉ front) (back : List UInt8) :
    (front ++ back).splitOn separator = (back.splitOn separator).modifyHead (front ++ ·) := by
  induction front with
  | nil => exact (congrFun List.modifyHead_id (back.splitOn separator)).symm
  | cons byte front inductionHypothesis =>
    rw [List.mem_cons, not_or] at absent
    have differs : (byte == separator) = false := by simpa using Ne.symm absent.1
    rw [List.cons_append, List.splitOn_cons_eq_if_modifyHead, differs, if_neg Bool.false_ne_true,
      inductionHypothesis absent.2, List.modifyHead_modifyHead]
    rfl

/-- The bytes of a text are cut at line feeds as the text is. -/
theorem splitOn_flatMap_utf8EncodeChar (cs : List Char) :
    (cs.flatMap String.utf8EncodeChar).splitOn 10 =
      (cs.splitOn '\n').map (·.flatMap String.utf8EncodeChar) := by
  induction cs with
  | nil => rfl
  | cons c cs inductionHypothesis =>
    rw [List.flatMap_cons, List.splitOn_cons_eq_if_modifyHead]
    by_cases feed : c = '\n'
    · subst feed
      change (10 :: cs.flatMap String.utf8EncodeChar).splitOn 10 = _
      rw [List.splitOn_cons_eq_if_modifyHead, inductionHypothesis]
      rfl
    · have absent : (10 : UInt8) ∉ String.utf8EncodeChar c :=
        fun inside => feed ((ofNat_mem_utf8EncodeChar '\n' c (by decide)).mp inside)
      rw [splitOn_append_of_notMem absent, inductionHypothesis, if_neg (by simpa using feed)]
      cases cs.splitOn '\n' <;> simp

/-- The bytes of a text lose a carriage return at their end as the text does. -/
theorem flatMap_withoutReturn (cs : List Char) :
    (withoutReturn cs).flatMap String.utf8EncodeChar =
      if (cs.flatMap String.utf8EncodeChar).getLast? == some 13 then
        (cs.flatMap String.utf8EncodeChar).dropLast
      else cs.flatMap String.utf8EncodeChar := by
  rcases cs.eq_nil_or_concat with rfl | ⟨front, c, rfl⟩
  · rfl
  rw [List.concat_eq_append, withoutReturn_append_singleton, List.flatMap_append,
    List.flatMap_singleton]
  by_cases isReturn : c = '\r'
  · subst isReturn
    have isByte : String.utf8EncodeChar '\r' = [13] := rfl
    simp [isByte]
  · have other : (String.utf8EncodeChar c).getLast? ≠ some 13 := fun isLast => isReturn
      ((ofNat_mem_utf8EncodeChar '\r' c (by decide)).mp (List.mem_of_getLast? isLast))
    simp [isReturn, other]

end Text

namespace LogReader

variable {Sink : Type}

/-- A line without the carriage return at its end. -/
def withoutReturn (line : String) : String :=
  String.ofList (Text.withoutReturn line.toList)

/-- The lines of the bytes of a text are the bytes of its lines, which lose their carriage
returns. -/
theorem byteLines_encodeUtf8 (text : String) :
    byteLines (Text.encodeUtf8 text) =
      (textLines text.toList).map fun line => Text.encodeUtf8 (withoutReturn line) := by
  have isEmpty (piece : List Char) :
      (piece.flatMap String.utf8EncodeChar == []) = (piece == []) := by
    cases piece <;> simp
  have last : (((text.toList.splitOn '\n').map (·.flatMap String.utf8EncodeChar)).getLastD [] ==
      []) = ((text.toList.splitOn '\n').getLastD [] == []) := by
    rw [← isEmpty, List.getLastD_eq_getLast?, List.getLastD_eq_getLast?, List.getLast?_map]
    cases (text.toList.splitOn '\n').getLast? <;> rfl
  simp only [byteLines, textLines, Text.encodeUtf8, Text.splitOn_flatMap_utf8EncodeChar, last,
    withoutReturn, String.toList_ofList, Text.flatMap_withoutReturn]
  split <;> simp [List.map_dropLast, Function.comp_def]

/-- Reading the bytes of a text is reading its lines without their carriage returns. -/
theorem processBytes_encodeUtf8 (reader : LogReader Sink) (text : String)
    (reading : Reading Sink) :
    reader.processBytes (Text.encodeUtf8 text) reading =
      reader.processLines ((textLines text.toList).map withoutReturn) reading := by
  have decoded (line : String) : LogLine.decode (Text.encodeUtf8 line) = .text line := by
    rw [LogLine.decode, Text.decodeUtf8_encodeUtf8]
  rw [processBytes, byteLines_encodeUtf8, processByteLines_eq, processLines_eq, List.map_map,
    List.map_map]
  congr 2
  funext line
  exact decoded (withoutReturn line)

end LogReader

/-! ## Lines that cannot be told apart -/

/-- Two lines that a read cannot tell apart. -/
structure Interchangeable (left right : String) : Prop where
  blank : (LogLine.text left).isBlank = (LogLine.text right).isBlank
  fields : (LogLine.text right).isBlank = false → Line.fields left = Line.fields right
  marker : (LogLine.text left).isMarker = (LogLine.text right).isMarker
  tick : (LogLine.text left).isTick = (LogLine.text right).isTick

theorem Interchangeable.refl (line : String) : Interchangeable line line :=
  ⟨rfl, fun _ => rfl, rfl, rfl⟩

namespace Text

/-- Nothing is left of a text of blanks. -/
theorem isEmpty_trim (cs : List Char) : (trim cs).isEmpty = cs.all isBlank := by
  have front : (∀ c ∈ cs.dropWhile isBlank, isBlank c = true) ↔ ∀ c ∈ cs, isBlank c = true := by
    conv =>
      rhs
      rw [← List.takeWhile_append_dropWhile (p := isBlank) (l := cs)]
    simp only [List.mem_append, or_imp, forall_and]
    exact (and_iff_right fun c inside => List.mem_takeWhile_imp inside).symm
  rw [Bool.eq_iff_iff, List.isEmpty_iff, List.all_eq_true, ← front, trim, trimBack, trimFront,
    List.reverse_eq_nil_iff, List.dropWhile_eq_nil_iff]
  simp only [List.mem_reverse]

theorem isEmpty_trim_withoutReturn (cs : List Char) :
    (trim (withoutReturn cs)).isEmpty = (trim cs).isEmpty := by
  rcases cs.eq_nil_or_concat with rfl | ⟨front, c, rfl⟩
  · rfl
  rw [List.concat_eq_append, withoutReturn_append_singleton]
  split
  · rename_i isReturn
    subst isReturn
    rw [isEmpty_trim, isEmpty_trim, List.all_append]
    simp [isBlank]
  · rfl

/-- A text begins with the same texts without its carriage return, unless they have one. -/
theorem isPrefixOf_withoutReturn (front cs : List Char) (absent : '\r' ∉ front) :
    front.isPrefixOf (withoutReturn cs) = front.isPrefixOf cs := by
  rcases cs.eq_nil_or_concat with rfl | ⟨shorter, c, rfl⟩
  · rfl
  rw [List.concat_eq_append, withoutReturn_append_singleton]
  split
  · rename_i isReturn
    subst isReturn
    rw [Bool.eq_iff_iff, List.isPrefixOf_iff_prefix, List.isPrefixOf_iff_prefix,
      List.prefix_concat_iff]
    refine ⟨.inr, fun either => either.resolve_left ?_⟩
    rintro rfl
    simp at absent
  · rfl

/-- A text that does not end in two carriage returns has lost all it can lose. -/
theorem withoutReturn_withoutReturn {cs : List Char} (single : ¬ ['\r', '\r'] <:+ cs) :
    withoutReturn (withoutReturn cs) = withoutReturn cs := by
  rcases cs.eq_nil_or_concat with rfl | ⟨front, c, rfl⟩
  · rfl
  rw [List.concat_eq_append, withoutReturn_append_singleton] at *
  split
  · rename_i isReturn
    subst isReturn
    rcases front.eq_nil_or_concat with rfl | ⟨front, d, rfl⟩
    · rfl
    rw [List.concat_eq_append, withoutReturn_append_singleton, if_neg]
    rintro rfl
    exact single ⟨front, by simp⟩
  · rename_i other
    rw [withoutReturn_append_singleton, if_neg other]

end Text

namespace LogReader

/-- A read cannot tell a line from the one without its carriage return. -/
theorem interchangeable_withoutReturn {line : String}
    (single : (LogLine.text line).isBlank = false → ¬ ['\r', '\r'] <:+ line.toList) :
    Interchangeable (withoutReturn line) line where
  blank := by
    simp only [LogLine.isBlank, withoutReturn, String.toList_ofList,
      Text.isEmpty_trim_withoutReturn]
  fields filled := by
    simp only [Line.fields, withoutReturn, String.toList_ofList,
      Text.withoutReturn_withoutReturn (single filled)]
  marker := by
    have same := Text.isPrefixOf_withoutReturn timerMarker.toList line.toList (by decide)
    rwa [← String.toList_ofList (l := Text.withoutReturn line.toList)] at same
  tick := by
    have same := Text.isPrefixOf_withoutReturn "tick".toList line.toList (by decide)
    rwa [← String.toList_ofList (l := Text.withoutReturn line.toList)] at same

variable (reader : LogReader Sink) {left right : Reading Sink}

/-- Interchangeable lines are processed alike. -/
theorem processNow_of_interchangeable (number : Nat) {first second : String}
    (same : Interchangeable first second) (reading : Reading Sink) :
    reader.processNow number first reading = reader.processNow number second reading := by
  have blank := same.blank
  simp only [LogLine.isBlank] at blank
  rw [processNow, processNow, blank]
  split
  · rfl
  · rename_i filled
    rw [same.fields (Bool.not_eq_true _ |>.mp filled)]

/-- Lines that are held back under the same numbers and that a read cannot tell apart. -/
def HeldAlike : List (Nat × String) → List (Nat × String) → Prop :=
  List.Forall₂ fun left right => left.1 = right.1 ∧ Interchangeable left.2 right.2

theorem heldAlike_refl (lines : List (Nat × String)) : HeldAlike lines lines :=
  List.forall₂_same.mpr fun line _ => ⟨rfl, .refl line.2⟩

theorem processRange_of_heldAlike {first second : List (Nat × String)}
    (same : HeldAlike first second) (reading : Reading Sink) :
    reader.processRange first reading = reader.processRange second reading := by
  induction same generalizing reading with
  | nil => rfl
  | @cons first second _ _ here _ inductionHypothesis =>
    obtain ⟨number, first⟩ := first
    obtain ⟨_, second⟩ := second
    obtain ⟨rfl, same⟩ := here
    simp only [processRange, reader.processNow_of_interchangeable number same reading]
    split
    · rfl
    · rcases reader.processNow number second reading with ⟨_ | _, between⟩
      · rfl
      · exact inductionHypothesis between

/-- Two reads that only differ in lines that they hold back. -/
def AlikeButHeld (left right : Reading Sink) : Prop :=
  ∃ held, HeldAlike left.rangeLines held ∧ right = { left with rangeLines := held }

/-- Processing a line leaves the lines alone that are held back, whatever they are. -/
theorem agree_processNow (alike : AlikeButHeld left right) (number : Nat) (line : String) :
    Agree AlikeButHeld (reader.processNow number line left)
      (reader.processNow number line right) := by
  obtain ⟨held, same, rfl⟩ := alike
  have own := reader.processNow_withProgress number line left left.progress
  have other := reader.processNow_withProgress number line left
    { left.progress with rangeLines := held }
  rw [Reading.withProgress_progress] at own
  refine ⟨_, _, _, own, other, held, same, rfl⟩

theorem agree_processMarker (alike : AlikeButHeld left right) :
    Agree AlikeButHeld (reader.processMarker left) (reader.processMarker right) := by
  obtain ⟨held, same, rfl⟩ := alike
  simp only [processMarker]
  split
  · rw [← reader.processRange_of_heldAlike (List.rel_reverse same)]
    split
    · exact ⟨_, _, _, rfl, rfl, _, heldAlike_refl _, rfl⟩
    · exact ⟨_, _, _, rfl, rfl, _, heldAlike_refl _, rfl⟩
  · exact ⟨_, _, _, rfl, rfl, held, same, rfl⟩

/-- Interchangeable lines are read alike. -/
theorem agree_processLine (alike : AlikeButHeld left right) {first second : String}
    (same : Interchangeable first second) :
    Agree AlikeButHeld (reader.processLine first left) (reader.processLine second right) := by
  have counted : AlikeButHeld (countLine left) (countLine right) := by
    obtain ⟨held, heldAlike, rfl⟩ := alike
    exact ⟨held, heldAlike, rfl⟩
  have processed := reader.agree_processNow counted (countLine left).lineNumber second
  rw [← reader.processNow_of_interchangeable _ same] at processed
  have marked := reader.agree_processMarker counted
  obtain ⟨held, heldAlike, rfl⟩ := alike
  rw [processLine, processLine]
  refine .ite .rfl (fun _ => ⟨_, _, _, rfl, rfl, held, heldAlike, rfl⟩) fun _ => ?_
  refine .ite .rfl (fun _ => processed) fun _ => ?_
  refine .ite (Bool.eq_iff_iff.mp same.marker) (fun _ => marked) fun _ => ?_
  refine .ite .rfl (fun _ => ?_) fun _ => ?_
  · exact ⟨_, _, _, rfl, rfl, (_, second) :: held, .cons ⟨rfl, same⟩ heldAlike, rfl⟩
  refine .ite (Bool.eq_iff_iff.mp same.tick) (fun _ => ?_) fun _ => processed
  exact ⟨_, _, _, rfl, rfl, held, heldAlike, rfl⟩

theorem agree_processLines (alike : AlikeButHeld left right) {first second : List String}
    (same : List.Forall₂ Interchangeable first second) :
    Agree AlikeButHeld (reader.processLines first left) (reader.processLines second right) := by
  induction same generalizing left right with
  | nil => exact ⟨_, _, _, rfl, rfl, alike⟩
  | cons here _ inductionHypothesis =>
    obtain ⟨result, between, other, onLeft, onRight, onward⟩ := reader.agree_processLine alike here
    simp only [processLines, onLeft, onRight]
    cases result with
    | ok _ => exact inductionHypothesis onward
    | error fault => exact ⟨_, _, _, rfl, rfl, onward⟩

/-- Reading a text in one piece is reading its lines. -/
theorem processPieces_singleton (text : String) (reading : Reading Sink)
    (fresh : reading.heldBack = []) :
    reader.processPieces [text] reading = reader.processLines (textLines text.toList) reading := by
  have same : { reading with heldBack := [] } = reading := by rw [← fresh]
  rw [processPieces_heldBack reader [text] reading (by simp [fresh]), same, fresh,
    String.join_cons, String.join_nil, String.append_empty, List.nil_append]

/-- Two reads have come to the same. -/
structure SameReport (left right : ReadOutcome Sink) : Prop where
  result : left.1 = right.1
  sink : left.2.sink = right.2.sink
  failures : left.2.failures = right.2.failures
  counts : left.2.counts = right.2.counts

/-- Unless a line that is not blank ends in two carriage returns, reading the bytes of a text
and reading the text itself come to the same. -/
theorem processBytes_agrees_processPieces (text : String) (reading : Reading Sink)
    (fresh : reading.heldBack = [])
    (single : ∀ line ∈ textLines text.toList, (LogLine.text line).isBlank = false →
      ¬ ['\r', '\r'] <:+ line.toList) :
    SameReport (reader.processBytes (Text.encodeUtf8 text) reading)
      (reader.processPieces [text] reading) := by
  have lines : List.Forall₂ Interchangeable ((textLines text.toList).map withoutReturn)
      (textLines text.toList) := by
    rw [List.forall₂_map_left_iff, List.forall₂_same]
    exact fun line inside => interchangeable_withoutReturn (single line inside)
  have start : AlikeButHeld reading reading := ⟨_, heldAlike_refl _, rfl⟩
  obtain ⟨result, first, second, onLeft, onRight, held, -, rfl⟩ :=
    reader.agree_processLines start lines
  rw [processBytes_encodeUtf8, processPieces_singleton reader text reading fresh, onLeft, onRight]
  exact ⟨rfl, rfl, rfl, rfl⟩

/-- Lines with and without a carriage return, a blank one with two, and one at the end of the
text. -/
theorem processBytes_agrees_processPieces_mixed :
    let reader : LogReader Unit := { table := {} }
    let text := "tick\r\n\r\r\ntimer\nprofiler\r"
    (∀ line ∈ textLines text.toList, (LogLine.text line).isBlank = false →
      ¬ ['\r', '\r'] <:+ line.toList) ∧
    SameReport (reader.processBytes (Text.encodeUtf8 text) { sink := () })
      (reader.processPieces [text] { sink := () }) := by
  intro reader text
  have single : ∀ line ∈ textLines text.toList, (LogLine.text line).isBlank = false →
      ¬ ['\r', '\r'] <:+ line.toList := by decide
  exact ⟨single, processBytes_agrees_processPieces reader text { sink := () } rfl single⟩

/-- A line that ends in two carriage returns is a record's when it is read as bytes, and
nobody's when it is read as text. -/
theorem processBytes_twoReturns :
    let handler : Handler Unit := fun _ sink => { result := .ok (), sink }
    let reader : LogReader Unit :=
      { table := { records := [{ name := "a", layout := [], handler }] } }
    let text := "a\r\r\n"
    (reader.processBytes (Text.encodeUtf8 text) { sink := () }).2.counts =
        { lines := 1, dispatched := 1 } ∧
      (reader.processPieces [text] { sink := () }).2.counts = { lines := 1, unknown := 1 } := by
  intro handler reader text
  have lines : textLines text.toList = ["a\r\r"] := by decide
  have shortened : withoutReturn "a\r\r" = "a\r" := by decide
  have one : Line.fields "a\r" = .ok ["a"] := by
    simp [Line.fields, Text.withoutReturn, Line.fieldsFrom, Text.cutFirst, Line.unescape,
      Except.map]
  have two : Line.fields "a\r\r" = .ok ["a\r"] := by
    simp [Line.fields, Text.withoutReturn, Line.fieldsFrom, Text.cutFirst, Line.unescape,
      Except.map]
  rw [processBytes_encodeUtf8, processPieces_singleton reader text { sink := () } rfl, lines,
    List.map_singleton, shortened]
  constructor
  · simp only [processLines, processLine, processNow, one]
    rfl
  · simp only [processLines, processLine, processNow, two]
    rfl

end LogReader

end JitTrace
