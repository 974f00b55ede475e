import JitTrace.Proofs.Record.Faults
import JitTrace.Trace.Event

/-!
# Events that cannot be read

The fields of every record answer what its reader asks them for. So a record whose fields
cannot be read as an event fails because of its line alone.
-/

namespace JitTrace

namespace Arguments.Fits

variable {arguments : Arguments} {parsers : List FieldParser} {position : Nat}
  (fits : arguments.Fits parsers)
include fits

theorem ofLine_int (declared : parsers[position]?.any (·.answers .int) = true) :
    OfLine (arguments.int position) :=
  .of_exists (fits.int declared)

theorem ofLine_address (declared : parsers[position]?.any (·.answers .address) = true) :
    OfLine (arguments.address position) :=
  .of_exists (fits.address declared)

theorem ofLine_text (declared : parsers[position]?.any (·.answers .text) = true) :
    OfLine (arguments.text position) :=
  .of_exists (fits.text declared)

theorem ofLine_textList (declared : parsers[position]?.any (·.answers .textList) = true) :
    OfLine (arguments.textList position) :=
  .of_exists (fits.textList declared)

theorem ofLine_text? (declared : parsers[position]?.any (·.answersIfPresent .text) = true) :
    OfLine (arguments.text? position) :=
  .of_exists (fits.text? declared)

theorem ofLine_address? (declared : parsers[position]?.any (·.answersIfPresent .address) = true) :
    OfLine (arguments.address? position) :=
  .of_exists (fits.address? declared)

theorem ofLine_versionPart (declared : parsers[position]?.any (·.answers .int) = true) :
    OfLine (TraceEvent.versionPart arguments position) := by
  simp only [TraceEvent.versionPart, OfLine.bind_iff, fits.ofLine_int declared, true_and]
  intro value _
  split <;> simp [Fault.isOfLine]

theorem ofLine_nonNegative (what : String)
    (declared : parsers[position]?.any (·.answers .int) = true) :
    OfLine (TraceEvent.nonNegative what arguments position) := by
  simp only [TraceEvent.nonNegative, OfLine.bind_iff, fits.ofLine_int declared, true_and]
  intro value _
  split <;> simp [Fault.isOfLine]

theorem ofLine_scriptId (declared : parsers[position]?.any (·.answers .int) = true) :
    OfLine (TraceEvent.scriptId arguments position) := by
  simp only [TraceEvent.scriptId, OfLine.bind_iff, fits.ofLine_int declared, true_and]
  intro value _
  split <;> simp [Fault.isOfLine]

end Arguments.Fits

@[simp] theorem StackText.ofLine_readHex (cs : List Char) : OfLine (readHex cs) := by
  simp only [readHex]
  split <;> simp

@[simp] theorem StackText.ofLine_addresses (previous : UInt64) (frames : List String) :
    OfLine (addresses previous frames) := by
  induction frames generalizing previous with
  | nil => simp [addresses]
  | cons frame frames inductionHypothesis =>
    simp only [addresses]
    split <;> simp [inductionHypothesis]

namespace TraceEvent

variable {arguments : Arguments} (version : Version)

theorem ofLine_readCode (fits : arguments.Fits
    [.text, .int, .int, .address, .int, .text, .optional .address .absent,
      .optional .text .absent]) : OfLine (readCode version arguments) := by
  simp only [readCode, timestamp, OfLine.bind_iff]
  refine ⟨fits.ofLine_text rfl, fun codeType _ => ⟨fits.ofLine_int rfl, fun kind _ => ?_⟩⟩
  refine ⟨fits.ofLine_nonNegative _ rfl, fun timestamp _ => ⟨fits.ofLine_address rfl, ?_⟩⟩
  refine fun start _ => ⟨fits.ofLine_nonNegative _ rfl, fun size _ => ⟨fits.ofLine_text rfl, ?_⟩⟩
  refine fun name _ => ⟨fits.ofLine_address? rfl, fun address? _ => ?_⟩
  cases address? with
  | none => simp
  | some address =>
    rw [OfLine.bind_iff]
    exact ⟨fits.ofLine_text? rfl, by simp⟩

theorem ofLine_readIc (name : String) (fits : arguments.Fits (TraceRecord.icRecord name).fields) :
    OfLine (readIc version arguments) := by
  simp [readIc, timestamp, fits.ofLine_address, fits.ofLine_nonNegative,
    fits.ofLine_text, fits.ofLine_text?, fits.ofLine_int, TraceRecord.icRecord,
    FieldParser.answers, FieldParser.answersIfPresent]

end TraceEvent

/-- The fields of every record answer what its reader asks them for. -/
theorem TraceRecord.ofLine_read (version : Version) {arguments : Arguments} :
    ∀ record ∈ all, arguments.Fits record.fields → OfLine (record.read version arguments) := by
  have caches : ∀ record ∈ icNames.map icRecord, arguments.Fits record.fields →
      OfLine (record.read version arguments) := by
    rintro _ inside fits
    obtain ⟨name, _, rfl⟩ := List.mem_map.mp inside
    exact TraceEvent.ofLine_readIc version name fits
  simp only [all, List.cons_append, List.nil_append, List.forall_mem_cons]
  refine ⟨fun fits => ?version, fun fits => ?library, TraceEvent.ofLine_readCode version,
    fun fits => ?move, fun fits => ?delete, fun fits => ?moveFunction, fun fits => ?positions,
    fun fits => ?source, fun fits => ?details, fun fits => ?deopt, fun fits => ?disable,
    fun fits => ?mapCreate, fun fits => ?mapDetails, fun fits => ?map, fun fits => ?tick,
    fun _ => OfLine.ok _, caches⟩
  case version => simp [TraceEvent.readVersion, fits.ofLine_versionPart, FieldParser.answers]
  case library =>
    simp [TraceEvent.readLibrary, fits.ofLine_text, fits.ofLine_address, FieldParser.answers]
  case move => simp [TraceEvent.readMove, fits.ofLine_address, FieldParser.answers]
  case delete => simp [TraceEvent.readDelete, fits.ofLine_address, FieldParser.answers]
  case moveFunction =>
    simp [TraceEvent.readMoveFunction, fits.ofLine_address, FieldParser.answers]
  case positions =>
    simp [TraceEvent.readSourcePositions, fits.ofLine_address, fits.ofLine_scriptId,
      fits.ofLine_nonNegative, fits.ofLine_text, FieldParser.answers]
  case source =>
    simp [TraceEvent.readScriptSource, fits.ofLine_scriptId, fits.ofLine_text,
      FieldParser.answers]
  case details =>
    simp [TraceEvent.readScriptDetails, fits.ofLine_scriptId, fits.ofLine_text,
      FieldParser.answers]
  case deopt =>
    simp [TraceEvent.readDeopt, TraceEvent.timestamp, fits.ofLine_nonNegative,
      fits.ofLine_address, fits.ofLine_int, fits.ofLine_text, FieldParser.answers]
  case disable => simp [TraceEvent.readDisable, fits.ofLine_text, FieldParser.answers]
  case mapCreate =>
    simp [TraceEvent.readMapCreate, TraceEvent.timestamp, fits.ofLine_address,
      fits.ofLine_nonNegative, FieldParser.answers]
  case mapDetails =>
    simp [TraceEvent.readMapDetails, TraceEvent.timestamp, fits.ofLine_address,
      fits.ofLine_nonNegative, fits.ofLine_text, FieldParser.answers]
  case map =>
    simp [TraceEvent.readMap, TraceEvent.timestamp, fits.ofLine_address, fits.ofLine_nonNegative,
      fits.ofLine_text, fits.ofLine_text?, FieldParser.answers, FieldParser.answersIfPresent,
      FieldValue.answers]
  case tick =>
    simp [TraceEvent.readTick, TraceEvent.timestamp, fits.ofLine_address, fits.ofLine_textList,
      fits.ofLine_nonNegative, fits.ofLine_int, FieldParser.answers]

end JitTrace
