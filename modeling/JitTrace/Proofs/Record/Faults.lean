import JitTrace.Proofs.Record.Layout
import JitTrace.Source.PositionText
import JitTrace.Version.Enumerations

/-!
# Faults of a line

A line is at fault when it cannot be taken apart or converted, or when it has a name or
number that means nothing. The readers of fields, position tables and enumerations have no
other faults, and what is put together from such readers has none either.
-/

namespace JitTrace

/-- A fault of the line that is read. -/
def Fault.isOfLine : Fault → Bool
  | .parse _ | .unknownEnumValue .. => true
  | _ => false

/-- A fault of a line does not end the read. -/
theorem Fault.isCancellation_of_isOfLine {fault : Fault} (ofLine : fault.isOfLine = true) :
    fault.isCancellation = false := by
  cases fault <;> simp_all [isOfLine, isCancellation]

/-- A failure is the fault of the line that is read. -/
def OfLine {Result : Type} (outcome : Except Fault Result) : Prop :=
  ∀ fault, outcome = .error fault → fault.isOfLine = true

namespace OfLine

variable {Result Other : Type}

theorem of_exists {outcome : Except Fault Result} (succeeds : ∃ result, outcome = .ok result) :
    OfLine outcome := by
  obtain ⟨result, rfl⟩ := succeeds
  nofun

@[simp] theorem ok (result : Result) : OfLine (.ok result : Except Fault Result) := nofun

@[simp] theorem pure (result : Result) : OfLine (Pure.pure result : Except Fault Result) := nofun

@[simp] theorem error_iff {fault : Fault} :
    OfLine (.error fault : Except Fault Result) ↔ fault.isOfLine = true := by
  constructor
  · intro ofLine
    exact ofLine fault rfl
  · rintro holds _ ⟨⟩
    exact holds

@[simp] theorem throw_iff {fault : Fault} :
    OfLine (throw fault : Except Fault Result) ↔ fault.isOfLine = true :=
  error_iff

@[simp] theorem bind_iff {outcome : Except Fault Result} {next : Result → Except Fault Other} :
    OfLine (outcome >>= next) ↔
      OfLine outcome ∧ ∀ result, outcome = .ok result → OfLine (next result) := by
  cases outcome with
  | error fault =>
    change OfLine (.error fault : Except Fault Other) ↔ _
    simp
  | ok result =>
    constructor
    · intro ofLine
      exact ⟨nofun, by rintro _ ⟨⟩; exact ofLine⟩
    · intro both
      exact both.2 result rfl

@[simp] theorem map_iff {outcome : Except Fault Result} {change : Result → Other} :
    OfLine (outcome.map change) ↔ OfLine outcome := by
  cases outcome with
  | error fault => simp [Except.map]
  | ok result => simp [Except.map]

@[simp] theorem mapped_iff {outcome : Except Fault Result} {change : Result → Other} :
    OfLine (change <$> outcome) ↔ OfLine outcome :=
  map_iff

theorem mapM {read : Result → Except Fault Other} {items : List Result}
    (each : ∀ item ∈ items, OfLine (read item)) : OfLine (items.mapM read) := by
  induction items with
  | nil => simp
  | cons item items inductionHypothesis =>
    simp only [List.mapM_cons, bind_iff, pure, implies_true, and_true]
    exact ⟨each item (by simp), fun _ _ => inductionHypothesis fun other inside =>
      each other (by simp [inside])⟩

end OfLine

/-! ## Fields -/

@[simp] theorem ofLine_readInt (raw : String) : OfLine (Record.readInt raw) := by
  simp only [Record.readInt]
  split <;> simp [Fault.isOfLine]

@[simp] theorem ofLine_readAddress (raw : String) : OfLine (Record.readAddress raw) := by
  simp only [Record.readAddress]
  split <;> simp [Fault.isOfLine]

/-- A conversion of fields that fails only because of the field. -/
def FieldReader.Plain (reader : FieldReader) : Prop :=
  ∀ raw, OfLine (reader.read raw)

@[simp] theorem FieldReader.plain_int : FieldReader.int.Plain := by
  intro raw
  simp [read]

@[simp] theorem FieldReader.plain_address : FieldReader.address.Plain := by
  intro raw
  simp [read]

@[simp] theorem FieldReader.plain_text : FieldReader.text.Plain := by
  intro raw
  simp [read]

/-- A declared field that is converted plainly. -/
def FieldParser.Plain : FieldParser → Prop
  | .optional inner _ | .rest inner => ∀ reader, inner.reader? = some reader → reader.Plain
  | parser => ∀ reader, parser.reader? = some reader → reader.Plain

/-- A checked field that is converted plainly. -/
def LayoutField.Plain : LayoutField → Prop
  | .required reader | .optional reader _ | .rest reader => reader.Plain
  | .command | .cancellation => True

/-- Checking keeps plain fields plain. -/
theorem FieldParser.Checked.plain {parser : FieldParser} {field : LayoutField}
    (checked : parser.Checked field) (plain : parser.Plain) : field.Plain := by
  cases checked with
  | @required _ reader reads =>
    cases parser with
    | optional | rest => simp [FieldParser.reader?] at reads
    | _ => exact plain reader reads
  | optional reads | rest reads => exact plain _ reads
  | command | cancellation => trivial

theorem Layout.plain_of_checked {parsers : List FieldParser} {layout : Layout}
    (checked : List.Forall₂ FieldParser.Checked parsers layout)
    (plain : ∀ parser ∈ parsers, parser.Plain) : ∀ field ∈ layout, field.Plain := by
  induction checked with
  | nil => nofun
  | cons here others inductionHypothesis =>
    rw [List.forall_mem_cons] at plain ⊢
    exact ⟨here.plain plain.1, inductionHypothesis plain.2⟩

/-- Reading plain fields fails only because of the line. -/
theorem Layout.ofLine_readFields {layout : Layout} (plain : ∀ field ∈ layout, field.Plain)
    (command : String) (cancelled : Bool) (available : Nat) (tokens : List String) :
    OfLine (layout.readFields command cancelled available tokens) := by
  induction layout generalizing tokens with
  | nil => simp [readFields]
  | cons field layout inductionHypothesis =>
    have rest := inductionHypothesis fun other inside => plain other (by simp [inside])
    have here := plain field (by simp)
    cases field with
    | required reader =>
      cases tokens with
      | nil => simp [readFields, Fault.isOfLine]
      | cons token tokens => simp [readFields, rest, show OfLine _ from here token]
    | optional reader default =>
      cases tokens with
      | nil => simp [readFields, rest]
      | cons token tokens => simp [readFields, rest, show OfLine _ from here token]
    | rest reader => simp [readFields, rest, OfLine.mapM fun token _ => here token]
    | command => simp [readFields, rest]
    | cancellation => simp [readFields, rest]

theorem Layout.ofLine_read {layout : Layout} (plain : ∀ field ∈ layout, field.Plain)
    (command : String) (tokens : List String) (cancelled : Bool) :
    OfLine (layout.read command tokens cancelled) := by
  rw [Layout.read, OfLine.map_iff]
  exact ofLine_readFields plain command cancelled tokens.length tokens

/-! ## Position tables -/

namespace PositionText

@[simp] theorem ofLine_number (what : String) (digits : List Char) :
    OfLine (number what digits) := by
  simp only [number]
  split <;> simp [Fault.isOfLine]

@[simp] theorem ofLine_optionalNumber (what : String) (digits : Option (List Char)) :
    OfLine (optionalNumber what digits) := by
  cases digits <;> simp [optionalNumber]

@[simp] theorem ofLine_requireGroups {Found : Type} (what encoded : String) (found : List Found) :
    OfLine (requireGroups what encoded found) := by
  simp only [requireGroups]
  split <;> simp [Fault.isOfLine]

@[simp] theorem ofLine_position (group : Group) : OfLine (position group) := by
  simp [position]

@[simp] theorem ofLine_inlinedCall (group : Group) : OfLine (inlinedCall group) := by
  simp [inlinedCall]

@[simp] theorem ofLine_positions (encoded : String) : OfLine (positions encoded) := by
  simp [positions, OfLine.mapM]

@[simp] theorem ofLine_inlinedCalls (encoded : String) : OfLine (inlinedCalls encoded) := by
  simp [inlinedCalls, OfLine.mapM]

@[simp] theorem ofLine_inlinedFunctions (encoded : String) :
    OfLine (inlinedFunctions encoded) := by
  simp [inlinedFunctions, OfLine.mapM]

theorem ofLine_sourceInfo (scriptId : UInt32) (start stop : UInt64)
    (positionText inliningText functionText : String) :
    OfLine (sourceInfo scriptId start stop positionText inliningText functionText) := by
  simp [sourceInfo]

end PositionText

/-! ## Enumerations -/

namespace VersionedEnum

variable {Value : Type} (enumeration : VersionedEnum Value) (version : Version)

/-- Some encoding is in force for every version. -/
def Total : Prop :=
  .any ∈ enumeration.encodings.map (·.bound)

instance : Decidable enumeration.Total :=
  inferInstanceAs (Decidable (_ ∈ _))

variable {enumeration} (total : enumeration.Total)
include total

/-- Every version has an encoding. -/
theorem Total.exists_encodingFor : ∃ encoding, enumeration.encodingFor version = .ok encoding := by
  obtain ⟨encoding, inside, unbounded⟩ := List.mem_map.mp total
  have admitted : encoding.bound.admits version = true := by rw [unbounded]; rfl
  rw [encodingFor]
  cases found : enumeration.encodings.find? fun encoding => encoding.bound.admits version with
  | none => exact absurd admitted (List.find?_eq_none.mp found encoding inside)
  | some first => exact ⟨first, rfl⟩

theorem Total.ofLine_decodeWith (shown : String) (isMeant : EncodedValue Value → Bool) :
    OfLine (enumeration.decodeWith version shown isMeant) := by
  obtain ⟨encoding, found⟩ := total.exists_encodingFor version
  simp only [decodeWith, found]
  split <;> simp [Fault.isOfLine]

end VersionedEnum

section Enumerations

variable (raw : String) (version : Version)

@[simp] theorem FunctionState.ofLine_decode : OfLine (decode raw version) :=
  VersionedEnum.Total.ofLine_decodeWith version (by decide : encodings.Total) _ _

@[simp] theorem IcState.ofLine_decode : OfLine (decode raw version) :=
  VersionedEnum.Total.ofLine_decodeWith version (by decide : encodings.Total) _ _

@[simp] theorem VmState.ofLine_ofOrdinal (ordinal : Int) : OfLine (ofOrdinal ordinal version) :=
  VersionedEnum.Total.ofLine_decodeWith version (by decide : encodings.Total) _ _

@[simp] theorem DeoptimizeKind.ofLine_decode : OfLine (decode raw version) := by
  have total : encodings.Total := by decide
  simp only [decode, VersionedEnum.decode]
  split <;> exact total.ofLine_decodeWith version _ _

end Enumerations

end JitTrace
