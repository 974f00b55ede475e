import JitTrace.Record.Arguments
import JitTrace.Record.Integer

/-!
# Layouts of records

A record is declared by the list of its fields. A declaration is checked when it
is made, and what comes out is a layout in which a field that may be missing or
repeated can only hold a plain one; reading a line by a layout then fails only
because of the line.
-/

namespace JitTrace

/-- How one field is declared. -/
inductive FieldParser where
  /-- A signed integer, decimal or hexadecimal. -/
  | int
  /-- An address, hexadecimal or decimal. -/
  | address
  /-- The text of the field. -/
  | text
  /-- Any other conversion. -/
  | custom (read : String → Except Fault FieldValue)
  /-- A trailing field that may be missing. -/
  | optional (inner : FieldParser) (default : FieldValue)
  /-- All remaining fields. -/
  | rest (inner : FieldParser)
  /-- The name of the record; uses up no field. -/
  | command
  /-- The cancellation flag of the read; uses up no field. -/
  | cancellation
deriving Inhabited

/-- How the text of a single field is converted. -/
inductive FieldReader where
  | int
  | address
  | text
  | custom (read : String → Except Fault FieldValue)

/-- Convert the text of a field. -/
def FieldReader.read : FieldReader → String → Except Fault FieldValue
  | .int, raw => (Record.readInt raw).map .int
  | .address, raw => (Record.readAddress raw).map .address
  | .text, raw => .ok (.text raw)
  | .custom read, raw => read raw

/-- The conversion of a plain field. -/
def FieldParser.reader? : FieldParser → Option FieldReader
  | .int => some .int
  | .address => some .address
  | .text => some .text
  | .custom read => some (.custom read)
  | _ => none

/-- A checked field. -/
inductive LayoutField where
  | required (reader : FieldReader)
  | optional (reader : FieldReader) (default : FieldValue)
  | rest (reader : FieldReader)
  | command
  | cancellation

/-- The checked form of a record's fields. -/
abbrev Layout := List LayoutField

namespace Layout

/-- Check the declared fields from `position` on. A tail must come last, and
nothing that needs a field may follow one that may be missing. -/
def check (record : String) (seenOptional : Bool) (position : Nat) :
    List FieldParser → Except Fault Layout
  | [] => .ok []
  | .rest inner :: others =>
    if !others.isEmpty then .error (.configuration (.restNotLast record position))
    else
      match inner.reader? with
      | none => .error (.configuration (.restNotScalar record))
      | some reader => .ok [.rest reader]
  | .optional inner default :: others =>
    match inner.reader? with
    | none => .error (.configuration (.optionalNotScalar record))
    | some reader => (check record true (position + 1) others).map (.optional reader default :: ·)
  | .command :: others => (check record seenOptional (position + 1) others).map (.command :: ·)
  | .cancellation :: others =>
    (check record seenOptional (position + 1) others).map (.cancellation :: ·)
  | field :: others =>
    if seenOptional then .error (.configuration (.requiredAfterOptional record position))
    else
      match field.reader? with
      | none => .error (.configuration (.requiredAfterOptional record position))
      | some reader => (check record seenOptional (position + 1) others).map (.required reader :: ·)

/-- Check the declared fields of a record. -/
def ofParsers (record : String) (parsers : List FieldParser) : Except Fault Layout :=
  check record false 0 parsers

/-- Read the fields that are left of a line with `available` fields in all. -/
def readFields (command : String) (cancelled : Bool) (available : Nat) :
    Layout → List String → Except Fault (List FieldValue)
  | [], _ => .ok []
  | .command :: layout, tokens =>
    (readFields command cancelled available layout tokens).map (.text command :: ·)
  | .cancellation :: layout, tokens =>
    (readFields command cancelled available layout tokens).map (.cancellation cancelled :: ·)
  | .optional _ default :: layout, [] =>
    (readFields command cancelled available layout []).map (default :: ·)
  | .optional reader _ :: layout, token :: tokens => do
    let value ← reader.read token
    let values ← readFields command cancelled available layout tokens
    return value :: values
  | .rest reader :: layout, tokens => do
    let items ← tokens.mapM reader.read
    let values ← readFields command cancelled available layout []
    return .list items :: values
  | .required _ :: _, [] => .error (.parse (.missingField command available))
  | .required reader :: layout, token :: tokens => do
    let value ← reader.read token
    let values ← readFields command cancelled available layout tokens
    return value :: values

/-- Read the fields of a line by a layout. Surplus fields are ignored. -/
def read (layout : Layout) (command : String) (tokens : List String) (cancelled : Bool) :
    Except Fault Arguments :=
  (layout.readFields command cancelled tokens.length tokens).map fun values =>
    ⟨command, values.toArray⟩

end Layout

end JitTrace
