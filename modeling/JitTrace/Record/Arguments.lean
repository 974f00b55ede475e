import JitTrace.Fault

/-!
# Arguments of a handler

The values of one record, in the order of its declaration, and the ways in which
a handler asks for them. Integers and addresses stand in for each other as far as
their ranges allow; any other mismatch is a mistake in the record's declaration.
-/

namespace JitTrace

/-- The values of one record. -/
structure Arguments where
  command : String
  values : Array FieldValue

namespace Arguments

/-- The fault of asking for the wrong kind of value. -/
def mismatch (arguments : Arguments) (position : Nat) (expected : ExpectedValue)
    (found : Option FieldValue) : Fault :=
  .configuration (.fieldMismatch position arguments.command expected found)

/-- The value at a position. -/
def get? (arguments : Arguments) (position : Nat) : Option FieldValue :=
  arguments.values[position]?

/-- The integer at a position. -/
def int (arguments : Arguments) (position : Nat) : Except Fault Int64 :=
  match arguments.get? position with
  | some (.int value) => .ok value
  | some (.address value) => .ok value.toInt64
  | found => .error (arguments.mismatch position .int found)

/-- The address at a position. -/
def address (arguments : Arguments) (position : Nat) : Except Fault UInt64 :=
  match arguments.get? position with
  | some (.address value) => .ok value
  | some (.int value) =>
    if 0 ≤ value then .ok value.toUInt64
    else .error (arguments.mismatch position .address (some (.int value)))
  | found => .error (arguments.mismatch position .address found)

/-- The text at a position. -/
def text (arguments : Arguments) (position : Nat) : Except Fault String :=
  match arguments.get? position with
  | some (.text value) => .ok value
  | found => .error (arguments.mismatch position .text found)

/-- Whether the line has no field for a position. -/
def isAbsent (arguments : Arguments) (position : Nat) : Bool :=
  match arguments.get? position with
  | some .absent | none => true
  | _ => false

/-- The text at a position, unless it is absent. -/
def text? (arguments : Arguments) (position : Nat) : Except Fault (Option String) :=
  if arguments.isAbsent position then .ok none else (arguments.text position).map some

/-- The address at a position, unless it is absent. -/
def address? (arguments : Arguments) (position : Nat) : Except Fault (Option UInt64) :=
  if arguments.isAbsent position then .ok none else (arguments.address position).map some

/-- The tail at a position. -/
def list (arguments : Arguments) (position : Nat) : Except Fault (List FieldValue) :=
  match arguments.get? position with
  | some (.list items) => .ok items
  | found => .error (arguments.mismatch position .list found)

/-- The tail at a position, as texts. -/
def textList (arguments : Arguments) (position : Nat) : Except Fault (List String) := do
  let items ← arguments.list position
  items.mapM fun item =>
    match item with
    | .text value => .ok value
    | found => .error (arguments.mismatch position .textList (some found))

/-- The cancellation flag at a position. -/
def cancellation (arguments : Arguments) (position : Nat) : Except Fault Bool :=
  match arguments.get? position with
  | some (.cancellation cancelled) => .ok cancelled
  | found => .error (arguments.mismatch position .cancellation found)

/-- The same arguments with the cancellation flag as it stands now. -/
def observe (arguments : Arguments) (cancelled : Bool) : Arguments :=
  { arguments with values := arguments.values.map fun value =>
      match value with
      | .cancellation _ => .cancellation cancelled
      | other => other }

end Arguments

end JitTrace
