import JitTrace.Json.Basic

/-!
# Records in JSON

How a record with named fields is read from a document: as an object, whose
unknown members are ignored and whose known ones occur at most once, or as an
array that holds the fields in order.
-/

namespace JitTrace.Json

/-- The value of a member that occurs at most once. Two occurrences are a fault. -/
def member? (name : String) (members : List (Option String × Json)) : Option (Option Json) :=
  match members.filter fun (key, _) => key == some name with
  | [] => some none
  | [(_, value)] => some (some value)
  | _ => none

/-- The fields of a record by their names, in this order. A missing field is
`none`; a document that is no record has no fields. -/
def fields? (names : List String) : Json → Option (List (Option Json))
  | .object members =>
    if members.all fun (key, _) => key.isSome then
      names.mapM fun name => member? name members
    else none
  | .array items =>
    if items.length ≤ names.length then
      some (items.map some ++ List.replicate (names.length - items.length) none)
    else none
  | _ => none

/-- A field that may be missing. -/
def optional? {Value : Type} (default : Value) (read? : Json → Option Value) :
    Option Json → Option Value
  | none => some default
  | some document => read? document

/-- A field that must be present. -/
def required? {Value : Type} (read? : Json → Option Value) : Option Json → Option Value
  | none => none
  | some document => read? document

/-- A value that may be null. -/
def nullable? {Value : Type} (read? : Json → Option Value) : Json → Option (Option Value)
  | .null => some none
  | document => (read? document).map some

/-- A truth value. -/
def readBool? : Json → Option Bool
  | .bool value => some value
  | _ => none

/-- A text. -/
def readText? : Json → Option String
  | .string text => text
  | _ => none

/-- A 32-bit unsigned integer. -/
def readWord32? : Json → Option UInt32
  | .number literal => (literal.natBelow? UInt32.size).map UInt32.ofNat
  | _ => none

/-- A 64-bit unsigned integer. -/
def readWord64? : Json → Option UInt64
  | .number literal => (literal.natBelow? UInt64.size).map UInt64.ofNat
  | _ => none

/-- A 64-bit signed integer. -/
def readInt64? : Json → Option Int64
  | .number literal => literal.int64?
  | _ => none

/-- A binary64 number. -/
def readFloat? : Json → Option Float
  | .number literal => literal.float?
  | _ => none

/-- A list of values of one kind. -/
def readList? {Value : Type} (read? : Json → Option Value) : Json → Option (List Value)
  | .array items => items.mapM read?
  | _ => none

end JitTrace.Json
