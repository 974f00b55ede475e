import JitTrace.Text.Quoted

/-!
# Field values

What a field of a log record holds once it has been read. The written form is
used in messages about a handler that asks for the wrong kind of value.
-/

namespace JitTrace

/-- The value of one record field. -/
inductive FieldValue where
  | int (value : Int64)
  | address (value : UInt64)
  | text (value : String)
  /-- Every field of a variable-length tail. -/
  | list (items : List FieldValue)
  /-- The cancellation flag of the read, as last observed. -/
  | cancellation (cancelled : Bool)
  /-- An optional field that the line does not have. -/
  | absent
deriving Inhabited

namespace FieldValue

mutual

/-- The written form of a value. -/
def written : FieldValue → String
  | .int value => "Int(" ++ toString value.toInt ++ ")"
  | .address value => "Address(" ++ toString value.toNat ++ ")"
  | .text value => "Str(" ++ Text.quoted value ++ ")"
  | .list items => "List([" ++ writtenItems items ++ "])"
  | .cancellation cancelled =>
    "Cancellation(CancellationToken \x7b cancelled: " ++ toString cancelled ++ " \x7d)"
  | .absent => "Absent"

/-- The items of a list, separated by commas. -/
def writtenItems : List FieldValue → String
  | [] => ""
  | [item] => written item
  | item :: next :: rest => written item ++ ", " ++ writtenItems (next :: rest)

end

/-- The written form of a value that may be missing altogether. -/
def writtenOption : Option FieldValue → String
  | some value => "Some(" ++ value.written ++ ")"
  | none => "None"

end FieldValue

end JitTrace
