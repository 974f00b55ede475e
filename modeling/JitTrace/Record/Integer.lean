import JitTrace.Fault
import JitTrace.Text.Blank

/-!
# Integer and address fields

Integers are decimal or hexadecimal with an optional minus sign, addresses are
hexadecimal or decimal without one. Blanks around either are ignored.
-/

namespace JitTrace.Record

/-- The magnitude of an integer field, decimal or marked hexadecimal. -/
def magnitude? (cs : List Char) : Option Int64 :=
  match Number.hexMarked? cs with
  | some digits => Number.int64? 16 digits
  | none => Number.int64? 10 cs

/-- Read a signed integer field. -/
def readInt (raw : String) : Except Fault Int64 :=
  let cs := Text.trim raw.toList
  let value? :=
    match cs with
    | '-' :: rest => (magnitude? rest).map fun value => -value
    | _ => magnitude? cs
  match value? with
  | some value => .ok value
  | none => .error (.parse (.integer (String.ofList cs)))

/-- Read an address field. -/
def readAddress (raw : String) : Except Fault UInt64 :=
  let cs := Text.trim raw.toList
  let value? :=
    match Number.hexMarked? cs with
    | some digits => Number.word64? 16 digits
    | none => Number.word64? 10 cs
  match value? with
  | some value => .ok value
  | none => .error (.parse (.address (String.ofList cs)))

end JitTrace.Record
