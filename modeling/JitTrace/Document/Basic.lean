import JitTrace.Fault
import JitTrace.Json.Basic

/-!
# Building documents

Analyses can be handed on as JSON documents. Integers stay exact, addresses are
written in hexadecimal, and fractions as their bit patterns, so that two analyses
are equal exactly when their documents are.
-/

namespace JitTrace.Document

/-- A natural number. -/
def nat (value : Nat) : Json :=
  Json.ofNat value

/-- A word as an integer. -/
def word (value : UInt64) : Json :=
  Json.ofNat value.toNat

/-- A word as an address. -/
def address (value : UInt64) : Json :=
  Json.ofString (Number.hexText value)

/-- A signed integer. -/
def int (value : Int64) : Json :=
  Json.ofInt value.toInt

/-- A text. -/
def text (value : String) : Json :=
  Json.ofString value

/-- A fraction as the sixteen digits of its bit pattern. -/
def float (value : Float) : Json :=
  if value.isNaN then text "nan"
  else
    let digits := Nat.toDigits 16 value.toBits.toNat
    text (String.ofList (List.replicate (16 - digits.length) '0' ++ digits))

/-- A value that may be missing. -/
def optional {Value : Type} (write : Value → Json) : Option Value → Json
  | none => .null
  | some value => write value

/-- A list. -/
def list {Value : Type} (write : Value → Json) (values : List Value) : Json :=
  .array (values.map write)

/-- A fault: its kind and its wording. What the file system and the JSON reader say
is left to them. -/
def fault (cause : Fault) : Json :=
  match cause with
  | .io _ => Json.ofMembers [("error", text "IoError")]
  | .json => Json.ofMembers [("error", text "JsonError")]
  | .parse _ => worded "ParseError"
  | .codeNotFound _ => worded "CodeNotFound"
  | .illegalState _ => worded "IllegalState"
  | .configuration _ => worded "Configuration"
  | .unknownEnumValue .. => worded "UnknownEnumValue"
  | .cancelled => worded "Cancelled"
where
  worded (kind : String) : Json :=
    Json.ofMembers [("error", text kind), ("message", text cause.message)]

/-- A value, or the fault that stands in its place. -/
def result {Value : Type} (write : Value → Json) : Except Fault Value → Json
  | .ok value => write value
  | .error cause => fault cause

/-- Nothing, or the fault that stands in its place. -/
def done (outcome : Except Fault Unit) : Json :=
  result (fun _ => .null) outcome

end JitTrace.Document
