/-!
# Reading integers

Digit strings in any base up to sixteen, and the bounded integers built on
them. A bounded integer may carry a sign of its own: unsigned ones a plus,
signed ones a plus or a minus.
-/

namespace JitTrace.Number

/-- The value of a digit, when `c` is one in this base. -/
def digitValue? (base : Nat) (c : Char) : Option Nat :=
  let value? :=
    if '0' ≤ c && c ≤ '9' then some (c.toNat - '0'.toNat)
    else if 'a' ≤ c && c ≤ 'f' then some (c.toNat - 'a'.toNat + 10)
    else if 'A' ≤ c && c ≤ 'F' then some (c.toNat - 'A'.toNat + 10)
    else none
  value?.filter (· < base)

/-- Continue a digit string whose front has the value `value`. -/
def naturalFrom? (base value : Nat) : List Char → Option Nat
  | [] => some value
  | c :: cs =>
    match digitValue? base c with
    | some digit => naturalFrom? base (value * base + digit) cs
    | none => none

/-- The value of a non-empty digit string. -/
def natural? (base : Nat) : List Char → Option Nat
  | [] => none
  | c :: cs => naturalFrom? base 0 (c :: cs)

/-- An unsigned integer below `limit`, with an optional plus sign. -/
def unsigned? (base limit : Nat) (cs : List Char) : Option Nat :=
  let magnitude? :=
    match cs with
    | '+' :: digits => natural? base digits
    | digits => natural? base digits
  magnitude?.filter (· < limit)

/-- A signed integer in `[-limit, limit)`, with an optional sign. -/
def signed? (base limit : Nat) (cs : List Char) : Option Int :=
  match cs with
  | '-' :: digits =>
    ((natural? base digits).filter (· ≤ limit)).map fun magnitude => -(magnitude : Int)
  | '+' :: digits => ((natural? base digits).filter (· < limit)).map Int.ofNat
  | digits => ((natural? base digits).filter (· < limit)).map Int.ofNat

/-- A 32-bit unsigned integer in decimal. -/
def word32? (cs : List Char) : Option UInt32 :=
  (unsigned? 10 UInt32.size cs).map UInt32.ofNat

/-- A 64-bit unsigned integer. -/
def word64? (base : Nat) (cs : List Char) : Option UInt64 :=
  (unsigned? base UInt64.size cs).map UInt64.ofNat

/-- A 64-bit signed integer. -/
def int64? (base : Nat) (cs : List Char) : Option Int64 :=
  (signed? base 0x8000000000000000 cs).map Int64.ofInt

/-- The digits behind a hexadecimal marker, when the text starts with one. -/
def hexMarked? : List Char → Option (List Char)
  | '0' :: 'x' :: digits => some digits
  | '0' :: 'X' :: digits => some digits
  | _ => none

/-- The usual form of an address: `0x` and lower case hexadecimal digits. -/
def hexText (word : UInt64) : String :=
  "0x" ++ String.ofList (Nat.toDigits 16 word.toNat)

end JitTrace.Number
