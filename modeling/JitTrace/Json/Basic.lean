/-!
# JSON documents

The tree of a JSON document. Numbers are kept as they are written, because what
a number means depends on who reads it. A string may contain half of a surrogate
pair, in which case it denotes no text.
-/

namespace JitTrace

/-- A number as it is written. -/
structure JsonNumber where
  negative : Bool := false
  /-- The digits before the point. -/
  whole : List Char
  /-- The digits behind the point; none where there is no point. -/
  fraction : List Char := []
  /-- Whether the exponent is negative, and its digits. -/
  exponent : Option (Bool × List Char) := none
deriving Repr, DecidableEq, Inhabited

/-- A JSON document. -/
inductive Json where
  | null
  | bool (value : Bool)
  | number (value : JsonNumber)
  | string (text : Option String)
  | array (items : List Json)
  | object (members : List (Option String × Json))
deriving Inhabited

namespace JsonNumber

/-- The value of a run of digits that continues `value`. -/
def digitsValue (value : Nat) (digits : List Char) : Nat :=
  digits.foldl (fun value c => value * 10 + (c.toNat - '0'.toNat)) value

/-- A natural number as it is written. -/
def ofNat (value : Nat) : JsonNumber :=
  { whole := Nat.toDigits 10 value }

/-- An integer as it is written. -/
def ofInt : Int → JsonNumber
  | .ofNat value => ofNat value
  | .negSucc value => { ofNat (value + 1) with negative := true }

/-- Whether the number is written without point and exponent. -/
def isIntegral (number : JsonNumber) : Bool :=
  number.fraction.isEmpty && number.exponent.isNone

/-- The value of a number that is written as a natural number below `limit`. A
number with a minus sign is none, not even zero. -/
def natBelow? (limit : Nat) (number : JsonNumber) : Option Nat :=
  if number.isIntegral && !number.negative then
    let value := digitsValue 0 number.whole
    if value < limit then some value else none
  else none

/-- The value of a number that is written as a 64-bit signed integer. -/
def int64? (number : JsonNumber) : Option Int64 :=
  if number.isIntegral then
    let value := digitsValue 0 number.whole
    if number.negative then
      if value != 0 && value ≤ 0x8000000000000000 then some (.ofInt (-(value : Int))) else none
    else if value < 0x8000000000000000 then some (.ofInt value) else none
  else none

/-- Continue a 64-bit significand with as many digits as it has room for; the
digits without room are left over. -/
def fillSignificand (significand : Nat) : List Char → Nat × List Char
  | [] => (significand, [])
  | c :: rest =>
    let next := significand * 10 + (c.toNat - '0'.toNat)
    if next < UInt64.size then fillSignificand next rest else (significand, c :: rest)

/-- A power of ten up to the three hundred and eighth, as a binary64 number. -/
def powerOfTen (power : Nat) : Float :=
  Float.ofScientific 1 false power

/-- Scale a binary64 number by a power of ten in one operation where a power of
that size exists, and in steps below that; none where the result is too large. -/
def scale : Nat → Float → Int → Option Float
  | 0, value, _ => some value
  | fuel + 1, value, power =>
    if power.natAbs ≤ 308 then
      if 0 ≤ power then
        let scaled := value * powerOfTen power.natAbs
        if scaled.isInf then none else some scaled
      else some (value / powerOfTen power.natAbs)
    else if value == 0.0 then some value
    else if 0 ≤ power then none
    else scale fuel (value / 1e308) (power + 308)

/-- The magnitude of a number with a given exponent. An exponent beyond 31 bits
makes the number zero or too large at once. -/
def scaled? (significand : Nat) (dropped : Int) : Option (Bool × List Char) → Option Float
  | none => scale 4 significand.toFloat dropped
  | some (negative, digits) =>
    let exponent := digitsValue 0 digits
    if 0x80000000 ≤ exponent then
      if significand != 0 && !negative then none else some 0.0
    else scale 4 significand.toFloat (if negative then dropped - exponent else dropped + exponent)

/-- The value of a number as binary64. The first nineteen or twenty digits form
the significand, later ones only move the point, and the scaling by a power of
ten rounds a second time. -/
def float? (number : JsonNumber) : Option Float :=
  let (significand, overflow) := fillSignificand 0 number.whole
  let (significand, unused) := fillSignificand significand number.fraction
  let dropped : Int := overflow.length - (number.fraction.length - unused.length : Nat)
  (scaled? significand dropped number.exponent).map fun magnitude =>
    if number.negative then -magnitude else magnitude

end JsonNumber

namespace Json

/-- The string document of a text. -/
def ofString (text : String) : Json :=
  .string (some text)

/-- The number document of a natural number. -/
def ofNat (value : Nat) : Json :=
  .number (.ofNat value)

/-- The number document of an integer. -/
def ofInt (value : Int) : Json :=
  .number (.ofInt value)

/-- An object with the given members, in this order. -/
def ofMembers (members : List (String × Json)) : Json :=
  .object (members.map fun (key, value) => (some key, value))

end Json

end JitTrace
