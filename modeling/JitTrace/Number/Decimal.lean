/-!
# Decimal text of binary fractions

Two ways to write a binary64 number in positional notation: with the fewest
digits that still identify it, and with a fixed number of places, correctly
rounded. Both work on the exact value, a natural number times a power of two.
-/

namespace JitTrace.Number

/-- A finite binary64 magnitude: `significand * 2 ^ exponent`. -/
structure BinaryFraction where
  significand : Nat
  exponent : Int
deriving DecidableEq, Repr

/-- The parts of a binary64 number. -/
inductive FloatParts where
  | notANumber
  | infinite (negative : Bool)
  | finite (negative : Bool) (magnitude : BinaryFraction)
deriving DecidableEq, Repr

/-- Read the sign, exponent and significand fields of a binary64 pattern. -/
def FloatParts.ofBits (bits : UInt64) : FloatParts :=
  let negative := bits >>> 63 == 1
  let exponentField := (bits >>> 52 &&& 0x7ff).toNat
  let fraction := (bits &&& 0xfffffffffffff).toNat
  if exponentField == 0x7ff then
    if fraction == 0 then .infinite negative else .notANumber
  else if exponentField == 0 then
    .finite negative ⟨fraction, -1074⟩
  else
    .finite negative ⟨fraction + 0x10000000000000, (exponentField : Int) - 1075⟩

/-- Numerator and denominator of `significand * 2 ^ exponent`. -/
def BinaryFraction.ratio (value : BinaryFraction) : Nat × Nat :=
  if 0 ≤ value.exponent then
    (value.significand * Nat.pow 2 value.exponent.toNat, 1)
  else
    (value.significand, Nat.pow 2 (-value.exponent).toNat)

/-- Divide and round to the nearest integer, a half going to the even one. -/
def roundDivEven (numerator denominator : Nat) : Nat :=
  let quotient := numerator / denominator
  let twiceRest := 2 * (numerator % denominator)
  if twiceRest < denominator then quotient
  else if denominator < twiceRest then quotient + 1
  else if quotient % 2 == 0 then quotient
  else quotient + 1

/-- Divide and round to the nearest integer, a half going up. -/
def roundDivUp (numerator denominator : Nat) : Nat :=
  (2 * numerator + denominator) / (2 * denominator)

/-- Write `value / 10 ^ places` positionally, with exactly `places` decimals. -/
def placesText (value places : Nat) : String :=
  let digits := Nat.toDigits 10 value
  let padded := List.replicate (places + 1 - digits.length) '0' ++ digits
  let whole := padded.take (padded.length - places)
  let decimals := padded.drop (padded.length - places)
  if places == 0 then String.ofList whole
  else String.ofList (whole ++ '.' :: decimals)

/-- A binary64 number with exactly `places` decimals. -/
def fixedText (places : Nat) (value : Float) : String :=
  match FloatParts.ofBits value.toBits with
  | .notANumber => "NaN"
  | .infinite negative => if negative then "-inf" else "inf"
  | .finite negative magnitude =>
    let (numerator, denominator) := magnitude.ratio
    let text := placesText (roundDivEven (numerator * Nat.pow 10 places) denominator) places
    if negative then "-" ++ text else text

/-- The numbers that read back as a given magnitude lie between the midpoints to
its two neighbours; the midpoints themselves count when the significand is
even. The bounds and the value are given over one denominator. -/
structure RoundingInterval where
  low : Nat
  value : Nat
  high : Nat
  denominator : Nat
  closed : Bool

/-- The rounding interval of a nonzero magnitude. Below a power of two the
lower neighbour is only half as far away as the upper one. -/
def BinaryFraction.interval (value : BinaryFraction) : RoundingInterval :=
  let lowerIsCloser := value.significand == 0x10000000000000 && -1074 < value.exponent
  let quarters := 4 * value.significand
  let low := if lowerIsCloser then quarters - 1 else quarters - 2
  let high := quarters + 2
  let scale := value.exponent - 2
  let (factor, denominator) :=
    if 0 ≤ scale then (Nat.pow 2 scale.toNat, 1) else (1, Nat.pow 2 (-scale).toNat)
  ⟨low * factor, quarters * factor, high * factor, denominator,
    value.significand % 2 == 0⟩

/-- Whether `point * 10 ^ power` reads back as the value of the interval. -/
def RoundingInterval.admits (interval : RoundingInterval) (point : Nat) (power : Int) : Bool :=
  let (left, right) :=
    if 0 ≤ power then (point * Nat.pow 10 power.toNat * interval.denominator, 1)
    else (point * interval.denominator, Nat.pow 10 (-power).toNat)
  let low := interval.low * right
  let high := interval.high * right
  if interval.closed then low ≤ left && left ≤ high else low < left && left < high

/-- The nearest admitted point of the grid of multiples of `10 ^ power`; of two
that are equally near, the greater one. -/
def RoundingInterval.gridPoint? (interval : RoundingInterval) (power : Int) : Option Nat :=
  let (numerator, denominator) :=
    if 0 ≤ power then (interval.value, interval.denominator * Nat.pow 10 power.toNat)
    else (interval.value * Nat.pow 10 (-power).toNat, interval.denominator)
  let below := numerator / denominator
  let nearest := roundDivUp numerator denominator
  let other := if nearest == below then below + 1 else below
  if 0 < nearest && interval.admits nearest power then some nearest
  else if 0 < other && interval.admits other power then some other
  else none

/-- The first admitted point on ever finer grids, with its power of ten. -/
def RoundingInterval.shortest (interval : RoundingInterval) : Nat → Int → Nat × Int
  | 0, power => (0, power)
  | fuel + 1, power =>
    match interval.gridPoint? power with
    | some point => (point, power)
    | none => interval.shortest fuel (power - 1)

/-- A binary64 number in positional notation with the fewest digits that read
back as the same number. -/
def shortestText (value : Float) : String :=
  match FloatParts.ofBits value.toBits with
  | .notANumber => "NaN"
  | .infinite negative => if negative then "-inf" else "inf"
  | .finite negative magnitude =>
    let text :=
      if magnitude.significand == 0 then "0"
      else
        let (point, power) := magnitude.interval.shortest 640 309
        if 0 ≤ power then placesText (point * Nat.pow 10 power.toNat) 0
        else placesText point (-power).toNat
    if negative then "-" ++ text else text

end JitTrace.Number
