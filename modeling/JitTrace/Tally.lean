/-!
# Tallies

How often each of a few keys has been counted. A key that was never counted is
not listed.
-/

namespace JitTrace

/-- Keys with their counts, in the order in which they were first counted. -/
abbrev Tally (Key : Type) := List (Key × Nat)

namespace Tally

variable {Key : Type} [DecidableEq Key]

/-- Count a key once more. -/
def bump (key : Key) : Tally Key → Tally Key
  | [] => [(key, 1)]
  | (other, count) :: rest =>
    if other = key then (other, count + 1) :: rest else (other, count) :: bump key rest

/-- Take one count of a key back. -/
def lower (key : Key) : Tally Key → Tally Key
  | [] => []
  | (other, count) :: rest =>
    if other = key then (other, count - 1) :: rest else (other, count) :: lower key rest

/-- How often a key has been counted. -/
def count (tally : Tally Key) (key : Key) : Nat :=
  match tally with
  | [] => 0
  | (other, count) :: rest => if other = key then count else Tally.count rest key

/-- How often keys have been counted in all. -/
def total : Tally Key → Nat
  | [] => 0
  | (_, count) :: rest => count + total rest

end Tally

end JitTrace
