/-!
# Ticks by source line

How many samples of a call tree node fell on each source line. Lines are sorted,
and a line without samples is not listed.
-/

namespace JitTrace

/-- Lines with their tick counts, in ascending order of lines. -/
abbrev LineTicks := List (Nat × Nat)

namespace LineTicks

/-- The ticks on a line. -/
def count (ticks : LineTicks) (line : Nat) : Nat :=
  (ticks.lookup line).getD 0

/-- Add ticks to a line. -/
def add (line amount : Nat) : LineTicks → LineTicks
  | [] => [(line, amount)]
  | (other, present) :: rest =>
    if line < other then (line, amount) :: (other, present) :: rest
    else if line = other then (other, present + amount) :: rest
    else (other, present) :: add line amount rest

/-- Take one tick away from a line that has one. -/
def remove (line : Nat) : LineTicks → LineTicks
  | [] => []
  | (other, present) :: rest =>
    if line = other then
      if present ≤ 1 then rest else (other, present - 1) :: rest
    else (other, present) :: remove line rest

/-- Add all ticks of another table. -/
def merge (ticks added : LineTicks) : LineTicks :=
  added.foldl (fun merged (line, amount) => merged.add line amount) ticks

end LineTicks

end JitTrace
