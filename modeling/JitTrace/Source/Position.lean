/-!
# Positions of machine code in its source

The mapping from machine code to script text that the log attaches to a piece of
code: a position table over code offsets, and a table of inlined calls that the
position table refers to.
-/

namespace JitTrace

/-- From `codeOffset` on, the code belongs to `scriptOffset`. -/
structure PositionEntry where
  codeOffset : UInt64
  scriptOffset : UInt64
  /-- The inlined call that the code belongs to, if any. -/
  inliningId : Option Nat
deriving DecidableEq, Repr

/-- An inlined call: what was inlined, and where the call stands in its caller. -/
structure InliningPosition where
  /-- Index into the table of inlined functions. -/
  functionIndex : Nat
  scriptOffset : UInt64
  /-- The inlined call that contains this one; none for the outer function. -/
  parent : Option Nat
deriving DecidableEq, Repr

/-- The source mapping of a piece of code. -/
structure SourceInfo where
  scriptId : UInt32
  start : UInt64
  stop : UInt64
  /-- Sorted by code offset. -/
  positions : List PositionEntry
  /-- Indexed by inlining id. -/
  inlining : Array InliningPosition
  /-- Addresses of shared functions, by function index. -/
  inlinedFunctions : Array UInt64
deriving DecidableEq, Repr

/-- The last position at or before a code offset. -/
def SourceInfo.positionAt? (info : SourceInfo) (codeOffset : UInt64) : Option PositionEntry :=
  (info.positions.takeWhile fun entry => entry.codeOffset ≤ codeOffset).getLast?

end JitTrace
