import JitTrace.Record.Integer
import JitTrace.Source.Position
import JitTrace.Text.Property

/-!
# Written form of positions

Position tables are logged as runs of short groups: `C8O20I0` for a position,
`F1O7I0` for an inlined call, `S0x600` for an inlined function. Groups are found
wherever they stand, each as long as possible, from left to right. A text in
which no group stands at all is a fault.
-/

namespace JitTrace.PositionText

/-- The texts of the numbers in one group. -/
structure Group where
  first : List Char
  second : List Char
  third : Option (List Char)
deriving DecidableEq, Repr

/-- A non-empty run of characters of a kind, as long as possible. -/
def run? (isMember : Char → Bool) (cs : List Char) : Option (List Char × List Char) :=
  match cs.span isMember with
  | ([], _) => none
  | (members, rest) => some (members, rest)

/-- The optional last number of a group. -/
def third? : List Char → Option (List Char) × List Char
  | 'I' :: rest =>
    match run? Text.isDecimalDigit rest with
    | some (digits, after) => (some digits, after)
    | none => (none, 'I' :: rest)
  | rest => (none, rest)

/-- The group at the front of a text: `marker`, a number, `O`, a number, and
perhaps `I` and a number. -/
def group? (marker : Char) : List Char → Option (Group × List Char)
  | [] => none
  | c :: rest =>
    if c != marker then none
    else
      match run? Text.isDecimalDigit rest with
      | some (first, 'O' :: rest) =>
        match run? Text.isDecimalDigit rest with
        | some (second, rest) =>
          let (third, rest) := third? rest
          some (⟨first, second, third⟩, rest)
        | none => none
      | _ => none

/-- A hexadecimal digit. -/
def isHexDigit (c : Char) : Bool :=
  (Number.digitValue? 16 c).isSome

/-- The function address at the front of a text, behind its marker `S`. -/
def function? : List Char → Option (List Char × List Char)
  | 'S' :: '0' :: 'x' :: rest =>
    (run? isHexDigit rest).map fun (digits, after) => ('0' :: 'x' :: digits, after)
  | _ => none

/-- Every group in a text, found with the reader of one group. `fuel` bounds the
number of characters looked at. -/
def scan {Found : Type} (read? : List Char → Option (Found × List Char)) :
    Nat → List Char → List Found
  | 0, _ => []
  | _, [] => []
  | fuel + 1, c :: cs =>
    match read? (c :: cs) with
    | some (found, rest) => found :: scan read? fuel rest
    | none => scan read? fuel cs

/-- Every group in a text; each step moves on by at least one character. -/
def groups {Found : Type} (read? : List Char → Option (Found × List Char))
    (cs : List Char) : List Found :=
  scan read? cs.length cs

/-- A number below `2 ^ 64`, called `what` in the fault. -/
def number (what : String) (digits : List Char) : Except Fault Nat :=
  match Number.unsigned? 10 UInt64.size digits with
  | some value => .ok value
  | none => .error (.parse (.positionNumber what (String.ofList digits)))

/-- The number of an optional group member. -/
def optionalNumber (what : String) : Option (List Char) → Except Fault (Option Nat)
  | none => .ok none
  | some digits => (number what digits).map some

/-- Fail when a text that is not empty holds no group. -/
def requireGroups {Found : Type} (what encoded : String) (found : List Found) :
    Except Fault (List Found) :=
  if found.isEmpty && !encoded.isEmpty then
    .error (.parse (.malformedPositions what encoded))
  else .ok found

/-- The position that a group denotes. -/
def position (group : Group) : Except Fault PositionEntry := do
  let codeOffset ← number "code offset" group.first
  let scriptOffset ← number "script offset" group.second
  let inliningId ← optionalNumber "inlining id" group.third
  return ⟨.ofNat codeOffset, .ofNat scriptOffset, inliningId⟩

/-- The inlined call that a group denotes. -/
def inlinedCall (group : Group) : Except Fault InliningPosition := do
  let functionIndex ← number "function index" group.first
  let scriptOffset ← number "script offset" group.second
  let parent ← optionalNumber "inlining id" group.third
  return ⟨functionIndex, .ofNat scriptOffset, parent⟩

/-- Read a position table, sorted by code offset; positions at the same offset
keep their order. -/
def positions (encoded : String) : Except Fault (List PositionEntry) := do
  let entries ← (groups (group? 'C') encoded.toList).mapM position
  let entries ← requireGroups "source positions" encoded entries
  return entries.mergeSort fun left right => left.codeOffset ≤ right.codeOffset

/-- Read a table of inlined calls. -/
def inlinedCalls (encoded : String) : Except Fault (List InliningPosition) := do
  let calls ← (groups (group? 'F') encoded.toList).mapM inlinedCall
  requireGroups "inlining positions" encoded calls

/-- Read a table of inlined functions. -/
def inlinedFunctions (encoded : String) : Except Fault (List UInt64) := do
  let functions ← (groups function? encoded.toList).mapM fun digits =>
    Record.readAddress (String.ofList digits)
  requireGroups "inlined functions" encoded functions

/-- Read the three tables of a source mapping, in this order. -/
def sourceInfo (scriptId : UInt32) (start stop : UInt64)
    (positionText inliningText functionText : String) : Except Fault SourceInfo := do
  let positions ← positions positionText
  let inlining ← inlinedCalls inliningText
  let functions ← inlinedFunctions functionText
  return ⟨scriptId, start, stop, positions, inlining.toArray, functions.toArray⟩

end JitTrace.PositionText
