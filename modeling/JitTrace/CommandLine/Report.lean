import JitTrace.Number.Decimal
import JitTrace.Trace.Analyzer

/-!
# Reports

The texts that the commands print about an analysis, line by line.
-/

namespace JitTrace.Report

/-- Fill up a text with blanks behind it. -/
def padRight (width : Nat) (text : String) : String :=
  text ++ String.ofList (List.replicate (width - text.length) ' ')

/-- Fill up a text with blanks in front of it. -/
def padLeft (width : Nat) (text : String) : String :=
  String.ofList (List.replicate (width - text.length) ' ') ++ text

/-- The text made of lines. -/
def ofLines (lines : List String) : String :=
  String.join (lines.map (· ++ "\n"))

/-- The order of states in a summary: by descending ticks, then by name. -/
def stateBefore (left right : VmState × Nat) : Bool :=
  if left.2 = right.2 then left.1.name ≤ right.1.name else right.2 < left.2

/-- The ticks of a state. -/
def stateLine (row : VmState × Nat) : String :=
  "  " ++ padRight 16 row.1.name ++ " " ++ padLeft 8 (toString row.2)

/-- A share, in percent. -/
def percentText (percent : Float) : String :=
  padLeft 6 (Number.fixedText 1 percent) ++ "%"

/-- A row of the function listing. -/
def costLine (row : FunctionCost) : String :=
  padLeft 11 (toString row.selfWeight) ++ " " ++ percentText row.selfPercent ++ " " ++
    percentText row.totalPercent ++ "  " ++ row.label

/-- A row of the listing of native entries. -/
def nativeEntryLine (row : NativeEntry) : String :=
  padLeft 11 (toString row.ticks) ++ "  " ++ row.name

/-- The native entries, if there are any besides their sum. -/
def nativeEntryLines (profile : Profile) : List String :=
  let rows := profile.nativeEntryListing
  if rows.length ≤ 1 then []
  else "" :: "C entry points:" :: rows.map nativeEntryLine

/-- The numbers of events, if there are any. -/
def eventLines (events : EventLog) : List String :=
  let deopts := events.deopts.length
  let ics := events.ics.length
  let disabled := events.disabled.length
  if deopts + ics + disabled == 0 then []
  else
    ["", s!"Deopt positions: {deopts}, IC positions: {ics}, optimizations disabled: {disabled}"]

/-- The counters of an analysis and its `top` most expensive functions. -/
def summary (analysis : Analysis) (top : Nat) : String :=
  let profile := analysis.profile
  let counters := profile.counters
  let states := counters.byState.mergeSort stateBefore
  let rows := (profile.topFunctions top .own).1
  ofLines <|
    ["V8 version: " ++ analysis.version.text,
      s!"Ticks: {counters.total} total, {counters.unaccounted} unaccounted"] ++
    states.map stateLine ++
    ["", " self ticks   self%  total%  function"] ++
    rows.map costLine ++
    nativeEntryLines profile ++
    eventLines analysis.events

/-- The number of updates at a position and the worst of them. -/
def positionLine (count : Nat) (worst details : String) (position : FilePosition) : String :=
  padLeft 6 (toString count) ++ "  " ++ padRight 16 worst ++ details ++ " " ++ position.text

/-- A line that goes into an entry's latest update. -/
def latestLine (text : String) : String :=
  "        " ++ text

/-- The deopts at a position. -/
def deoptLines (entry : DeoptEntry) : List String :=
  let worst := ((worstKind? entry).map DeoptimizeKind.name).getD ""
  let latest :=
    entry.updates.getLast?.map fun update =>
      latestLine (update.reason ++ " (" ++ update.functionName.getD "<unknown>" ++ ")")
  positionLine entry.updates.length worst "" entry.key :: latest.toList

/-- All deopts, the most frequent positions first, and the functions that are never
optimized again. -/
def deopts (analysis : Analysis) : String :=
  ofLines <|
    analysis.events.deoptsByCount.flatMap deoptLines ++
    analysis.events.disabled.map fun disabled =>
      "disabled  " ++ disabled.functionName ++ ": " ++ disabled.reason

/-- The inline caches at a position. -/
def icLines (entry : IcEntry) : List String :=
  let worst := ((worstState? entry).map IcState.name).getD ""
  let maps := " maps=" ++ padRight 3 (toString (mapsSeen entry).length)
  let latest :=
    entry.updates.getLast?.map fun update => latestLine (update.icType ++ " " ++ update.key)
  positionLine entry.updates.length worst maps entry.key :: latest.toList

/-- All inline cache transitions, the most degraded positions first. -/
def ics (analysis : Analysis) : String :=
  ofLines (analysis.events.icsBySeverity.flatMap icLines)

/-- How many of the failures are listed one by one. -/
def listedFailures : Nat := 10

/-- A failed line. -/
def failureLine (failure : LineFailure) : String :=
  s!"  line {failure.line}: " ++ failure.command.getD "?" ++ ": " ++ failure.message

/-- What went wrong while the log was read. -/
def failures (analysis : Analysis) : String :=
  let unknown := analysis.profile.unknownCode.size
  let failed := analysis.failures.size
  let unknownLines :=
    if unknown == 0 then [] else [s!"{unknown} code events referred to unknown addresses"]
  let failedLines :=
    if failed == 0 then []
    else
      s!"{failed} of {analysis.counts.lines} lines could not be processed" ::
        (analysis.failures.toList.take listedFailures).map failureLine
  ofLines (unknownLines ++ failedLines)

end JitTrace.Report
