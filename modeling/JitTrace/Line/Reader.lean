import JitTrace.Line.Fields
import JitTrace.Record.Table
import JitTrace.Settings
import JitTrace.Text.Blank

/-!
# Reading logs

A log is read line by line. A line that fails to parse, or whose handler fails,
is put on record and the read goes on; only cancellation ends it. A read can be
restricted to the parts of the log between markers: lines behind an opening
marker are held back until the closing one is seen.
-/

namespace JitTrace

/-- A line that could not be processed. -/
structure LineFailure where
  /-- Counted from one. -/
  line : Nat
  /-- The record's name, when the line could be taken apart far enough. -/
  command : Option String
  message : String
deriving DecidableEq, Repr

/-- What became of the lines so far. -/
structure ReadCounts where
  lines : Nat := 0
  /-- Lines that a handler accepted. -/
  dispatched : Nat := 0
  /-- Lines of a record that nobody handles. -/
  unknown : Nat := 0
  /-- Lines left out because no timed range was open. -/
  filtered : Nat := 0
deriving DecidableEq, Repr, Inhabited

/-- How a log is read. -/
structure LogReader (Sink : Type) where
  table : RecordTable Sink
  settings : ReaderSettings := {}

/-- The state of a read. -/
structure Reading (Sink : Type) where
  sink : Sink
  cancelled : Bool := false
  lineNumber : Nat := 0
  /-- Text behind the last line feed, which may still go on. -/
  heldBack : List Char := []
  /-- Whether a timed range is open. -/
  rangeOpen : Bool := false
  /-- The lines of the open range with their numbers, the latest first. -/
  rangeLines : List (Nat × String) := []
  failures : Array LineFailure := #[]
  counts : ReadCounts := {}

/-- The record that begins and ends timed ranges. -/
def timerMarker : String := "current-time"

/-- The outcome of a step of a read, which may have been cancelled. -/
abbrev ReadOutcome (Sink : Type) := Except Fault Unit × Reading Sink

namespace LogReader

variable {Sink : Type}

/-- Put a failed line on record. -/
def recordFailure (reading : Reading Sink) (failure : LineFailure) : Reading Sink :=
  { reading with failures := reading.failures.push failure }

/-- Take a line apart and hand it to its record's handler. Blank lines pass
without notice. -/
def processNow (reader : LogReader Sink) (number : Nat) (line : String)
    (reading : Reading Sink) : ReadOutcome Sink :=
  if (Text.trim line.toList).isEmpty then (.ok (), reading)
  else
    match Line.fields line with
    | .error fault => (.ok (), recordFailure reading ⟨number, none, fault.message⟩)
    | .ok tokens =>
      let dispatched := reader.table.dispatch tokens reading.cancelled reading.sink
      let reading :=
        { reading with
          sink := dispatched.sink
          cancelled := reading.cancelled || dispatched.cancels }
      let counts := reading.counts
      match dispatched.result with
      | .ok true =>
        (.ok (), { reading with counts := { counts with dispatched := counts.dispatched + 1 } })
      | .ok false =>
        (.ok (), { reading with counts := { counts with unknown := counts.unknown + 1 } })
      | .error fault =>
        if fault.isCancellation then (.error fault, reading)
        else (.ok (), recordFailure reading ⟨number, tokens.head?, fault.message⟩)

/-- Process the lines of a timed range. Cancellation loses those that are left. -/
def processRange (reader : LogReader Sink) :
    List (Nat × String) → Reading Sink → ReadOutcome Sink
  | [], reading => (.ok (), reading)
  | (number, line) :: rest, reading =>
    if reading.cancelled then (.error .cancelled, reading)
    else
      match reader.processNow number line reading with
      | (.ok (), reading) => reader.processRange rest reading
      | (.error fault, reading) => (.error fault, reading)

/-- Count a line and give it its number. -/
def countLine (reading : Reading Sink) : Reading Sink :=
  { reading with
    lineNumber := reading.lineNumber + 1
    counts := { reading.counts with lines := reading.counts.lines + 1 } }

/-- A marker opens a timed range, or closes the open one and processes its lines.
Unless ranges are pairwise, the closing marker opens the next range. -/
def processMarker (reader : LogReader Sink) (reading : Reading Sink) : ReadOutcome Sink :=
  if reading.rangeOpen then
    match reader.processRange reading.rangeLines.reverse { reading with rangeLines := [] } with
    | (.ok (), reading) =>
      (.ok (), { reading with rangeOpen := !reader.settings.pairwiseTimedRange })
    | (.error fault, reading) => (.error fault, reading)
  else (.ok (), { reading with rangeOpen := true })

/-- Process one complete line. -/
def processLine (reader : LogReader Sink) (line : String) (reading : Reading Sink) :
    ReadOutcome Sink :=
  if reading.cancelled then (.error .cancelled, reading)
  else
    let reading := countLine reading
    if !reader.settings.timedRange then reader.processNow reading.lineNumber line reading
    else if timerMarker.toList.isPrefixOf line.toList then reader.processMarker reading
    else if reading.rangeOpen then
      (.ok (), { reading with rangeLines := (reading.lineNumber, line) :: reading.rangeLines })
    else if "tick".toList.isPrefixOf line.toList then
      let counts := reading.counts
      (.ok (), { reading with counts := { counts with filtered := counts.filtered + 1 } })
    else reader.processNow reading.lineNumber line reading

/-- Process lines in order, up to the first cancellation. -/
def processLines (reader : LogReader Sink) : List String → Reading Sink → ReadOutcome Sink
  | [], reading => (.ok (), reading)
  | line :: lines, reading =>
    match reader.processLine line reading with
    | (.ok (), reading) => reader.processLines lines reading
    | (.error fault, reading) => (.error fault, reading)

/-- Process a piece of a log. What follows its last line feed is held back; a
cancelled read loses it. -/
def processChunk (reader : LogReader Sink) (chunk : String) (reading : Reading Sink) :
    ReadOutcome Sink :=
  let pieces := (reading.heldBack ++ chunk.toList).splitOn '\n'
  let complete := pieces.dropLast.map String.ofList
  match reader.processLines complete { reading with heldBack := [] } with
  | (.ok (), reading) => (.ok (), { reading with heldBack := pieces.getLastD [] })
  | (.error fault, reading) => (.error fault, reading)

/-- Process the line that is held back, if any. -/
def finish (reader : LogReader Sink) (reading : Reading Sink) : ReadOutcome Sink :=
  let last := reading.heldBack
  let reading := { reading with heldBack := [] }
  if last.isEmpty then (.ok (), reading)
  else reader.processLine (String.ofList last) reading

/-- The lines of a byte sequence, without the line feed, or carriage return and
line feed, that ends each. Nothing follows a last line feed. -/
def byteLines (bytes : List UInt8) : List (List UInt8) :=
  let pieces := bytes.splitOn 10
  let lines := if pieces.getLastD [] == [] then pieces.dropLast else pieces
  lines.map fun line => if line.getLast? == some 13 then line.dropLast else line

/-- Put a line on record that is no text. Its name is what can be made of its
first field. -/
def recordUndecodable (raw : List UInt8) (cause : Text.Utf8Fault) (reading : Reading Sink) :
    ReadOutcome Sink :=
  if reading.cancelled then (.error .cancelled, reading)
  else
    let reading := countLine reading
    let name := raw.takeWhile (· != 44)
    let command := if name.isEmpty then none else some (String.ofList (Text.decodeUtf8Lossy name))
    let message := Fault.message (.parse (.undecodable cause))
    (.ok (), recordFailure reading ⟨reading.lineNumber, command, message⟩)

/-- Process lines given as bytes, up to the first cancellation. -/
def processByteLines (reader : LogReader Sink) :
    List (List UInt8) → Reading Sink → ReadOutcome Sink
  | [], reading => (.ok (), reading)
  | raw :: lines, reading =>
    let outcome :=
      match Text.decodeUtf8 raw with
      | .ok line => reader.processLine line reading
      | .error cause => recordUndecodable raw cause reading
    match outcome with
    | (.ok (), reading) => reader.processByteLines lines reading
    | (.error fault, reading) => (.error fault, reading)

/-- Process a whole log given as bytes. -/
def processBytes (reader : LogReader Sink) (bytes : List UInt8) (reading : Reading Sink) :
    ReadOutcome Sink :=
  reader.processByteLines (byteLines bytes) reading

/-- Fail unless every line could be processed. -/
def requireNoFailures (failures : Array LineFailure) : Except Fault Unit :=
  match failures[0]? with
  | none => .ok ()
  | some first =>
    .error (.parse (.failedLines failures.size first.line first.message))

end LogReader

end JitTrace
