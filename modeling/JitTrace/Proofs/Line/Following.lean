import JitTrace.Proofs.Line.Schedule

/-!
# Reading by schedule

With a table that forgives failing lines a read is never cut short. It follows its
schedule to the end, and what it has come to is what the lines of the schedule come to when
they are processed one after the other.
-/

namespace JitTrace

variable {Sink : Type}

namespace Reading

/-- What the lines processed so far have come to. -/
def ledger (reading : Reading Sink) : Ledger Sink where
  sink := reading.sink
  failures := reading.failures
  dispatched := reading.counts.dispatched
  unknown := reading.counts.unknown

/-- Replace what the lines processed so far have come to. -/
def withLedger (reading : Reading Sink) (ledger : Ledger Sink) : Reading Sink :=
  { reading with
    sink := ledger.sink
    failures := ledger.failures
    counts :=
      { reading.counts with dispatched := ledger.dispatched, unknown := ledger.unknown } }

@[simp] theorem ledger_withLedger (reading : Reading Sink) (ledger : Ledger Sink) :
    (reading.withLedger ledger).ledger = ledger := rfl

@[simp] theorem withLedger_ledger (reading : Reading Sink) :
    reading.withLedger reading.ledger = reading := rfl

@[simp] theorem withLedger_withLedger (reading : Reading Sink) (first second : Ledger Sink) :
    (reading.withLedger first).withLedger second = reading.withLedger second := rfl

end Reading

namespace LogReader

variable {reader : LogReader Sink} {alike : Sink → Sink → Prop}

/-- A sink that is alike to itself stays so. -/
theorem alike_settle (forgiving : reader.table.Forgiving alike) {ledger : Ledger Sink}
    (proper : alike ledger.sink ledger.sink) (job : LogLine × Nat) :
    alike (reader.settle ledger job).sink (reader.settle ledger job).sink := by
  rw [sink_settle]
  exact (agree_judge forgiving proper job.1).self

/-- Processing a line settles it. -/
theorem processNow_eq (forgiving : reader.table.Forgiving alike) {reading : Reading Sink}
    (proper : alike reading.sink reading.sink) (going : reading.cancelled = false)
    (number : Nat) (line : String) :
    reader.processNow number line reading =
      (.ok (), reading.withLedger (reader.settle reading.ledger (.text line, number))) := by
  obtain ⟨sink, cancelled, lineNumber, heldBack, rangeOpen, rangeLines, failures, counts⟩ := reading
  obtain rfl : cancelled = false := going
  simp only [processNow, settle, judge, Reading.ledger]
  split
  · rfl
  · cases Line.fields line with
    | error fault => rfl
    | ok tokens =>
      have calm := forgiving.calm tokens proper
      have failed := forgiving.failed tokens proper
      simp only [calm, Bool.or_false]
      cases result : (reader.table.dispatch tokens false sink).result with
      | ok known => cases known <;> rfl
      | error fault =>
        simp only [(failed fault result).1, Bool.false_eq_true, if_false]
        rfl

/-- Processing the lines of a range settles them in turn. -/
theorem processRange_eq (forgiving : reader.table.Forgiving alike) (lines : List (Nat × String))
    (reading : Reading Sink) (proper : alike reading.sink reading.sink)
    (going : reading.cancelled = false) :
    reader.processRange lines reading = (.ok (), reading.withLedger
      ((lines.map Schedule.heldJob).foldl reader.settle reading.ledger)) := by
  induction lines generalizing reading with
  | nil => simp [processRange]
  | cons line lines inductionHypothesis =>
    obtain ⟨number, text⟩ := line
    have remaining := inductionHypothesis
      (reading.withLedger (reader.settle reading.ledger (.text text, number)))
      (alike_settle forgiving proper _) going
    rw [processRange, going, if_neg Bool.false_ne_true, processNow_eq forgiving proper going]
    dsimp only
    rw [remaining, Reading.ledger_withLedger, Reading.withLedger_withLedger]
    rfl

/-- A read that started from a ledger has got as far as a schedule says. -/
structure Follows (reader : LogReader Sink) (alike : Sink → Sink → Prop) (start : Ledger Sink)
    (schedule : Schedule) (reading : Reading Sink) : Prop where
  ledger : reading.ledger = schedule.jobs.foldl reader.settle start
  rangeOpen : reading.rangeOpen = schedule.rangeOpen
  rangeLines : reading.rangeLines = schedule.held
  filtered : reading.counts.filtered = schedule.filtered
  going : reading.cancelled = false
  proper : alike reading.sink reading.sink

namespace Follows

variable {start : Ledger Sink} {schedule : Schedule} {reading : Reading Sink}

/-- Counting a line makes no difference. -/
theorem countLine (follows : reader.Follows alike start schedule reading) :
    reader.Follows alike start schedule (LogReader.countLine reading) :=
  ⟨follows.ledger, follows.rangeOpen, follows.rangeLines, follows.filtered, follows.going,
    follows.proper⟩

/-- Settling a line follows a schedule that has the line processed. -/
theorem settle (forgiving : reader.table.Forgiving alike)
    (follows : reader.Follows alike start schedule reading) (job : LogLine × Nat) :
    reader.Follows alike start { schedule with jobs := schedule.jobs ++ [job] }
      (reading.withLedger (reader.settle reading.ledger job)) where
  ledger := by
    rw [Reading.ledger_withLedger, follows.ledger, List.foldl_append]
    rfl
  rangeOpen := follows.rangeOpen
  rangeLines := follows.rangeLines
  filtered := follows.filtered
  going := follows.going
  proper := alike_settle forgiving follows.proper job

/-- A sink that is alike to itself stays so along lines. -/
theorem alike_foldl (forgiving : reader.table.Forgiving alike) (jobs : List (LogLine × Nat))
    {ledger : Ledger Sink} (proper : alike ledger.sink ledger.sink) :
    alike (jobs.foldl reader.settle ledger).sink (jobs.foldl reader.settle ledger).sink := by
  induction jobs generalizing ledger with
  | nil => exact proper
  | cons job jobs inductionHypothesis =>
    exact inductionHypothesis (alike_settle forgiving proper job)

/-- A marker. -/
theorem processMarker (forgiving : reader.table.Forgiving alike)
    (follows : reader.Follows alike start schedule reading) :
    ∃ after, reader.processMarker reading = (.ok (), after) ∧
      after.lineNumber = reading.lineNumber ∧
      reader.Follows alike start
        (if schedule.rangeOpen then
          { schedule with
            rangeOpen := !reader.settings.pairwiseTimedRange
            held := []
            jobs := schedule.jobs ++ schedule.held.reverse.map Schedule.heldJob }
        else { schedule with rangeOpen := true }) after := by
  rw [← follows.rangeOpen]
  obtain ⟨sink, cancelled, lineNumber, heldBack, rangeOpen, rangeLines, failures, counts⟩ := reading
  cases rangeOpen with
  | false =>
    exact ⟨_, rfl, rfl, follows.ledger, rfl, follows.rangeLines, follows.filtered, follows.going,
      follows.proper⟩
  | true =>
    have ranged := processRange_eq forgiving rangeLines.reverse
      ⟨sink, cancelled, lineNumber, heldBack, true, [], failures, counts⟩
      follows.proper follows.going
    have marked : reader.processMarker
          ⟨sink, cancelled, lineNumber, heldBack, true, rangeLines, failures, counts⟩ =
        (.ok (), ({ sink, cancelled, lineNumber, heldBack, failures, counts
                    rangeOpen := !reader.settings.pairwiseTimedRange } : Reading Sink).withLedger
          ((rangeLines.reverse.map Schedule.heldJob).foldl reader.settle
            ⟨sink, failures, counts.dispatched, counts.unknown⟩)) := by
      simp only [LogReader.processMarker, if_true, ranged]
      rfl
    have came : (rangeLines.reverse.map Schedule.heldJob).foldl reader.settle
          ⟨sink, failures, counts.dispatched, counts.unknown⟩ =
        (schedule.jobs ++ schedule.held.reverse.map Schedule.heldJob).foldl reader.settle
          start := by
      rw [List.foldl_append, ← follows.ledger, ← follows.rangeLines]
      rfl
    exact ⟨_, marked, rfl, came, rfl, rfl, follows.filtered, follows.going,
      alike_foldl forgiving _ follows.proper⟩

/-- A line of text. -/
theorem processLine (forgiving : reader.table.Forgiving alike)
    (follows : reader.Follows alike start schedule reading) (line : String) :
    ∃ after, reader.processLine line reading = (.ok (), after) ∧
      after.lineNumber = reading.lineNumber + 1 ∧
      reader.Follows alike start
        (schedule.step reader.settings (.text line, reading.lineNumber + 1)) after := by
  have counted := follows.countLine
  have settled := counted.settle forgiving (.text line, reading.lineNumber + 1)
  have processed : reader.processNow (reading.lineNumber + 1) line (LogReader.countLine reading) =
      (.ok (), _) := processNow_eq forgiving counted.proper counted.going _ line
  simp only [LogReader.processLine, Schedule.step, follows.going, Bool.false_eq_true, if_false]
  split
  · exact ⟨_, processed, rfl, settled⟩
  · split
    · obtain ⟨after, marked, numbered, released⟩ := counted.processMarker forgiving
      exact ⟨after, marked, numbered, released⟩
    · rw [show (LogReader.countLine reading).rangeOpen = schedule.rangeOpen from follows.rangeOpen]
      split
      · have extended := congrArg ((reading.lineNumber + 1, line) :: ·) follows.rangeLines
        exact ⟨_, rfl, rfl, counted.ledger, rfl, extended, counted.filtered, counted.going,
          counted.proper⟩
      · split
        · have filtered := congrArg (· + 1) follows.filtered
          exact ⟨_, rfl, rfl, counted.ledger, rfl, counted.rangeLines, filtered, counted.going,
            counted.proper⟩
        · exact ⟨_, processed, rfl, settled⟩

/-- A line that is no text. -/
theorem recordUndecodable (forgiving : reader.table.Forgiving alike)
    (follows : reader.Follows alike start schedule reading) (raw : List UInt8)
    (cause : Text.Utf8Fault) :
    ∃ after, LogReader.recordUndecodable raw cause reading = (.ok (), after) ∧
      after.lineNumber = reading.lineNumber + 1 ∧
      reader.Follows alike start
        (schedule.step reader.settings (.damaged raw cause, reading.lineNumber + 1)) after := by
  have settled := follows.countLine.settle forgiving (.damaged raw cause, reading.lineNumber + 1)
  rw [LogReader.recordUndecodable, follows.going, if_neg Bool.false_ne_true]
  exact ⟨_, rfl, rfl, settled⟩

/-- A read follows its schedule along lines given as bytes, to their end. -/
theorem processByteLines (forgiving : reader.table.Forgiving alike)
    (follows : reader.Follows alike start schedule reading) (lines : List (List UInt8)) :
    ∃ after, reader.processByteLines lines reading = (.ok (), after) ∧
      reader.Follows alike start
        (((lines.map LogLine.decode).zipIdx (reading.lineNumber + 1)).foldl
          (Schedule.step reader.settings) schedule) after := by
  induction lines generalizing schedule reading with
  | nil => exact ⟨reading, rfl, follows⟩
  | cons raw lines inductionHypothesis =>
    simp only [LogReader.processByteLines, List.map_cons, List.zipIdx_cons, List.foldl_cons,
      LogLine.decode]
    cases Text.decodeUtf8 raw with
    | ok line =>
      obtain ⟨between, processed, numbered, stepped⟩ := follows.processLine forgiving line
      obtain ⟨after, remaining, followed⟩ := inductionHypothesis stepped
      rw [numbered] at followed
      exact ⟨after, by simp only [processed, remaining], followed⟩
    | error cause =>
      obtain ⟨between, recorded, numbered, stepped⟩ :=
        follows.recordUndecodable forgiving raw cause
      obtain ⟨after, remaining, followed⟩ := inductionHypothesis stepped
      rw [numbered] at followed
      exact ⟨after, by simp only [recorded, remaining], followed⟩

end Follows

end LogReader

end JitTrace
