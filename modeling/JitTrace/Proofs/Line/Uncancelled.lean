import JitTrace.Proofs.Line.Following

/-!
# Reads that are not cancelled

Whatever the handlers of its table do, a read is cancelled or follows its schedule to the
end. Then it has come to what the lines of the schedule come to, handed over one after the
other, and all else that it holds says how far it has got.
-/

namespace JitTrace

variable {Sink : Type}

/-- How far a read has got, whatever the lines have come to. -/
structure Progress where
  lineNumber : Nat
  heldBack : List Char := []
  rangeOpen : Bool
  rangeLines : List (Nat × String)
  lines : Nat
  filtered : Nat

/-- How far a read of so many lines has got. -/
def Schedule.progress (schedule : Schedule) (lines : Nat) : Progress where
  lineNumber := lines
  rangeOpen := schedule.rangeOpen
  rangeLines := schedule.held
  lines := lines
  filtered := schedule.filtered

/-- Replace all but what the lines processed so far have come to. -/
def Reading.withProgress (reading : Reading Sink) (progress : Progress) : Reading Sink :=
  { reading with
    lineNumber := progress.lineNumber
    heldBack := progress.heldBack
    rangeOpen := progress.rangeOpen
    rangeLines := progress.rangeLines
    counts := { reading.counts with lines := progress.lines, filtered := progress.filtered } }

/-- How far a read has got. -/
def Reading.progress (reading : Reading Sink) : Progress where
  lineNumber := reading.lineNumber
  heldBack := reading.heldBack
  rangeOpen := reading.rangeOpen
  rangeLines := reading.rangeLines
  lines := reading.counts.lines
  filtered := reading.counts.filtered

@[simp] theorem Reading.withProgress_progress (reading : Reading Sink) :
    reading.withProgress reading.progress = reading := rfl

namespace LogReader

/-- Process a line of a log, whether it is text or not. -/
def processLogLine (reader : LogReader Sink) : LogLine → Reading Sink → ReadOutcome Sink
  | .text line, reading => reader.processLine line reading
  | .damaged raw cause, reading => recordUndecodable raw cause reading

/-- Process lines of a log in order, up to the first cancellation. -/
def processLogLines (reader : LogReader Sink) : List LogLine → Reading Sink → ReadOutcome Sink
  | [], reading => (.ok (), reading)
  | line :: lines, reading =>
    match reader.processLogLine line reading with
    | (.ok (), reading) => reader.processLogLines lines reading
    | (.error fault, reading) => (.error fault, reading)

/-- Process a scheduled line. -/
def processJob (reader : LogReader Sink) : LogLine × Nat → Reading Sink → ReadOutcome Sink
  | (.text line, number), reading => reader.processNow number line reading
  | (.damaged raw cause, number), reading =>
    (.ok (), reading.withLedger (reader.settle reading.ledger (.damaged raw cause, number)))

/-- Process scheduled lines in order, up to the first cancellation. -/
def processJobs (reader : LogReader Sink) : List (LogLine × Nat) → Reading Sink → ReadOutcome Sink
  | [], reading => (.ok (), reading)
  | job :: jobs, reading =>
    if reading.cancelled then (.error .cancelled, reading)
    else
      match reader.processJob job reading with
      | (.ok (), reading) => reader.processJobs jobs reading
      | (.error fault, reading) => (.error fault, reading)

variable (reader : LogReader Sink)

theorem processLines_eq (lines : List String) (reading : Reading Sink) :
    reader.processLines lines reading = reader.processLogLines (lines.map .text) reading := by
  induction lines generalizing reading with
  | nil => rfl
  | cons line lines inductionHypothesis =>
    simp only [processLines, List.map_cons, processLogLines, processLogLine]
    rcases reader.processLine line reading with ⟨_ | _, between⟩
    · rfl
    · exact inductionHypothesis between

theorem processByteLines_eq (lines : List (List UInt8)) (reading : Reading Sink) :
    reader.processByteLines lines reading =
      reader.processLogLines (lines.map LogLine.decode) reading := by
  induction lines generalizing reading with
  | nil => rfl
  | cons raw lines inductionHypothesis =>
    simp only [processByteLines, List.map_cons, processLogLines, LogLine.decode]
    cases Text.decodeUtf8 raw with
    | ok line =>
      dsimp only [processLogLine]
      rcases reader.processLine line reading with ⟨_ | _, between⟩
      · rfl
      · exact inductionHypothesis between
    | error cause =>
      dsimp only [processLogLine]
      rcases recordUndecodable raw cause reading with ⟨_ | _, between⟩
      · rfl
      · exact inductionHypothesis between

/-! ## Processing scheduled lines -/

theorem processJobs_append (front back : List (LogLine × Nat)) (reading : Reading Sink) :
    reader.processJobs (front ++ back) reading =
      match reader.processJobs front reading with
      | (.ok (), reading) => reader.processJobs back reading
      | (.error fault, reading) => (.error fault, reading) := by
  induction front generalizing reading with
  | nil => rfl
  | cons job front inductionHypothesis =>
    simp only [List.cons_append, processJobs]
    split
    · rfl
    · rcases reader.processJob job reading with ⟨_ | _, between⟩
      · rfl
      · exact inductionHypothesis between

/-- The lines of a range are processed as scheduled lines. -/
theorem processRange_eq_processJobs (lines : List (Nat × String)) (reading : Reading Sink) :
    reader.processRange lines reading =
      reader.processJobs (lines.map Schedule.heldJob) reading := by
  induction lines generalizing reading with
  | nil => rfl
  | cons line lines inductionHypothesis =>
    simp only [processRange, List.map_cons, processJobs, Schedule.heldJob, processJob]
    split
    · rfl
    · rcases reader.processNow line.1 line.2 reading with ⟨_ | _, between⟩
      · rfl
      · exact inductionHypothesis between

/-- Processing a line does not depend on how far the read has got, and leaves that alone. -/
theorem processNow_withProgress (number : Nat) (line : String) (reading : Reading Sink)
    (progress : Progress) :
    reader.processNow number line (reading.withProgress progress) =
      ((reader.processNow number line reading).1,
        (reader.processNow number line reading).2.withProgress progress) := by
  simp only [processNow]
  split
  · rfl
  · cases Line.fields line with
    | error fault => rfl
    | ok tokens =>
      simp only [Reading.withProgress]
      cases (reader.table.dispatch tokens reading.cancelled reading.sink).result with
      | ok known => cases known <;> rfl
      | error fault =>
        dsimp only
        split <;> rfl

theorem processJob_withProgress (job : LogLine × Nat) (reading : Reading Sink)
    (progress : Progress) :
    reader.processJob job (reading.withProgress progress) =
      ((reader.processJob job reading).1,
        (reader.processJob job reading).2.withProgress progress) := by
  obtain ⟨_ | _, number⟩ := job
  · exact reader.processNow_withProgress number _ reading progress
  · rfl

theorem processJobs_withProgress (jobs : List (LogLine × Nat)) (reading : Reading Sink)
    (progress : Progress) :
    reader.processJobs jobs (reading.withProgress progress) =
      ((reader.processJobs jobs reading).1,
        (reader.processJobs jobs reading).2.withProgress progress) := by
  induction jobs generalizing reading with
  | nil => rfl
  | cons job jobs inductionHypothesis =>
    rw [processJobs, processJobs, processJob_withProgress]
    change (if reading.cancelled then _ else _) = _
    split
    · rfl
    · rcases reader.processJob job reading with ⟨_ | _, between⟩
      · rfl
      · exact inductionHypothesis between

/-! ## Following the schedule -/

/-- A read of so many lines that began with a sink has come to what the lines of a schedule
come to, and has got as far as the schedule says. -/
def Reached (sink : Sink) (schedule : Schedule) (lines : Nat) (reading : Reading Sink) : Prop :=
  ∃ processed, reader.processJobs schedule.jobs { sink } = (.ok (), processed) ∧
    reading = processed.withProgress (schedule.progress lines)

variable {reader} {sink : Sink} {schedule : Schedule} {lines : Nat} {reading after : Reading Sink}

namespace Reached

/-- A read that has not begun. -/
theorem start (reader : LogReader Sink) (sink : Sink) : reader.Reached sink {} 0 { sink } :=
  ⟨{ sink }, rfl, rfl⟩

theorem lineNumber (reached : reader.Reached sink schedule lines reading) :
    reading.lineNumber = lines := by
  obtain ⟨_, _, rfl⟩ := reached
  rfl

theorem rangeOpen (reached : reader.Reached sink schedule lines reading) :
    reading.rangeOpen = schedule.rangeOpen := by
  obtain ⟨_, _, rfl⟩ := reached
  rfl

theorem rangeLines (reached : reader.Reached sink schedule lines reading) :
    reading.rangeLines = schedule.held := by
  obtain ⟨_, _, rfl⟩ := reached
  rfl

/-- Counting a line makes no other difference. -/
theorem countLine (reached : reader.Reached sink schedule lines reading) :
    reader.Reached sink schedule (lines + 1) (LogReader.countLine reading) := by
  obtain ⟨processed, followed, rfl⟩ := reached
  exact ⟨processed, followed, rfl⟩

/-- Lines that are processed are added to the schedule. -/
theorem processJobs (reached : reader.Reached sink schedule lines reading)
    {jobs : List (LogLine × Nat)} (processed : reader.processJobs jobs reading = (.ok (), after)) :
    reader.Reached sink { schedule with jobs := schedule.jobs ++ jobs } lines after := by
  obtain ⟨before, followed, rfl⟩ := reached
  rw [processJobs_withProgress, Prod.mk.injEq] at processed
  refine ⟨(reader.processJobs jobs before).2, ?_, processed.2.symm⟩
  rw [processJobs_append, followed]
  exact Prod.ext processed.1 rfl

/-- So is a single one. -/
theorem processJob (reached : reader.Reached sink schedule lines reading)
    (going : reading.cancelled = false) {job : LogLine × Nat}
    (processed : reader.processJob job reading = (.ok (), after)) :
    reader.Reached sink { schedule with jobs := schedule.jobs ++ [job] } lines after := by
  refine reached.processJobs ?_
  rw [LogReader.processJobs, going, if_neg Bool.false_ne_true, processed]
  rfl

/-- A marker. -/
theorem processMarker (reached : reader.Reached sink schedule lines reading)
    (processed : reader.processMarker reading = (.ok (), after)) :
    reader.Reached sink
      (if schedule.rangeOpen then
        { schedule with
          rangeOpen := !reader.settings.pairwiseTimedRange
          held := []
          jobs := schedule.jobs ++ schedule.held.reverse.map Schedule.heldJob }
      else { schedule with rangeOpen := true }) lines after := by
  have isOpen := reached.rangeOpen
  have isHeld := reached.rangeLines
  rw [LogReader.processMarker] at processed
  split at processed <;> rename_i wasOpen <;> rw [isOpen] at wasOpen
  · rw [if_pos wasOpen]
    have emptied : reader.Reached sink { schedule with held := [] } lines
        { reading with rangeLines := [] } := by
      obtain ⟨before, followed, rfl⟩ := reached
      exact ⟨before, followed, rfl⟩
    rw [isHeld, processRange_eq_processJobs] at processed
    split at processed
    · rename_i between ranged
      obtain ⟨further, followed, rfl⟩ := emptied.processJobs ranged
      obtain rfl : _ = after := congrArg Prod.snd processed
      exact ⟨further, followed, rfl⟩
    · simp at processed
  · rw [if_neg wasOpen]
    obtain ⟨before, followed, rfl⟩ := reached
    obtain rfl : _ = after := congrArg Prod.snd processed
    exact ⟨before, followed, rfl⟩

/-- A line of text. -/
theorem processLine (reached : reader.Reached sink schedule lines reading) {line : String}
    (processed : reader.processLine line reading = (.ok (), after)) :
    reader.Reached sink (schedule.step reader.settings (.text line, lines + 1)) (lines + 1)
      after := by
  have counted := reached.countLine
  obtain rfl := reached.lineNumber
  cases going : reading.cancelled with
  | true => simp [LogReader.processLine, going] at processed
  | false =>
    rw [LogReader.processLine, going, if_neg Bool.false_ne_true] at processed
    dsimp only at processed
    rw [Schedule.step]
    split at processed <;> rename_i untimed
    · rw [if_pos untimed]
      exact counted.processJob going processed
    rw [if_neg untimed]
    split at processed <;> rename_i marker
    · rw [if_pos marker]
      exact counted.processMarker processed
    rw [if_neg marker]
    split at processed <;> rename_i isOpen <;> rw [counted.rangeOpen] at isOpen
    · rw [if_pos isOpen]
      obtain rfl : _ = after := congrArg Prod.snd processed
      obtain ⟨before, followed, same⟩ := counted
      rw [same]
      exact ⟨before, followed, rfl⟩
    rw [if_neg isOpen]
    split at processed <;> rename_i tick
    · rw [if_pos tick]
      obtain rfl : _ = after := congrArg Prod.snd processed
      obtain ⟨before, followed, same⟩ := counted
      rw [same]
      exact ⟨before, followed, rfl⟩
    · rw [if_neg tick]
      exact counted.processJob going processed

/-- A line that is no text. -/
theorem recordUndecodable (reached : reader.Reached sink schedule lines reading)
    {raw : List UInt8} {cause : Text.Utf8Fault}
    (processed : LogReader.recordUndecodable raw cause reading = (.ok (), after)) :
    reader.Reached sink (schedule.step reader.settings (.damaged raw cause, lines + 1)) (lines + 1)
      after := by
  obtain rfl := reached.lineNumber
  cases going : reading.cancelled with
  | true => simp [LogReader.recordUndecodable, going] at processed
  | false =>
    rw [LogReader.recordUndecodable, going, if_neg Bool.false_ne_true] at processed
    exact reached.countLine.processJob going processed

theorem processLogLine (reached : reader.Reached sink schedule lines reading) {line : LogLine}
    (processed : reader.processLogLine line reading = (.ok (), after)) :
    reader.Reached sink (schedule.step reader.settings (line, lines + 1)) (lines + 1) after := by
  cases line with
  | text line => exact reached.processLine processed
  | damaged raw cause => exact reached.recordUndecodable processed

/-- A read follows its schedule along lines, to their end. -/
theorem processLogLines (reached : reader.Reached sink schedule lines reading)
    {logLines : List LogLine}
    (processed : reader.processLogLines logLines reading = (.ok (), after)) :
    reader.Reached sink
      ((logLines.zipIdx (lines + 1)).foldl (Schedule.step reader.settings) schedule)
      (lines + logLines.length) after := by
  induction logLines generalizing schedule lines reading with
  | nil =>
    obtain rfl : reading = after := congrArg Prod.snd processed
    exact reached
  | cons line logLines inductionHypothesis =>
    rw [LogReader.processLogLines] at processed
    split at processed
    · rename_i between first
      have counted : lines + (line :: logLines).length = lines + 1 + logLines.length := by
        rw [List.length_cons]
        omega
      rw [List.zipIdx_cons, List.foldl_cons, counted]
      exact inductionHypothesis (reached.processLogLine first) processed
    · simp at processed

end Reached

/-! ## Faults that end a read -/

/-- An outcome that is an error is a cancellation. -/
def EndsByCancellation (outcome : ReadOutcome Sink) : Prop :=
  ∀ fault, outcome.1 = .error fault → fault.isCancellation = true

theorem EndsByCancellation.of_ok (after : Reading Sink) : EndsByCancellation (.ok (), after) := by
  rintro _ ⟨⟩

theorem EndsByCancellation.of_error {fault : Fault} (cancels : fault.isCancellation = true)
    (after : Reading Sink) : EndsByCancellation (.error fault, after) := by
  rintro _ ⟨⟩
  exact cancels

variable (reader) (reading)

theorem endsByCancellation_processNow (number : Nat) (line : String) :
    EndsByCancellation (reader.processNow number line reading) := by
  simp only [processNow]
  split
  · exact .of_ok reading
  · cases Line.fields line with
    | error fault => exact .of_ok _
    | ok tokens =>
      dsimp only
      split
      · exact .of_ok _
      · exact .of_ok _
      · split
        · rename_i cancels
          exact .of_error cancels _
        · exact .of_ok _

theorem endsByCancellation_processRange (lines : List (Nat × String)) :
    EndsByCancellation (reader.processRange lines reading) := by
  induction lines generalizing reading with
  | nil => exact .of_ok reading
  | cons line lines inductionHypothesis =>
    have processed := endsByCancellation_processNow reader reading line.1 line.2
    simp only [processRange]
    split
    · exact .of_error rfl reading
    · split <;> rename_i outcome <;> rw [outcome] at processed
      · exact inductionHypothesis _
      · exact .of_error (processed _ rfl) _

theorem endsByCancellation_processMarker : EndsByCancellation (reader.processMarker reading) := by
  have ranged := endsByCancellation_processRange reader { reading with rangeLines := [] }
    reading.rangeLines.reverse
  simp only [processMarker]
  split
  · split <;> rename_i outcome <;> rw [outcome] at ranged
    · exact .of_ok _
    · exact .of_error (ranged _ rfl) _
  · exact .of_ok _

theorem endsByCancellation_processLogLine (line : LogLine) :
    EndsByCancellation (reader.processLogLine line reading) := by
  cases line with
  | damaged raw cause =>
    simp only [processLogLine, recordUndecodable]
    split
    · exact .of_error rfl reading
    · exact .of_ok _
  | text line =>
    simp only [processLogLine, processLine]
    split
    · exact .of_error rfl reading
    split
    · exact endsByCancellation_processNow _ _ _ line
    split
    · exact endsByCancellation_processMarker _ _
    split
    · exact .of_ok _
    split
    · exact .of_ok _
    · exact endsByCancellation_processNow _ _ _ line

theorem endsByCancellation_processLogLines (lines : List LogLine) :
    EndsByCancellation (reader.processLogLines lines reading) := by
  induction lines generalizing reading with
  | nil => exact .of_ok reading
  | cons line lines inductionHypothesis =>
    have processed := endsByCancellation_processLogLine reader reading line
    rw [processLogLines]
    split <;> rename_i outcome <;> rw [outcome] at processed
    · exact inductionHypothesis _
    · exact .of_error (processed _ rfl) _

/-- A read is cancelled, or it follows its schedule to the end. -/
theorem processLogLines_cases (sink : Sink) (lines : List LogLine) :
    (∃ fault after, reader.processLogLines lines { sink } = (.error fault, after) ∧
      fault.isCancellation = true) ∨
    ∃ after, reader.processLogLines lines { sink } = (.ok (), after) ∧
      reader.Reached sink ((lines.zipIdx 1).foldl (Schedule.step reader.settings) {})
        lines.length after := by
  have ends := endsByCancellation_processLogLines reader { sink } lines
  cases outcome : reader.processLogLines lines { sink } with
  | mk result after =>
    rw [outcome] at ends
    cases result with
    | error fault => exact .inl ⟨fault, after, rfl, ends fault rfl⟩
    | ok _ =>
      have reached := (Reached.start reader sink).processLogLines outcome
      rw [Nat.zero_add lines.length] at reached
      exact .inr ⟨after, rfl, reached⟩

end LogReader

end JitTrace
