import JitTrace.Proofs.Line.Deletion
import JitTrace.Proofs.Line.Uncancelled

/-!
# Calls that drive a read

A read is driven by calls that hand it a line, a piece of text or a sequence of bytes, or tell
it that nothing follows. Each of them completes some lines and processes them one after the
other. What that comes to is what the lines come to that thereby come due, up to the first
one that is cancelled.
-/

namespace JitTrace

/-- A call that drives a read. -/
inductive ReadCall where
  | line (text : String)
  /-- A piece of a log, which need not end with a line. -/
  | chunk (text : String)
  /-- Nothing follows. -/
  | finish
  | bytes (log : List UInt8)

namespace ReadCall

/-- The lines that a call completes, behind the text that is held back. -/
def lines : ReadCall → List Char → List LogLine
  | .line text, _ => [.text text]
  | .chunk text, heldBack =>
    ((heldBack ++ text.toList).splitOn '\n').dropLast.map fun line => .text (String.ofList line)
  | .finish, heldBack => if heldBack.isEmpty then [] else [.text (String.ofList heldBack)]
  | .bytes log, _ => (LogReader.byteLines log).map LogLine.decode

/-- A call reaches a line behind the text that is held back. -/
def ReachesLine : ReadCall → List Char → Prop
  | .line _, _ => True
  | .chunk text, heldBack => '\n' ∈ heldBack ++ text.toList
  | .finish, heldBack => heldBack ≠ []
  | .bytes log, _ => log ≠ []

/-- Lines are cut off a text exactly when it has a line feed. -/
theorem dropLast_splitOn_eq_nil {text : List Char} :
    (text.splitOn '\n').dropLast = [] ↔ '\n' ∉ text := by
  constructor
  · intro uncut inside
    obtain ⟨line, rest, rfl, single⟩ := List.eq_append_cons_of_mem inside
    rw [List.splitOn_append_cons_self_of_not_mem single,
      List.dropLast_cons_of_ne_nil (List.splitOn_ne_nil _ _)] at uncut
    cases uncut
  · intro unended
    rw [List.splitOn_eq_singleton unended]
    rfl

/-- Bytes have lines exactly when there are any. -/
theorem byteLines_eq_nil {log : List UInt8} : LogReader.byteLines log = [] ↔ log = [] := by
  constructor
  · intro none
    by_cases inside : 10 ∈ log
    · obtain ⟨line, rest, rfl, single⟩ := List.eq_append_cons_of_mem inside
      rw [LogReader.byteLines_append_cons single] at none
      cases none
    · cases log with
      | nil => rfl
      | cons byte log =>
        rw [LogReader.byteLines_singleton (List.cons_ne_nil byte log) inside] at none
        cases none
  · rintro rfl
    rfl

/-- A call completes lines exactly when it reaches one. -/
theorem lines_ne_nil_iff {call : ReadCall} {heldBack : List Char} :
    call.lines heldBack ≠ [] ↔ call.ReachesLine heldBack := by
  cases call with
  | line text => simp [lines, ReachesLine]
  | chunk text =>
    rw [lines, ne_eq, List.map_eq_nil_iff, dropLast_splitOn_eq_nil, Classical.not_not]
    rfl
  | finish => simp [lines, ReachesLine]
  | bytes log =>
    rw [lines, ne_eq, List.map_eq_nil_iff, byteLines_eq_nil]
    rfl

end ReadCall

variable {Sink : Type}

/-- Replace the text that is held back. -/
def Reading.withHeldBack (reading : Reading Sink) (heldBack : List Char) : Reading Sink :=
  { reading with heldBack }

namespace LogReader

/-- Carry out a call. -/
def perform (reader : LogReader Sink) : ReadCall → Reading Sink → ReadOutcome Sink
  | .line text, reading => reader.processLine text reading
  | .chunk text, reading => reader.processChunk text reading
  | .finish, reading => reader.finish reading
  | .bytes log, reading => reader.processBytes log reading

variable (reader : LogReader Sink)

theorem processLogLines_singleton (line : LogLine) (reading : Reading Sink) :
    reader.processLogLines [line] reading = reader.processLogLine line reading := by
  rw [processLogLines]
  rcases reader.processLogLine line reading with ⟨_ | _, after⟩ <;> rfl

/-- A call processes the lines that it completes. All else that it changes is the text that is
held back. -/
theorem exists_perform (call : ReadCall) (reading : Reading Sink) :
    ∃ before after, reader.perform call reading =
      ((reader.processLogLines (call.lines reading.heldBack) (reading.withHeldBack before)).1,
        (reader.processLogLines (call.lines reading.heldBack)
          (reading.withHeldBack before)).2.withHeldBack after) := by
  cases call with
  | line text =>
    refine ⟨reading.heldBack, (reader.processLine text reading).2.heldBack, ?_⟩
    rw [ReadCall.lines, processLogLines_singleton]
    rfl
  | chunk text =>
    let pieces := (reading.heldBack ++ text.toList).splitOn '\n'
    have complete : (ReadCall.chunk text).lines reading.heldBack =
        (pieces.dropLast.map String.ofList).map LogLine.text := by
      rw [List.map_map]
      rfl
    refine ⟨[], ?_⟩
    rw [complete, ← processLines_eq]
    cases outcome : reader.processLines (pieces.dropLast.map String.ofList)
      (reading.withHeldBack []) with
    | mk result after =>
      rw [Reading.withHeldBack] at outcome
      simp only [perform, processChunk]
      cases result with
      | ok _ => exact ⟨pieces.getLastD [], by rw [outcome]; rfl⟩
      | error fault => exact ⟨after.heldBack, by rw [outcome]; rfl⟩
  | finish =>
    simp only [perform, finish, ReadCall.lines]
    split
    · exact ⟨[], [], rfl⟩
    · refine ⟨[], (reader.processLine (String.ofList reading.heldBack)
        (reading.withHeldBack [])).2.heldBack, ?_⟩
      rw [processLogLines_singleton]
      rfl
  | bytes log =>
    refine ⟨reading.heldBack, (reader.processBytes log reading).2.heldBack, ?_⟩
    rw [perform, processBytes, processByteLines_eq]
    rfl

end LogReader

/-! ## Lines that come due -/

namespace Schedule

/-- What is left to do, with nothing done yet. -/
def ahead (schedule : Schedule) : Schedule :=
  { rangeOpen := schedule.rangeOpen, held := schedule.held }

/-- A step depends on what is left to do alone, and adds to what has been done. -/
theorem step_eq (settings : ReaderSettings) (schedule : Schedule) (entry : LogLine × Nat) :
    schedule.step settings entry =
      { schedule.ahead.step settings entry with
        jobs := schedule.jobs ++ (schedule.ahead.step settings entry).jobs
        filtered := schedule.filtered + (schedule.ahead.step settings entry).filtered } := by
  obtain ⟨_ | _, number⟩ := entry
  · simp only [step, ahead]
    split
    · simp
    split
    · split <;> simp [*]
    split
    · simp [*]
    split <;> simp [*]
  · rfl

theorem jobs_foldl_step (settings : ReaderSettings) (schedule : Schedule)
    (entries : List (LogLine × Nat)) :
    (entries.foldl (step settings) schedule).jobs =
      schedule.jobs ++ (entries.foldl (step settings) schedule.ahead).jobs := by
  induction entries generalizing schedule with
  | nil => simp [ahead]
  | cons entry entries inductionHypothesis =>
    have same : (schedule.step settings entry).ahead =
        (schedule.ahead.step settings entry).ahead := by
      rw [step_eq]
      rfl
    rw [List.foldl_cons, inductionHypothesis, List.foldl_cons,
      inductionHypothesis (schedule.ahead.step settings entry), ← List.append_assoc, same, step_eq]

end Schedule

namespace LogReader

/-- What is left to do for a read. -/
def ahead (reading : Reading Sink) : Schedule :=
  { rangeOpen := reading.rangeOpen, held := reading.rangeLines }

/-- The lines that come due with the next ones, in the order in which they are processed. -/
def due (settings : ReaderSettings) (lines : List LogLine) (reading : Reading Sink) :
    List (LogLine × Nat) :=
  ((lines.zipIdx (reading.lineNumber + 1)).foldl (Schedule.step settings) (ahead reading)).jobs

/-- What is left to do behind a line, and the lines that come due with it. -/
def behind (settings : ReaderSettings) (line : LogLine) (reading : Reading Sink) : Schedule :=
  (ahead reading).step settings (line, reading.lineNumber + 1)

variable (reader : LogReader Sink) {reading : Reading Sink}

/-- A marker processes the lines of the range that it closes. -/
theorem exists_processMarker_due (isOpen : reading.rangeOpen = true) :
    ∃ progress, reader.processMarker reading =
        ((reader.processJobs (reading.rangeLines.reverse.map Schedule.heldJob) reading).1,
          (reader.processJobs (reading.rangeLines.reverse.map Schedule.heldJob)
            reading).2.withProgress progress) ∧
      ((reader.processMarker reading).1 = .ok () →
        progress.lineNumber = reading.lineNumber ∧
          progress.rangeOpen = !reader.settings.pairwiseTimedRange ∧ progress.rangeLines = []) := by
  let emptied : Progress := { reading.progress with rangeLines := [] }
  have ranged := reader.processJobs_withProgress
    (reading.rangeLines.reverse.map Schedule.heldJob) reading emptied
  rw [← processRange_eq_processJobs] at ranged
  change reader.processRange _ { reading with rangeLines := [] } = _ at ranged
  simp only [processMarker, isOpen, if_true] at ranged ⊢
  rw [ranged]
  cases outcome : reader.processJobs (reading.rangeLines.reverse.map Schedule.heldJob) reading with
  | mk result after =>
    cases result with
    | ok _ =>
      exact ⟨{ emptied with rangeOpen := !reader.settings.pairwiseTimedRange }, rfl,
        fun _ => ⟨rfl, rfl, rfl⟩⟩
    | error fault => exact ⟨emptied, rfl, by simp⟩

variable (going : reading.cancelled = false)
include going

theorem processJobs_singleton (job : LogLine × Nat) :
    reader.processJobs [job] reading = reader.processJob job reading := by
  rw [processJobs, going, if_neg Bool.false_ne_true]
  rcases reader.processJob job reading with ⟨_ | _, after⟩ <;> rfl

theorem processJob_countLine (job : LogLine × Nat) :
    reader.processJob job (countLine reading) = ((reader.processJobs [job] reading).1,
      (reader.processJobs [job] reading).2.withProgress (countLine reading).progress) := by
  rw [processJobs_singleton reader going]
  exact reader.processJob_withProgress job reading (countLine reading).progress

/-- A read that goes on has done what comes due with a line. -/
theorem exists_processLogLine_due (line : LogLine) :
    ∃ progress, reader.processLogLine line reading =
        ((reader.processJobs (behind reader.settings line reading).jobs reading).1,
          (reader.processJobs (behind reader.settings line reading).jobs reading).2.withProgress
            progress) ∧
      ((reader.processLogLine line reading).1 = .ok () →
        progress.lineNumber = reading.lineNumber + 1 ∧
          progress.rangeOpen = (behind reader.settings line reading).rangeOpen ∧
          progress.rangeLines = (behind reader.settings line reading).held) := by
  have now := reader.processJob_countLine going (line, reading.lineNumber + 1)
  cases line with
  | damaged raw cause =>
    refine ⟨(countLine reading).progress, ?_, fun _ => ⟨rfl, rfl, rfl⟩⟩
    rw [processLogLine, recordUndecodable, going, if_neg Bool.false_ne_true]
    exact now
  | text line =>
    have counted : (countLine reading).rangeOpen = reading.rangeOpen := rfl
    rw [processLogLine, processLine, going, if_neg Bool.false_ne_true, behind, ahead]
    simp only [Schedule.step, List.nil_append, counted]
    by_cases untimed : (!reader.settings.timedRange) = true
    · simp only [if_pos untimed]
      exact ⟨_, now, fun _ => ⟨rfl, rfl, rfl⟩⟩
    by_cases marker : timerMarker.toList.isPrefixOf line.toList = true
    · simp only [if_neg untimed, if_pos marker]
      by_cases isOpen : reading.rangeOpen = true
      · simp only [if_pos isOpen]
        obtain ⟨progress, marked, onward⟩ :=
          reader.exists_processMarker_due (show (countLine reading).rangeOpen = true from isOpen)
        refine ⟨progress, ?_, onward⟩
        have same := reader.processJobs_withProgress
          (reading.rangeLines.reverse.map Schedule.heldJob) reading (countLine reading).progress
        change reader.processJobs _ (countLine reading) = _ at same
        rw [marked, show (countLine reading).rangeLines = reading.rangeLines from rfl, same]
        rfl
      · simp only [if_neg isOpen, processMarker, counted]
        exact ⟨{ (countLine reading).progress with rangeOpen := true }, rfl,
          fun _ => ⟨rfl, rfl, rfl⟩⟩
    by_cases isOpen : reading.rangeOpen = true
    · simp only [if_neg untimed, if_neg marker, if_pos isOpen]
      exact ⟨{ (countLine reading).progress with
        rangeLines := (reading.lineNumber + 1, line) :: reading.rangeLines }, rfl,
        fun _ => ⟨rfl, rfl, rfl⟩⟩
    by_cases tick : "tick".toList.isPrefixOf line.toList = true
    · simp only [if_neg untimed, if_neg marker, if_neg isOpen, if_pos tick]
      exact ⟨{ (countLine reading).progress with filtered := reading.counts.filtered + 1 }, rfl,
        fun _ => ⟨rfl, rfl, rfl⟩⟩
    · simp only [if_neg untimed, if_neg marker, if_neg isOpen, if_neg tick]
      exact ⟨_, now, fun _ => ⟨rfl, rfl, rfl⟩⟩

omit going

theorem due_cons (settings : ReaderSettings) (line : LogLine) (lines : List LogLine)
    (reading : Reading Sink) :
    due settings (line :: lines) reading = (behind settings line reading).jobs ++
      ((lines.zipIdx (reading.lineNumber + 1 + 1)).foldl (Schedule.step settings)
        (behind settings line reading).ahead).jobs := by
  rw [due, List.zipIdx_cons, List.foldl_cons, Schedule.jobs_foldl_step]
  rfl

/-- A cancelled read processes nothing. -/
theorem processJobs_cancelled (cancelled : reading.cancelled = true)
    (jobs : List (LogLine × Nat)) :
    (reader.processJobs jobs reading).2 = reading ∧
      ∀ fault, (reader.processJobs jobs reading).1 = .error fault → fault = .cancelled := by
  cases jobs with
  | nil => exact ⟨rfl, by simp [processJobs]⟩
  | cons job jobs =>
    rw [processJobs, if_pos cancelled]
    exact ⟨rfl, by rintro _ ⟨⟩; rfl⟩

theorem processLogLine_cancelled (cancelled : reading.cancelled = true) (line : LogLine) :
    reader.processLogLine line reading = (.error .cancelled, reading) := by
  cases line with
  | text line => rw [processLogLine, processLine, if_pos cancelled]
  | damaged raw cause => rw [processLogLine, recordUndecodable, if_pos cancelled]

/-- A cancelled read takes no line. -/
theorem processLogLines_cancelled (cancelled : reading.cancelled = true) {lines : List LogLine}
    (nonempty : lines ≠ []) :
    reader.processLogLines lines reading = (.error .cancelled, reading) := by
  obtain ⟨line, lines, rfl⟩ := List.exists_cons_of_ne_nil nonempty
  rw [processLogLines, processLogLine_cancelled reader cancelled]

/-- Lines come to what the lines come to that come due with them, and if that is cut short, so
is the read. -/
theorem processLogLines_due (lines : List LogLine) (reading : Reading Sink) :
    (reader.processLogLines lines reading).2.ledger =
        (reader.processJobs (due reader.settings lines reading) reading).2.ledger ∧
      ∀ fault, (reader.processJobs (due reader.settings lines reading) reading).1 = .error fault →
        (reader.processLogLines lines reading).1 = .error fault := by
  induction lines generalizing reading with
  | nil => exact ⟨rfl, fun _ => id⟩
  | cons line lines inductionHypothesis =>
    cases state : reading.cancelled with
    | true =>
      obtain ⟨unchanged, cancelled⟩ := reader.processJobs_cancelled state
        (due reader.settings (line :: lines) reading)
      rw [reader.processLogLines_cancelled state (List.cons_ne_nil line lines), unchanged]
      exact ⟨rfl, fun fault failed => by rw [cancelled fault failed]⟩
    | false =>
      obtain ⟨progress, processed, onward⟩ := reader.exists_processLogLine_due state line
      rw [due_cons, processJobs_append, processLogLines, processed]
      rw [processed] at onward
      cases outcome : reader.processJobs (behind reader.settings line reading).jobs reading with
      | mk result after =>
        rw [outcome] at onward
        cases result with
        | error fault => exact ⟨rfl, fun _ => id⟩
        | ok _ =>
          obtain ⟨numbered, opened, held⟩ := onward rfl
          obtain ⟨ledger, cutShort⟩ := inductionHypothesis (after.withProgress progress)
          have remaining : due reader.settings lines (after.withProgress progress) =
              ((lines.zipIdx (reading.lineNumber + 1 + 1)).foldl (Schedule.step reader.settings)
                (behind reader.settings line reading).ahead).jobs := by
            rw [due, ahead, Schedule.ahead, ← opened, ← held, ← numbered]
            rfl
          rw [remaining, processJobs_withProgress] at ledger cutShort
          exact ⟨ledger, cutShort⟩

/-- A cancelled read answers each call that reaches a line, and changes nothing but the text
that it holds back. -/
theorem exists_perform_cancelled (cancelled : reading.cancelled = true) {call : ReadCall}
    (reaches : call.ReachesLine reading.heldBack) :
    ∃ heldBack, reader.perform call reading =
      (.error .cancelled, reading.withHeldBack heldBack) := by
  obtain ⟨before, after, performed⟩ := reader.exists_perform call reading
  have cancelledThere : (reading.withHeldBack before).cancelled = true := cancelled
  rw [performed, reader.processLogLines_cancelled cancelledThere
    (ReadCall.lines_ne_nil_iff.mpr reaches)]
  exact ⟨after, rfl⟩

/-- A call comes to what the lines come to that come due with it, and if that is cut short, so
is the call. -/
theorem perform_due (call : ReadCall) (reading : Reading Sink) :
    let outcome :=
      reader.processJobs (due reader.settings (call.lines reading.heldBack) reading) reading
    (reader.perform call reading).2.ledger = outcome.2.ledger ∧
      ∀ fault, outcome.1 = .error fault → (reader.perform call reading).1 = .error fault := by
  obtain ⟨before, after, performed⟩ := reader.exists_perform call reading
  obtain ⟨ledger, cutShort⟩ := reader.processLogLines_due (call.lines reading.heldBack)
    (reading.withHeldBack before)
  have same := reader.processJobs_withProgress
    (due reader.settings (call.lines reading.heldBack) reading) reading
    { reading.progress with heldBack := before }
  change reader.processJobs (due reader.settings (call.lines reading.heldBack)
    (reading.withHeldBack before)) (reading.withHeldBack before) = _ at same
  rw [same] at ledger cutShort
  rw [performed]
  exact ⟨ledger, cutShort⟩

end LogReader

end JitTrace
