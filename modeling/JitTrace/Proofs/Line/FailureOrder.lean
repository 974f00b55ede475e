import JitTrace.Proofs.Line.Order
import JitTrace.Proofs.Text.Utf8

/-!
# The order of failures

The lines on record are among those that have been processed, in the same order. So they are
in the order of the log unless one of them, which is no text, has overtaken another one that
waited in a timed range.
-/

namespace JitTrace

/-! ## Lines in the order of their keys -/

namespace PlacedLine

section Listed

variable {settings : ReaderSettings} {lines : List LogLine} {number before : Nat}
  {listed : List PlacedLine} (inside : listed ⊆ listFrom number before lines)
  (ordered : listed.Pairwise fun first second => first.key settings < second.key settings)
include inside

theorem mem_of_number_mem {placed : PlacedLine} (isPlaced : placed ∈ listFrom number before lines)
    (numbered : placed.number ∈ listed.map (·.number)) : placed ∈ listed := by
  obtain ⟨other, isListed, same⟩ := List.mem_map.mp numbered
  exact eq_of_number_eq (inside isListed) isPlaced same ▸ isListed

include ordered

theorem nodup_numbers : (listed.map (·.number)).Nodup := by
  rw [List.Nodup, List.pairwise_map]
  refine ordered.imp_of_mem fun {first second} isFirst isSecond comes same => ?_
  obtain rfl : first = second := eq_of_number_eq (inside isFirst) (inside isSecond) same
  exact lt_irrefl _ comes

/-- Lines in the order of their keys are in the order of the log unless one of them overtakes
another one. -/
theorem pairwise_lt_iff :
    (listed.map (·.number)).Pairwise (· < ·) ↔
      ∀ damaged ∈ listed, ∀ waiting ∈ listed, ¬damaged.Overtakes settings waiting := by
  rw [List.pairwise_map]
  constructor
  · intro ascending damaged isDamaged waiting isWaiting overtakes
    rcases eq_or_of_pairwise (ordered.and ascending) isDamaged isWaiting with
      rfl | ⟨_, lower⟩ | ⟨comes, _⟩
    · exact Nat.lt_irrefl _ overtakes.number
    · exact Nat.lt_asymm lower overtakes.number
    · exact lt_asymm comes overtakes.key_lt
  · intro orderly
    refine ordered.imp_of_mem fun {first second} isFirst isSecond comes => ?_
    exact (lt_or_overtakes (inside isFirst) (inside isSecond) comes).resolve_right
      (orderly first isFirst second isSecond)

end Listed

/-- Of lines in the order of their keys, the first one is ahead of all that it does not
overtake. -/
theorem le_or_overtakes_of_cons {settings : ReaderSettings} {lines : List LogLine}
    {number before : Nat} {first : PlacedLine} {others : List PlacedLine}
    (inside : first :: others ⊆ listFrom number before lines)
    (ordered : (first :: others).Pairwise fun first second =>
      first.key settings < second.key settings) {placed : PlacedLine}
    (isListed : placed ∈ first :: others) :
    first.number ≤ placed.number ∨ first.Overtakes settings placed := by
  rcases List.mem_cons.mp isListed with rfl | isOther
  · exact .inl (Nat.le_refl _)
  · have comes := (List.pairwise_cons.mp ordered).1 placed isOther
    exact (lt_or_overtakes (inside List.mem_cons_self) (inside isListed) comes).imp_left
      Nat.le_of_lt

end PlacedLine

namespace Schedule

/-- What has been processed stays so. -/
theorem jobs_prefix_step (settings : ReaderSettings) (schedule : Schedule)
    (entry : LogLine × Nat) : schedule.jobs <+: (schedule.step settings entry).jobs := by
  obtain ⟨line | ⟨raw, cause⟩, number⟩ := entry
  · simp only [step]
    split
    · exact List.prefix_append ..
    split
    · split
      · exact List.prefix_append ..
      · exact List.prefix_rfl
    split
    · exact List.prefix_rfl
    split
    · exact List.prefix_rfl
    · exact List.prefix_append ..
  · exact List.prefix_append ..

theorem jobs_prefix_foldl (settings : ReaderSettings) (schedule : Schedule)
    (lines : List (LogLine × Nat)) :
    schedule.jobs <+: (lines.foldl (step settings) schedule).jobs := by
  induction lines generalizing schedule with
  | nil => exact List.prefix_rfl
  | cons entry lines inductionHypothesis =>
    exact (schedule.jobs_prefix_step settings entry).trans (inductionHypothesis _)

end Schedule

/-! ## The lines on record -/

/-- The numbers of the lines that failed. -/
def Reading.failed {Sink : Type} (reading : Reading Sink) : List Nat :=
  reading.ledger.failed

namespace LogReader

variable {Sink : Type} (reader : LogReader Sink)

@[simp] theorem failed_recordFailure (reading : Reading Sink) (failure : LineFailure) :
    (recordFailure reading failure).failed = reading.failed ++ [failure.line] := by
  simp [recordFailure, Reading.failed, Reading.ledger, Ledger.failed]

/-- Processing a line puts it on record or nothing. -/
theorem failed_processNow (number : Nat) (line : String) (reading : Reading Sink) :
    (reader.processNow number line reading).2.failed.Sublist (reading.failed ++ [number]) := by
  have same := List.sublist_append_left reading.failed [number]
  simp only [processNow]
  split
  · exact same
  · cases Line.fields line with
    | error fault => simp
    | ok tokens =>
      dsimp only
      split
      · exact same
      · exact same
      · split
        · exact same
        · simp only [failed_recordFailure]
          exact .refl _

theorem failed_processJob (job : LogLine × Nat) (reading : Reading Sink) :
    (reader.processJob job reading).2.failed.Sublist (reading.failed ++ [job.2]) := by
  obtain ⟨line | ⟨raw, cause⟩, number⟩ := job
  · exact reader.failed_processNow number line reading
  · simp only [processJob, Reading.failed, Reading.ledger_withLedger]
    rcases reader.settle_cases reading.ledger (.damaged raw cause, number) with
      ⟨_, _, _, recorded⟩ | ⟨_, recorded⟩
    · simp [recorded]
    · simp [recorded]

/-- Lines that are processed come on record in their order, even if a cancellation keeps some
of them from it. -/
theorem failed_processJobs (jobs : List (LogLine × Nat)) (reading : Reading Sink) :
    (reader.processJobs jobs reading).2.failed.Sublist (reading.failed ++ jobs.map (·.2)) := by
  induction jobs generalizing reading with
  | nil => simp [processJobs]
  | cons job jobs inductionHypothesis =>
    have first := reader.failed_processJob job reading
    rw [List.map_cons, List.append_cons]
    simp only [processJobs]
    split
    · rw [List.append_assoc]
      exact List.sublist_append_left ..
    · split <;> rename_i between outcome <;> rw [outcome] at first
      · exact (inductionHypothesis between).trans (first.append_right _)
      · exact first.trans (List.sublist_append_left ..)

variable {reader} {sink : Sink} {schedule : Schedule} {lines : Nat} {reading : Reading Sink}

namespace Reached

theorem failed (reached : reader.Reached sink schedule lines reading) :
    reading.failed.Sublist (schedule.jobs.map (·.2)) := by
  obtain ⟨processed, followed, rfl⟩ := reached
  have recorded := reader.failed_processJobs schedule.jobs { sink }
  rw [followed] at recorded
  exact recorded

/-- A marker puts no other lines on record than those that were held back. -/
theorem failed_processMarker (reached : reader.Reached sink schedule lines reading)
    (opened : schedule.rangeOpen = true) :
    (reader.processMarker reading).2.failed.Sublist
      ((schedule.jobs ++ schedule.held.reverse.map Schedule.heldJob).map (·.2)) := by
  have ranged := reader.failed_processJobs (schedule.held.reverse.map Schedule.heldJob)
    { reading with rangeLines := [] }
  have recorded := ranged.trans (reached.failed.append_right _)
  rw [← List.map_append] at recorded
  rw [LogReader.processMarker, if_pos (reached.rangeOpen.trans opened), reached.rangeLines,
    processRange_eq_processJobs]
  split <;> rename_i outcome <;> rw [outcome] at recorded <;> exact recorded

/-- A line puts no lines on record but such as are scheduled. -/
theorem failed_processLogLine (reached : reader.Reached sink schedule lines reading)
    (line : LogLine) :
    (reader.processLogLine line reading).2.failed.Sublist
      ((schedule.step reader.settings (line, lines + 1)).jobs.map (·.2)) := by
  have known := reached.failed
  obtain rfl := reached.lineNumber
  cases line with
  | damaged raw cause =>
    simp only [LogReader.processLogLine, LogReader.recordUndecodable, Schedule.step,
      List.map_append]
    split
    · exact known.trans (List.sublist_append_left ..)
    · rw [failed_recordFailure]
      exact known.append_right _
  | text line =>
    have processed := (reader.failed_processNow (reading.lineNumber + 1) line
      (LogReader.countLine reading)).trans (known.append_right _)
    simp only [LogReader.processLogLine, LogReader.processLine]
    split
    · exact known.trans ((schedule.jobs_prefix_step _ _).sublist.map _)
    simp only [Schedule.step]
    split
    · rw [List.map_append]
      exact processed
    split
    · split <;> rename_i opened
      · exact reached.countLine.failed_processMarker opened
      · rw [LogReader.processMarker, reached.countLine.rangeOpen, if_neg opened]
        exact known
    rw [reached.countLine.rangeOpen]
    split
    · exact known
    split
    · exact known
    · rw [List.map_append]
      exact processed

/-- Whether a read is cancelled or not, the lines on record are scheduled, in the order of the
schedule. -/
theorem failed_processLogLines (reached : reader.Reached sink schedule lines reading)
    (logLines : List LogLine) :
    (reader.processLogLines logLines reading).2.failed.Sublist
      (((logLines.zipIdx (lines + 1)).foldl (Schedule.step reader.settings) schedule).jobs.map
        (·.2)) := by
  induction logLines generalizing schedule lines reading with
  | nil => exact reached.failed
  | cons line logLines inductionHypothesis =>
    have first := reached.failed_processLogLine line
    rw [List.zipIdx_cons, List.foldl_cons, LogReader.processLogLines]
    split <;> rename_i outcome
    · exact inductionHypothesis (reached.processLogLine outcome)
    · rw [outcome] at first
      exact first.trans ((Schedule.jobs_prefix_foldl ..).sublist.map _)

end Reached

/-- The lines on record of a read, in their order, which is the one of their keys. -/
theorem exists_placed_failed (reader : LogReader Sink) (sink : Sink) (lines : List LogLine) :
    ∃ listed ⊆ PlacedLine.listFrom 1 0 lines,
      (reader.processLogLines lines { sink }).2.failed = listed.map (·.number) ∧
        listed.Pairwise fun first second =>
          first.key reader.settings < second.key reader.settings := by
  have scheduled := (Reached.start reader sink).failed_processLogLines lines
  obtain ⟨done, inside, numbers, ordered⟩ := Schedule.exists_inOrder reader.settings lines
  rw [Nat.zero_add, numbers] at scheduled
  obtain ⟨listed, fromDone, same⟩ := List.sublist_map_iff.mp scheduled
  exact ⟨listed, List.Subset.trans fromDone.subset inside, same, ordered.sublist fromDone⟩

/-- A strict read names the first line on record. -/
theorem requireNoFailures_cases (failures : Array LineFailure) :
    (failures.toList = [] ∧ requireNoFailures failures = .ok ()) ∨
      ∃ first rest, failures.toList = first :: rest ∧
        requireNoFailures failures =
          .error (.parse (.failedLines failures.size first.line first.message)) := by
  rw [requireNoFailures, ← Array.getElem?_toList]
  cases failures.toList with
  | nil => exact .inl ⟨rfl, rfl⟩
  | cons first rest => exact .inr ⟨first, rest, rfl, rfl⟩

/-- The lines on record are in their order unless one of them has overtaken another one, and
the first of them, which a strict read names, is the first of the log unless it has overtaken
another one. -/
theorem failures_ascend_iff (reader : LogReader Sink) (sink : Sink) (bytes : List UInt8) :
    let placed := PlacedLine.listFrom 1 0 ((byteLines bytes).map LogLine.decode)
    let failures := (reader.processBytes bytes { sink }).2.failures
    let numbers := failures.toList.map (·.line)
    numbers.Nodup ∧
    (numbers.Pairwise (· < ·) ↔
      ∀ damaged ∈ placed, ∀ waiting ∈ placed,
        damaged.number ∈ numbers → waiting.number ∈ numbers →
          ¬damaged.Overtakes reader.settings waiting) ∧
    (numbers = [] ∧ requireNoFailures failures = .ok () ∨
      ∃ first, failures[0]? = some first ∧
        requireNoFailures failures =
            .error (.parse (.failedLines failures.size first.line first.message)) ∧
          ∀ number ∈ numbers, first.line ≤ number ∨
            ∃ damaged ∈ placed, ∃ waiting ∈ placed,
              damaged.number = first.line ∧ waiting.number = number ∧
                damaged.Overtakes reader.settings waiting) := by
  intro placed failures numbers
  obtain ⟨listed, inside, same, ordered⟩ :=
    reader.exists_placed_failed sink ((byteLines bytes).map LogLine.decode)
  rw [← processByteLines_eq] at same
  replace same : numbers = listed.map (·.number) := same
  rw [same]
  refine ⟨PlacedLine.nodup_numbers inside ordered, ?_, ?_⟩
  · rw [PlacedLine.pairwise_lt_iff inside ordered]
    constructor
    · intro orderly damaged isDamaged waiting isWaiting onRecord alsoOnRecord
      exact orderly damaged (PlacedLine.mem_of_number_mem inside isDamaged onRecord) waiting
        (PlacedLine.mem_of_number_mem inside isWaiting alsoOnRecord)
    · intro orderly damaged isDamaged waiting isWaiting
      exact orderly damaged (inside isDamaged) waiting (inside isWaiting)
        (List.mem_map_of_mem isDamaged) (List.mem_map_of_mem isWaiting)
  · refine (requireNoFailures_cases failures).imp ?_ ?_
    · rintro ⟨empty, passes⟩
      rw [← same]
      exact ⟨congrArg (List.map _) empty, passes⟩
    · rintro ⟨first, rest, isFirst, fails⟩
      have numbered : listed.map (·.number) = first.line :: rest.map (·.line) := by
        rw [← same]
        exact congrArg (List.map _) isFirst
      obtain ⟨foremost, others, rfl, named, -⟩ := List.map_eq_cons_iff.mp numbered
      refine ⟨first, by rw [← Array.getElem?_toList, isFirst]; rfl, fails, ?_⟩
      intro number onRecord
      obtain ⟨other, isListed, rfl⟩ := List.mem_map.mp onRecord
      rw [← named]
      exact (PlacedLine.le_or_overtakes_of_cons inside ordered isListed).imp_right fun overtakes =>
        ⟨foremost, inside List.mem_cons_self, other, inside isListed, rfl, rfl, overtakes⟩

/-- A damaged line in an open range, behind a line of text that fails: a strict read names the
damaged line. -/
theorem failures_overtaken :
    let reader : LogReader Unit := { table := {}, settings := { timedRange := true } }
    let bytes := Text.encodeUtf8 "current-time,1\n\"x\n" ++ [0xff, 10] ++
      Text.encodeUtf8 "current-time,2\n"
    let failures := (reader.processBytes bytes { sink := () }).2.failures
    failures.toList.map (·.line) = [3, 2] ∧
      ¬(failures.toList.map (·.line)).Pairwise (· < ·) ∧
      requireNoFailures failures = .error (.parse (.failedLines 2 3
        (Fault.message (.parse (.undecodable ⟨0, some 1⟩))))) := by
  intro reader bytes failures
  have cut : byteLines bytes =
      [Text.encodeUtf8 "current-time,1", Text.encodeUtf8 "\"x", [0xff],
        Text.encodeUtf8 "current-time,2"] := by
    decide
  have damaged : LogLine.decode [0xff] = .damaged [0xff] ⟨0, some 1⟩ := by
    rw [LogLine.decode, Text.decodeUtf8, Text.decodeUtf8From]
    rfl
  have fields : Line.fields "\"x" = .error (.parse .unterminatedQuote) := by
    rw [Line.fields, (by decide : Text.withoutReturn "\"x".toList = ['"', 'x'])]
    dsimp only
    rw [Line.fieldsFrom]
    rfl
  have last (reading : Reading Unit) : reader.processNow 2 "\"x" reading =
      (.ok (), recordFailure reading ⟨2, none, Fault.message (.parse .unterminatedQuote)⟩) := by
    rw [processNow, if_neg (by decide), fields]
  have isTimed : reader.settings = { timedRange := true } := rfl
  obtain ⟨command, listed⟩ : ∃ command, failures.toList =
      [⟨3, command, Fault.message (.parse (.undecodable ⟨0, some 1⟩))⟩,
        ⟨2, none, Fault.message (.parse .unterminatedQuote)⟩] := by
    simp only [failures, processBytes, processByteLines_eq, cut, List.map_cons, List.map_nil,
      damaged]
    simp [LogLine.decode, Text.decodeUtf8_encodeUtf8, processLogLines, processLogLine,
      processLine, processMarker, processRange, recordUndecodable, recordFailure, countLine,
      timerMarker, isTimed, last]
  have first : failures[0]? = failures.toList[0]? := Array.getElem?_toList.symm
  rw [listed, List.getElem?_cons_zero] at first
  have size : failures.size = 2 := by rw [← Array.length_toList, listed]; rfl
  refine ⟨by rw [listed]; rfl, by simp [listed], ?_⟩
  rw [requireNoFailures, first, size]

end LogReader

end JitTrace
