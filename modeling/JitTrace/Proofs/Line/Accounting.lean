import JitTrace.Proofs.Line.Selection
import JitTrace.Proofs.Text.Utf8

/-!
# Accounting for lines

The books of a read balance: every line has been dispatched, is unknown or on record, was
left out, is blank, is a marker or is still held back in a range that was never closed.
-/

namespace JitTrace

variable {Sink : Type}

/-- The number of lines that have come to something. -/
def Reading.settled (reading : Reading Sink) : Nat :=
  reading.counts.dispatched + reading.counts.unknown + reading.failures.size

namespace LogReader

variable {reader : LogReader Sink} {reading after : Reading Sink}

/-! ## Lines that are processed -/

/-- A line that is processed comes to something unless it is blank. -/
theorem settled_processNow {number : Nat} {line : String}
    (processed : reader.processNow number line reading = (.ok (), after)) :
    after.settled + (LogLine.text line).isBlank.toNat = reading.settled + 1 := by
  rw [LogLine.isBlank]
  rw [processNow] at processed
  split at processed <;> rename_i blank
  · obtain rfl : reading = after := congrArg Prod.snd processed
    rw [blank]
    rfl
  · rw [Bool.not_eq_true] at blank
    rw [blank]
    cases fields : Line.fields line with
    | error fault =>
      rw [fields] at processed
      obtain rfl : _ = after := congrArg Prod.snd processed
      simp [recordFailure, Reading.settled, Nat.add_assoc]
    | ok tokens =>
      rw [fields] at processed
      dsimp only at processed
      split at processed
      · obtain rfl : _ = after := congrArg Prod.snd processed
        simp only [Reading.settled, Bool.toNat_false]
        omega
      · obtain rfl : _ = after := congrArg Prod.snd processed
        simp only [Reading.settled, Bool.toNat_false]
        omega
      · split at processed
        · simp at processed
        · obtain rfl : _ = after := congrArg Prod.snd processed
          simp [recordFailure, Reading.settled, Nat.add_assoc]

theorem settled_processJob {job : LogLine × Nat}
    (processed : reader.processJob job reading = (.ok (), after)) :
    after.settled + job.1.isBlank.toNat = reading.settled + 1 := by
  obtain ⟨line | ⟨raw, cause⟩, number⟩ := job
  · exact settled_processNow processed
  · rw [processJob, Prod.mk.injEq] at processed
    obtain ⟨_, rfl⟩ := processed
    simp [Reading.settled, Reading.withLedger, Reading.ledger, settle, judge, Ledger.enter,
      LogLine.isBlank, Nat.add_assoc]

/-- Of lines that are processed, all but the blank ones come to something. -/
theorem settled_processJobs {jobs : List (LogLine × Nat)}
    (processed : reader.processJobs jobs reading = (.ok (), after)) :
    after.settled + jobs.countP (·.1.isBlank) = reading.settled + jobs.length := by
  induction jobs generalizing reading with
  | nil =>
    obtain rfl : reading = after := congrArg Prod.snd processed
    rfl
  | cons job jobs inductionHypothesis =>
    rw [processJobs] at processed
    split at processed
    · simp at processed
    split at processed
    · rename_i between first
      have one := settled_processJob first
      have others := inductionHypothesis processed
      rw [List.countP_cons, List.length_cons]
      cases blank : job.1.isBlank <;> simp only [blank, Bool.toNat_false, Bool.toNat_true,
        Bool.false_eq_true, if_false, if_true] at one ⊢ <;> omega
    · simp at processed

end LogReader

/-! ## Lines by what happens to them -/

namespace Schedule

/-- The blank lines among scheduled ones are lines of text. -/
theorem countP_isBlank (jobs : List (LogLine × Nat)) :
    jobs.countP (·.1.isBlank) =
      (jobs.filterMap jobText?).countP fun line => (LogLine.text line.2).isBlank := by
  rw [List.countP_filterMap]
  congr 1
  funext job
  obtain ⟨_ | _, number⟩ := job <;> rfl

/-- A scheduled line is a line of text or it is none. -/
theorem length_eq (jobs : List (LogLine × Nat)) :
    jobs.length = (jobs.filterMap jobText?).length + jobs.countP isDamaged := by
  rw [List.length_filterMap_eq_countP,
    List.length_eq_countP_add_countP fun job => (jobText? job).isSome]
  congr 2
  funext job
  cases text : jobText? job <;> simp [isDamaged, text]

end Schedule

namespace PlacedLine

/-- Lines that are not put on record as no text are text. -/
theorem length_texts (settings : ReaderSettings) {fate : LineFate} (isText : fate ≠ .recorded)
    (lines : List PlacedLine) : (texts settings fate lines).length = count settings fate lines := by
  induction lines with
  | nil => rfl
  | cons placed lines inductionHypothesis =>
    rw [texts_cons, count_cons, List.length_append, inductionHypothesis]
    congr 1
    split
    · rename_i same
      obtain ⟨_ | _, number, before, behind⟩ := placed
      · rfl
      · exact absurd same.symm isText
    · rfl

/-- The same happens to a line once. -/
theorem sum_count (settings : ReaderSettings) (lines : List PlacedLine) :
    count settings .recorded lines + count settings .marker lines +
      count settings .handedOver lines + count settings .filtered lines +
      count settings .unclosed lines = lines.length := by
  induction lines with
  | nil => rfl
  | cons placed lines inductionHypothesis =>
    simp only [count_cons, List.length_cons]
    cases placed.fate settings <;> simp <;> omega

/-- The markers are marked as such only when timed ranges are asked for. -/
theorem count_marker (settings : ReaderSettings) (lines : List LogLine) (number before : Nat) :
    count settings .marker (listFrom number before lines) =
      if settings.timedRange then markers lines else 0 := by
  induction lines generalizing number before with
  | nil => simp [count, markers]
  | cons line lines inductionHypothesis =>
    have fate : fate settings ⟨line, number, before, markers lines⟩ = .marker ↔
        settings.timedRange = true ∧ line.isMarker = true := by
      cases line with
      | damaged raw cause => simp [PlacedLine.fate, LogLine.isMarker]
      | text line => grind [fate_text]
    rw [listFrom, count_cons, inductionHypothesis, markers_cons]
    cases timed : settings.timedRange <;> cases marked : line.isMarker <;>
      simp [fate, timed, marked, Nat.add_comm]

theorem length_listFrom (number before : Nat) (lines : List LogLine) :
    (listFrom number before lines).length = lines.length := by
  induction lines generalizing number before with
  | nil => rfl
  | cons line lines inductionHypothesis => simp [inductionHypothesis]

end PlacedLine

/-- The books of a schedule: every line is scheduled, left out, a marker or still held back. -/
theorem Schedule.length_foldl_step (settings : ReaderSettings) (lines : List LogLine) :
    let schedule := (lines.zipIdx 1).foldl (step settings) {}
    schedule.jobs.length + schedule.filtered +
      (if settings.timedRange then markers lines else 0) + (unclosed settings lines).length =
        lines.length := by
  obtain ⟨handed, -, -, recorded, filtered⟩ := foldl_step settings lines
  generalize (lines.zipIdx 1).foldl (step settings) {} = schedule at handed recorded filtered ⊢
  have handedOverIsText : LineFate.handedOver ≠ .recorded := nofun
  have unclosedIsText : LineFate.unclosed ≠ .recorded := nofun
  have fates := PlacedLine.sum_count settings (PlacedLine.listFrom 1 0 lines)
  rw [PlacedLine.count_marker, PlacedLine.length_listFrom, ← recorded, ← filtered,
    ← PlacedLine.length_texts settings handedOverIsText,
    ← PlacedLine.length_texts settings unclosedIsText] at fates
  dsimp only
  rw [length_eq, handed, handedOver, unclosed, ← fates]
  omega

namespace LogReader

/-- The books of a read that is not cancelled: every line has been dispatched, is unknown or
on record, was left out, is blank, is a marker, or lies in a range that no marker closed. -/
theorem processBytes_accounted (reader : LogReader Sink) (sink : Sink) (bytes : List UInt8) :
    let lines := (byteLines bytes).map LogLine.decode
    (∃ fault after, reader.processBytes bytes { sink } = (.error fault, after) ∧
      fault.isCancellation = true) ∨
    ∃ after, reader.processBytes bytes { sink } = (.ok (), after) ∧
      after.counts.lines = lines.length ∧
      after.counts.lines =
        after.counts.dispatched + after.counts.unknown + after.failures.size +
          after.counts.filtered +
          (handedOver reader.settings lines).countP (fun line => (LogLine.text line.2).isBlank) +
          (if reader.settings.timedRange then markers lines else 0) +
          (unclosed reader.settings lines).length := by
  intro lines
  rw [processBytes, processByteLines_eq]
  refine (reader.processLogLines_cases sink lines).imp id ?_
  rintro ⟨after, read, processed, followed, rfl⟩
  refine ⟨_, read, rfl, ?_⟩
  have handed := (Schedule.foldl_step reader.settings lines).1
  have settled := settled_processJobs followed
  have length := Schedule.length_foldl_step reader.settings lines
  rw [Schedule.countP_isBlank, handed] at settled
  simp only [Reading.settled, Reading.withProgress, Schedule.progress] at settled ⊢
  simp only [Array.size_empty, Nat.zero_add] at settled
  omega

/-- A line behind a marker that stays the last one is in none of the other books. -/
theorem processBytes_unclosed :
    let reader : LogReader Unit := { table := {}, settings := { timedRange := true } }
    let bytes := Text.encodeUtf8 "current-time,1\nx\n"
    let lines := (byteLines bytes).map LogLine.decode
    ∃ after, reader.processBytes bytes { sink := () } = (.ok (), after) ∧
      after.counts.lines ≠
        after.counts.dispatched + after.counts.unknown + after.failures.size +
          after.counts.filtered +
          (handedOver reader.settings lines).countP (fun line => (LogLine.text line.2).isBlank) +
          (if reader.settings.timedRange then markers lines else 0) := by
  intro reader bytes lines
  have cut : byteLines bytes = [Text.encodeUtf8 "current-time,1", Text.encodeUtf8 "x"] := by
    decide
  have read : lines = [.text "current-time,1", .text "x"] := by
    simp only [lines, cut, List.map_cons, List.map_nil, LogLine.decode, Text.decodeUtf8_encodeUtf8]
  rw [read, processBytes, processByteLines_eq]
  change ∃ after, reader.processLogLines lines { sink := () } = _ ∧ _
  rw [read]
  exact ⟨_, rfl, by decide⟩

end LogReader

end JitTrace
