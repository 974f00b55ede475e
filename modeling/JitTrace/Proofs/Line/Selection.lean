import JitTrace.Proofs.Line.Uncancelled

/-!
# The lines that count

When a read is restricted to timed ranges, what happens to a line depends on the markers
before and behind it: within an open range it is handed over once a marker closes the range,
elsewhere it is handed over at once unless it is a tick.
-/

namespace JitTrace

/-- Whether a line is a marker. -/
def LogLine.isMarker : LogLine → Bool
  | .text line => timerMarker.toList.isPrefixOf line.toList
  | .damaged .. => false

/-- Whether a line is a tick. -/
def LogLine.isTick : LogLine → Bool
  | .text line => "tick".toList.isPrefixOf line.toList
  | .damaged .. => false

/-- Whether a line is blank. -/
def LogLine.isBlank : LogLine → Bool
  | .text line => (Text.trim line.toList).isEmpty
  | .damaged .. => false

/-- The number of markers among lines. -/
def markers (lines : List LogLine) : Nat :=
  lines.countP (·.isMarker)

@[simp] theorem markers_cons (line : LogLine) (lines : List LogLine) :
    markers (line :: lines) = markers lines + line.isMarker.toNat := by
  cases marked : line.isMarker <;> simp [markers, marked]

/-- Whether a timed range is open behind so many markers. Of pairwise ranges, every marker
opens or closes one; other ranges follow each other from the first marker on. -/
def ReaderSettings.opensBehind (settings : ReaderSettings) (markers : Nat) : Bool :=
  if settings.pairwiseTimedRange then markers % 2 == 1 else markers != 0

/-- What happens to a line. -/
inductive LineFate where
  /-- The line is put on record, since it is no text. -/
  | recorded
  | marker
  /-- The line is handed over to be processed. -/
  | handedOver
  /-- The line is a tick outside of the timed ranges. -/
  | filtered
  /-- The line lies in a range that no marker closes. -/
  | unclosed
deriving DecidableEq

/-- A line of a log with its number and the markers before and behind it. -/
structure PlacedLine where
  line : LogLine
  number : Nat
  before : Nat
  behind : Nat

namespace PlacedLine

/-- The lines of a log from a certain number on, behind so many markers. -/
@[simp] def listFrom (number before : Nat) : List LogLine → List PlacedLine
  | [] => []
  | line :: lines =>
    ⟨line, number, before, markers lines⟩ ::
      listFrom (number + 1) (before + line.isMarker.toNat) lines

/-- What happens to a line by its place. -/
def fate (settings : ReaderSettings) (placed : PlacedLine) : LineFate :=
  match placed.line with
  | .damaged .. => .recorded
  | .text _ =>
    if !settings.timedRange then .handedOver
    else if placed.line.isMarker then .marker
    else if settings.opensBehind placed.before then
      if placed.behind = 0 then .unclosed else .handedOver
    else if placed.line.isTick then .filtered
    else .handedOver

theorem fate_text (settings : ReaderSettings) (line : String) (number before behind : Nat) :
    fate settings ⟨.text line, number, before, behind⟩ =
      if !settings.timedRange then .handedOver
      else if (LogLine.text line).isMarker then .marker
      else if settings.opensBehind before then
        if behind = 0 then .unclosed else .handedOver
      else if (LogLine.text line).isTick then .filtered
      else .handedOver := rfl

/-- A line of text under its number. -/
def text? (placed : PlacedLine) : Option (Nat × String) :=
  match placed.line with
  | .text line => some (placed.number, line)
  | .damaged .. => none

/-- The lines of text to which this happens, under their numbers. -/
def texts (settings : ReaderSettings) (fate : LineFate) (lines : List PlacedLine) :
    List (Nat × String) :=
  lines.filterMap fun placed => if placed.fate settings = fate then placed.text? else none

/-- The number of lines to which this happens. -/
def count (settings : ReaderSettings) (fate : LineFate) (lines : List PlacedLine) : Nat :=
  lines.countP fun placed => placed.fate settings = fate

@[simp] theorem texts_cons (settings : ReaderSettings) (wanted : LineFate) (placed : PlacedLine)
    (lines : List PlacedLine) :
    texts settings wanted (placed :: lines) =
      (if placed.fate settings = wanted then placed.text?.toList else []) ++
        texts settings wanted lines := by
  by_cases same : placed.fate settings = wanted
  · cases text : placed.text? <;> simp [texts, same, text]
  · simp [texts, same]

@[simp] theorem count_cons (settings : ReaderSettings) (wanted : LineFate) (placed : PlacedLine)
    (lines : List PlacedLine) :
    count settings wanted (placed :: lines) =
      (if placed.fate settings = wanted then 1 else 0) + count settings wanted lines := by
  by_cases same : placed.fate settings = wanted <;> simp [count, same, Nat.add_comm]

/-- Along a log, the numbers of the lines grow, and the markers before them do not get
fewer. -/
theorem pairwise_listFrom (lines : List LogLine) (number before : Nat) :
    (listFrom number before lines).Pairwise
        (fun first second => first.number < second.number ∧ first.before ≤ second.before) ∧
      ∀ placed ∈ listFrom number before lines,
        number ≤ placed.number ∧ before ≤ placed.before := by
  induction lines generalizing number before with
  | nil => simp
  | cons line lines inductionHypothesis =>
    obtain ⟨ascending, later⟩ :=
      inductionHypothesis (number + 1) (before + line.isMarker.toNat)
    refine ⟨List.pairwise_cons.mpr ⟨fun placed inside => ?_, ascending⟩, fun placed inside => ?_⟩
    · obtain ⟨numbered, marked⟩ := later placed inside
      exact ⟨numbered, Nat.le_trans (Nat.le_add_right ..) marked⟩
    · rcases List.mem_cons.mp inside with rfl | inside
      · exact ⟨Nat.le_refl _, Nat.le_refl _⟩
      · obtain ⟨numbered, marked⟩ := later placed inside
        exact ⟨Nat.le_of_succ_le numbered, Nat.le_trans (Nat.le_add_right ..) marked⟩

/-- The numbers of the lines to which something happens increase. -/
theorem pairwise_texts (settings : ReaderSettings) (fate : LineFate) (lines : List LogLine)
    (number before : Nat) :
    (texts settings fate (listFrom number before lines)).Pairwise (·.1 < ·.1) := by
  have numbered : ∀ {placed : PlacedLine} {text : Nat × String},
      text ∈ (if placed.fate settings = fate then placed.text? else none) →
        text.1 = placed.number := by
    intro placed text listed
    obtain ⟨_ | _, number, before, behind⟩ := placed <;> grind [text?]
  refine List.pairwise_filterMap.mpr ((pairwise_listFrom lines number before).1.imp ?_)
  intro first second ahead text isFirst other isSecond
  rw [numbered isFirst, numbered isSecond]
  exact ahead.1

end PlacedLine

/-- The lines of a log that are handed over, under their numbers. -/
def handedOver (settings : ReaderSettings) (lines : List LogLine) : List (Nat × String) :=
  PlacedLine.texts settings .handedOver (PlacedLine.listFrom 1 0 lines)

/-- The lines of a log in a range that no marker closes, under their numbers. -/
def unclosed (settings : ReaderSettings) (lines : List LogLine) : List (Nat × String) :=
  PlacedLine.texts settings .unclosed (PlacedLine.listFrom 1 0 lines)

namespace Schedule

/-- A scheduled line of text under its number. -/
def jobText? : LogLine × Nat → Option (Nat × String)
  | (.text line, number) => some (number, line)
  | (.damaged .., _) => none

/-- Whether a scheduled line is no text. -/
def isDamaged (job : LogLine × Nat) : Bool :=
  (jobText? job).isNone

/-- What a read comes to with all its lines. -/
structure Outlook where
  handedOver : List (Nat × String)
  unclosed : List (Nat × String)
  recorded : Nat
  filtered : Nat

/-- What a read comes to that has got as far as a schedule says, with the lines that are left
from a certain number on, behind so many markers. -/
def outlook (settings : ReaderSettings) (schedule : Schedule) (number before : Nat)
    (lines : List LogLine) : Outlook :=
  let left := PlacedLine.listFrom number before lines
  let due := if markers lines = 0 then [] else schedule.held.reverse
  let waiting := if markers lines = 0 then schedule.held.reverse else []
  { handedOver :=
      schedule.jobs.filterMap jobText? ++ due ++ PlacedLine.texts settings .handedOver left
    unclosed := waiting ++ PlacedLine.texts settings .unclosed left
    recorded := schedule.jobs.countP isDamaged + PlacedLine.count settings .recorded left
    filtered := schedule.filtered + PlacedLine.count settings .filtered left }

/-- A read that has got to the end has come to what it has come to. -/
theorem outlook_nil (settings : ReaderSettings) (schedule : Schedule) (number before : Nat) :
    schedule.outlook settings number before [] =
      ⟨schedule.jobs.filterMap jobText?, schedule.held.reverse, schedule.jobs.countP isDamaged,
        schedule.filtered⟩ := by
  simp [outlook, markers, PlacedLine.texts, PlacedLine.count]

/-- At the beginning, what a read comes to is in the places of its lines. -/
theorem outlook_empty (settings : ReaderSettings) (number before : Nat) (lines : List LogLine) :
    ({} : Schedule).outlook settings number before lines =
      let left := PlacedLine.listFrom number before lines
      ⟨PlacedLine.texts settings .handedOver left, PlacedLine.texts settings .unclosed left,
        PlacedLine.count settings .recorded left, PlacedLine.count settings .filtered left⟩ := by
  simp [outlook]

/-- A schedule behind so many markers: a range is open as they say, and lines are held back
only in an open range. -/
structure Behind (settings : ReaderSettings) (markers : Nat) (schedule : Schedule) : Prop where
  rangeOpen : schedule.rangeOpen = (settings.timedRange && settings.opensBehind markers)
  held : schedule.rangeOpen = false → schedule.held = []

/-- At the beginning, no range is open. -/
theorem behind_empty (settings : ReaderSettings) : Behind settings 0 {} := by
  refine ⟨?_, fun _ => rfl⟩
  cases pairwise : settings.pairwiseTimedRange <;> simp [ReaderSettings.opensBehind, pairwise]

variable {settings : ReaderSettings} {schedule : Schedule}

/-- A range is open behind a marker unless the marker closes one of two. -/
theorem opensBehind_succ (settings : ReaderSettings) (markers : Nat) :
    settings.opensBehind (markers + 1) =
      if settings.opensBehind markers then !settings.pairwiseTimedRange else true := by
  cases pairwise : settings.pairwiseTimedRange with
  | false => simp [ReaderSettings.opensBehind, pairwise]
  | true =>
    simp only [ReaderSettings.opensBehind, pairwise, if_true]
    rcases Nat.mod_two_eq_zero_or_one markers with even | odd
    · simp [Nat.add_mod, even]
    · simp [Nat.add_mod, odd]

/-- A read that goes on over a line comes to what it would have come to. -/
structure Foreseen (settings : ReaderSettings) (before number : Nat) (line : LogLine)
    (lines : List LogLine) (schedule after : Schedule) : Prop where
  behind : Behind settings (before + line.isMarker.toNat) after
  outlook : after.outlook settings (number + 1) (before + line.isMarker.toNat) lines =
    schedule.outlook settings number before (line :: lines)

section Steps

variable {before number : Nat} {line : String} {lines : List LogLine}

theorem foreseen_damaged (behind : Behind settings before schedule) (raw : List UInt8)
    (cause : Text.Utf8Fault) :
    Foreseen settings before number (.damaged raw cause) lines schedule
      (schedule.step settings (.damaged raw cause, number)) where
  behind := ⟨behind.rangeOpen, behind.held⟩
  outlook := by
    have isRecorded : PlacedLine.fate settings
        ⟨.damaged raw cause, number, before, markers lines⟩ = .recorded := rfl
    simp [outlook, step, isRecorded, LogLine.isMarker, jobText?, isDamaged, Nat.add_assoc]

theorem foreseen_untimed (behind : Behind settings before schedule)
    (untimed : settings.timedRange = false) :
    Foreseen settings before number (.text line) lines schedule
      (schedule.step settings (.text line, number)) := by
  have fate := PlacedLine.fate_text settings line number before (markers lines)
  have isClosed := behind.rangeOpen
  simp only [untimed, Bool.not_false, if_true] at fate
  rw [untimed, Bool.false_and] at isClosed
  simp only [step, untimed, Bool.not_false, if_true]
  refine ⟨⟨by rw [isClosed, untimed, Bool.false_and], behind.held⟩, ?_⟩
  simp [outlook, behind.held isClosed, fate, PlacedLine.text?, jobText?, isDamaged]

variable (behind : Behind settings before schedule) (timed : settings.timedRange = true)
include behind timed

theorem foreseen_marker (marked : (LogLine.text line).isMarker = true) :
    Foreseen settings before number (.text line) lines schedule
      (schedule.step settings (.text line, number)) := by
  have fate := PlacedLine.fate_text settings line number before (markers lines)
  have isOpen := behind.rangeOpen
  have next := opensBehind_succ settings before
  have isMarker : timerMarker.toList.isPrefixOf line.toList = true := marked
  rw [timed, Bool.true_and] at isOpen
  rw [← isOpen] at next
  simp only [timed, marked, Bool.not_true, Bool.false_eq_true, if_false, if_true] at fate
  simp only [step, timed, isMarker, Bool.not_true, Bool.false_eq_true, if_false, if_true]
  cases opened : schedule.rangeOpen with
  | true =>
    refine ⟨⟨by simp [timed, marked, next, opened], fun _ => rfl⟩, ?_⟩
    simp [outlook, fate, marked, jobText?, isDamaged, heldJob, List.filterMap_map,
      Function.comp_def]
  | false =>
    refine ⟨⟨by simp [timed, marked, next, opened], fun closed => Bool.noConfusion closed⟩, ?_⟩
    simp [outlook, behind.held opened, fate, marked]

variable (ordinary : (LogLine.text line).isMarker = false)
include ordinary

/-- Within an open range, a line is held back. -/
theorem foreseen_inside (opened : schedule.rangeOpen = true) :
    Foreseen settings before number (.text line) lines schedule
      (schedule.step settings (.text line, number)) := by
  have fate := PlacedLine.fate_text settings line number before (markers lines)
  have isOpen := behind.rangeOpen
  have isMarker : timerMarker.toList.isPrefixOf line.toList = false := ordinary
  rw [opened, timed, Bool.true_and] at isOpen
  simp only [timed, ordinary, ← isOpen, Bool.not_true, Bool.false_eq_true, if_false, if_true]
    at fate
  simp only [step, timed, isMarker, opened, Bool.not_true, Bool.false_eq_true, if_false, if_true]
  refine ⟨⟨by simp [timed, ordinary, ← isOpen], fun closed => Bool.noConfusion closed⟩, ?_⟩
  simp [outlook, fate, ordinary, PlacedLine.text?]
  split <;> simp

/-- Outside of the ranges, a line is processed at once unless it is a tick. -/
theorem foreseen_outside (closed : schedule.rangeOpen = false) :
    Foreseen settings before number (.text line) lines schedule
      (schedule.step settings (.text line, number)) := by
  have fate := PlacedLine.fate_text settings line number before (markers lines)
  have isClosed := behind.rangeOpen
  have empty := behind.held closed
  have isMarker : timerMarker.toList.isPrefixOf line.toList = false := ordinary
  have isTick : "tick".toList.isPrefixOf line.toList = (LogLine.text line).isTick := rfl
  rw [closed, timed, Bool.true_and] at isClosed
  simp only [timed, ordinary, ← isClosed, Bool.not_true, Bool.false_eq_true, if_false] at fate
  simp only [step, timed, isMarker, isTick, closed, Bool.not_true, Bool.false_eq_true, if_false]
  cases tick : (LogLine.text line).isTick with
  | true =>
    rw [tick, if_pos rfl] at fate
    refine ⟨⟨by simp [timed, ordinary, ← isClosed], fun _ => empty⟩, ?_⟩
    simp [outlook, fate, ordinary, Nat.add_assoc]
  | false =>
    rw [tick, if_neg Bool.false_ne_true] at fate
    refine ⟨⟨by simp [timed, ordinary, ← isClosed], fun _ => empty⟩, ?_⟩
    simp [outlook, empty, fate, ordinary, PlacedLine.text?, jobText?, isDamaged]

end Steps

/-- Following a read over a line, the outlook stays the same. -/
theorem foreseen_step {before : Nat} (behind : Behind settings before schedule) (line : LogLine)
    (number : Nat) (lines : List LogLine) :
    Foreseen settings before number line lines schedule
      (schedule.step settings (line, number)) := by
  cases line with
  | damaged raw cause => exact foreseen_damaged behind raw cause
  | text line =>
    cases timed : settings.timedRange with
    | false => exact foreseen_untimed behind timed
    | true =>
      cases marked : (LogLine.text line).isMarker with
      | true => exact foreseen_marker behind timed marked
      | false =>
        cases opened : schedule.rangeOpen with
        | true => exact foreseen_inside behind timed marked opened
        | false => exact foreseen_outside behind timed marked opened

/-- Following a read to its end, the outlook stays the same. -/
theorem outlook_foldl (lines : List LogLine) {before : Nat} (number : Nat)
    (behind : Behind settings before schedule) :
    Behind settings (before + markers lines)
        ((lines.zipIdx number).foldl (step settings) schedule) ∧
      ((lines.zipIdx number).foldl (step settings) schedule).outlook settings
          (number + lines.length) (before + markers lines) [] =
        schedule.outlook settings number before lines := by
  induction lines generalizing schedule number before with
  | nil => exact ⟨behind, rfl⟩
  | cons line lines inductionHypothesis =>
    obtain ⟨onward, same⟩ := foreseen_step behind line number lines
    rw [List.zipIdx_cons, List.foldl_cons, markers_cons, List.length_cons, ← same]
    have remaining := inductionHypothesis (number + 1) onward
    rw [Nat.add_assoc, Nat.add_comm line.isMarker.toNat, Nat.add_assoc number,
      Nat.add_comm 1] at remaining
    exact remaining

/-- The schedule of a whole log holds its lines by their places among the markers. -/
theorem foldl_step (settings : ReaderSettings) (lines : List LogLine) :
    let schedule := (lines.zipIdx 1).foldl (step settings) {}
    let placed := PlacedLine.listFrom 1 0 lines
    schedule.jobs.filterMap jobText? = handedOver settings lines ∧
      schedule.held = (unclosed settings lines).reverse ∧
      schedule.rangeOpen = (settings.timedRange && settings.opensBehind (markers lines)) ∧
      schedule.jobs.countP isDamaged = PlacedLine.count settings .recorded placed ∧
      schedule.filtered = PlacedLine.count settings .filtered placed := by
  obtain ⟨behind, same⟩ := outlook_foldl lines 1 (behind_empty settings)
  rw [outlook_nil, outlook_empty, Outlook.mk.injEq] at same
  obtain ⟨handed, waiting, recorded, filtered⟩ := same
  rw [Nat.zero_add] at behind
  refine ⟨handed, ?_, behind.rangeOpen, recorded, filtered⟩
  rw [unclosed, ← waiting, List.reverse_reverse]

/-- Pairwise ranges: the ticks between two markers are handed over, and elsewhere all lines but
the ticks. -/
example :
    let settings : ReaderSettings := { timedRange := true, pairwiseTimedRange := true }
    let lines := ["tick,1", "current-time,1", "tick,2", "current-time,2", "tick,3", "code"]
    handedOver settings (lines.map .text) = [(3, "tick,2"), (6, "code")] := by
  decide

/-- Where all lines are text, the scheduled lines are lines of text under their numbers. -/
theorem jobs_eq {jobs : List (LogLine × Nat)} (texts : jobs.countP isDamaged = 0) :
    jobs = (jobs.filterMap jobText?).map heldJob := by
  induction jobs with
  | nil => rfl
  | cons job jobs inductionHypothesis =>
    obtain ⟨_ | _, number⟩ := job
    · have others : jobs.countP isDamaged = 0 := by
        simpa [isDamaged, jobText?] using texts
      rw [List.filterMap_cons_some (f := jobText?) (b := (number, _)) rfl, List.map_cons,
        ← inductionHypothesis others]
      rfl
    · simp [isDamaged, jobText?] at texts

end Schedule

/-- No line of text is put on record as none. -/
theorem PlacedLine.count_recorded_texts (settings : ReaderSettings) (lines : List String)
    (number before : Nat) :
    count settings .recorded (listFrom number before (lines.map .text)) = 0 := by
  induction lines generalizing number before with
  | nil => rfl
  | cons line lines inductionHypothesis =>
    have other :
        fate settings ⟨.text line, number, before, markers (lines.map .text)⟩ ≠ .recorded := by
      grind [fate_text]
    rw [List.map_cons, listFrom, count_cons, if_neg other, inductionHypothesis]

namespace LogReader

variable {Sink : Type}

/-- With timed ranges, a read that is not cancelled hands over the lines that count by their
places among the markers, in their order and under their numbers, and comes to what these
come to. -/
theorem processLines_timed (table : RecordTable Sink) (pairwise : Bool) (sink : Sink)
    (lines : List String) :
    let settings : ReaderSettings := { timedRange := true, pairwiseTimedRange := pairwise }
    let reader : LogReader Sink := { table, settings }
    let logLines := lines.map LogLine.text
    (handedOver settings logLines).Pairwise (·.1 < ·.1) ∧
    ((∃ fault after, reader.processLines lines { sink } = (.error fault, after) ∧
        fault.isCancellation = true) ∨
      ∃ processed,
        reader.processRange (handedOver settings logLines) { sink } = (.ok (), processed) ∧
        reader.processLines lines { sink } = (.ok (),
          processed.withProgress
            { lineNumber := lines.length
              rangeOpen := settings.opensBehind (markers logLines)
              rangeLines := (unclosed settings logLines).reverse
              lines := lines.length
              filtered :=
                PlacedLine.count settings .filtered (PlacedLine.listFrom 1 0 logLines) })) := by
  intro settings reader logLines
  refine ⟨PlacedLine.pairwise_texts settings .handedOver logLines 1 0, ?_⟩
  obtain ⟨handed, waiting, isOpen, recorded, filtered⟩ := Schedule.foldl_step settings logLines
  rw [processLines_eq]
  refine (reader.processLogLines_cases sink logLines).imp id ?_
  rintro ⟨after, read, processed, followed, rfl⟩
  have texts := Schedule.jobs_eq
    (recorded.trans (PlacedLine.count_recorded_texts settings lines 1 0))
  rw [texts, handed] at followed
  rw [← processRange_eq_processJobs] at followed
  refine ⟨processed, followed, read.trans ?_⟩
  rw [Bool.true_and] at isOpen
  rw [Schedule.progress, waiting, isOpen, filtered, List.length_map]

end LogReader

end JitTrace
