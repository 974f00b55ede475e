import JitTrace.Proofs.Line.Calls

/-!
# Cancellation

A read that is cancelled takes no further line, and a handler that cancels it is the last one
that is called. To tell which handlers a call reaches, they are watched: they do what they did
before and write down that they were called. Watching them changes nothing else.
-/

namespace JitTrace

variable {Sink : Type}

/-! ## Watching handlers -/

/-- A handler was called, and came back with a result. -/
structure Invocation where
  arguments : Arguments
  result : Except Fault Unit

/-- Write down each call of a handler, the latest last. -/
def watchedHandler (handler : Handler Sink) : Handler (Sink × List Invocation) :=
  fun arguments sink =>
    let reaction := handler arguments sink.1
    { result := reaction.result
      sink := (reaction.sink, sink.2 ++ [⟨arguments, reaction.result⟩])
      cancels := reaction.cancels }

def RecordSpec.watched (record : RecordSpec Sink) : RecordSpec (Sink × List Invocation) where
  name := record.name
  layout := record.layout
  handler := watchedHandler record.handler

def RecordTable.watched (table : RecordTable Sink) : RecordTable (Sink × List Invocation) where
  records := table.records.map (·.watched)

/-- The same reader, with handlers that are watched. -/
def LogReader.watched (reader : LogReader Sink) : LogReader (Sink × List Invocation) where
  table := reader.table.watched
  settings := reader.settings

namespace Reading

/-- The same read on another sink. -/
def withSink {Other : Type} (reading : Reading Sink) (sink : Other) : Reading Other :=
  { reading with sink }

/-- A read whose handlers are watched from now on. -/
def watched (reading : Reading Sink) : Reading (Sink × List Invocation) :=
  reading.withSink (reading.sink, [])

/-- A read whose handlers were watched. -/
def unwatched (reading : Reading (Sink × List Invocation)) : Reading Sink :=
  reading.withSink reading.sink.1

/-- The handlers that have been called while they were watched. -/
def log (reading : Reading (Sink × List Invocation)) : List Invocation :=
  reading.sink.2

@[simp] theorem unwatched_watched (reading : Reading Sink) :
    reading.watched.unwatched = reading := rfl

end Reading

/-- An outcome of watched handlers. -/
def ReadOutcome.unwatched (outcome : ReadOutcome (Sink × List Invocation)) : ReadOutcome Sink :=
  (outcome.1, outcome.2.unwatched)

namespace RecordTable

variable (table : RecordTable Sink) (tokens : List String) (cancelled : Bool)
  (sink : Sink × List Invocation)

theorem find?_watched (name : String) :
    table.watched.find? name = (table.find? name).map (·.watched) := by
  rw [find?, watched, List.find?_map]
  rfl

/-- Watching the handler of a line changes nothing else. -/
theorem dispatch_unwatched : table.dispatch tokens cancelled sink.1 =
    { result := (table.watched.dispatch tokens cancelled sink).result
      sink := (table.watched.dispatch tokens cancelled sink).sink.1
      cancels := (table.watched.dispatch tokens cancelled sink).cancels } := by
  cases tokens with
  | nil => rfl
  | cons command fields =>
    simp only [dispatch, find?_watched]
    cases table.find? command with
    | none => rfl
    | some record =>
      dsimp only [Option.map_some, RecordSpec.watched]
      cases record.layout.read command fields cancelled <;> rfl

/-- A line calls no handler, or the one of its record. -/
theorem log_dispatch : (table.watched.dispatch tokens cancelled sink).sink.2 = sink.2 ∨
    ∃ invocation, (table.watched.dispatch tokens cancelled sink).sink.2 = sink.2 ++ [invocation] ∧
      (table.watched.dispatch tokens cancelled sink).result =
        invocation.result.map fun _ => true := by
  cases tokens with
  | nil => exact .inl rfl
  | cons command fields =>
    simp only [dispatch, find?_watched]
    cases table.find? command with
    | none => exact .inl rfl
    | some record =>
      dsimp only [Option.map_some, RecordSpec.watched]
      cases record.layout.read command fields cancelled with
      | error fault => exact .inl rfl
      | ok arguments => exact .inr ⟨_, rfl, rfl⟩

end RecordTable

namespace LogReader

section Unwatched

variable (reader : LogReader Sink) (reading : Reading (Sink × List Invocation))

/-- Watching the handler of a line changes nothing else about processing it. -/
theorem processNow_unwatched (number : Nat) (line : String) :
    reader.processNow number line reading.unwatched =
      ReadOutcome.unwatched (reader.watched.processNow number line reading) := by
  simp only [processNow]
  split
  · rfl
  · cases Line.fields line with
    | error fault => rfl
    | ok tokens =>
      have same := reader.table.dispatch_unwatched tokens reading.cancelled reading.sink
      dsimp only [Reading.unwatched, Reading.withSink, watched]
      rw [same]
      cases (reader.table.watched.dispatch tokens reading.cancelled reading.sink).result with
      | ok known => cases known <;> rfl
      | error fault =>
        dsimp only
        split <;> rfl

theorem processRange_unwatched (lines : List (Nat × String)) :
    reader.processRange lines reading.unwatched =
      ReadOutcome.unwatched (reader.watched.processRange lines reading) := by
  induction lines generalizing reading with
  | nil => rfl
  | cons line lines inductionHypothesis =>
    rw [processRange, processRange, processNow_unwatched]
    change (if reading.cancelled then _ else _) = _
    split
    · rfl
    · rcases reader.watched.processNow line.1 line.2 reading with ⟨_ | _, between⟩
      · rfl
      · exact inductionHypothesis between

theorem processMarker_unwatched : reader.processMarker reading.unwatched =
    ReadOutcome.unwatched (reader.watched.processMarker reading) := by
  have ranged : reader.processRange reading.unwatched.rangeLines.reverse
      { reading.unwatched with rangeLines := [] } =
        ReadOutcome.unwatched (reader.watched.processRange reading.rangeLines.reverse
          { reading with rangeLines := [] }) :=
    reader.processRange_unwatched { reading with rangeLines := [] } reading.rangeLines.reverse
  rw [processMarker, processMarker, ranged]
  change (if reading.rangeOpen then _ else _) = _
  split
  · rcases reader.watched.processRange reading.rangeLines.reverse { reading with rangeLines := [] }
      with ⟨_ | _, between⟩ <;> rfl
  · rfl

theorem processLogLine_unwatched (line : LogLine) : reader.processLogLine line reading.unwatched =
    ReadOutcome.unwatched (reader.watched.processLogLine line reading) := by
  cases line with
  | damaged raw cause =>
    simp only [processLogLine, recordUndecodable]
    change (if reading.cancelled then _ else _) = _
    split <;> rfl
  | text line =>
    have now := reader.processNow_unwatched (countLine reading) (reading.lineNumber + 1) line
    have marked := reader.processMarker_unwatched (countLine reading)
    simp only [processLogLine, processLine]
    change (if reading.cancelled then _ else if !reader.settings.timedRange then _
      else if _ then _ else if reading.rangeOpen then _ else _) = ReadOutcome.unwatched
        (if reading.cancelled then _ else if !reader.settings.timedRange then _
          else if _ then _ else if reading.rangeOpen then _ else _)
    split
    · rfl
    split
    · exact now
    split
    · exact marked
    split
    · rfl
    split
    · rfl
    · exact now

theorem processLogLines_unwatched (lines : List LogLine) :
    reader.processLogLines lines reading.unwatched =
      ReadOutcome.unwatched (reader.watched.processLogLines lines reading) := by
  induction lines generalizing reading with
  | nil => rfl
  | cons line lines inductionHypothesis =>
    rw [processLogLines, processLogLines, processLogLine_unwatched]
    rcases reader.watched.processLogLine line reading with ⟨_ | _, between⟩
    · rfl
    · exact inductionHypothesis between

/-- Watching the handlers that a call reaches changes nothing else. -/
theorem perform_unwatched (call : ReadCall) : reader.perform call reading.unwatched =
    ReadOutcome.unwatched (reader.watched.perform call reading) := by
  cases call with
  | line text => exact reader.processLogLine_unwatched reading (.text text)
  | chunk text =>
    have lines : ∀ texts, reader.processLines texts { reading.unwatched with heldBack := [] } =
        ReadOutcome.unwatched (reader.watched.processLines texts
          { reading with heldBack := [] }) := by
      intro texts
      rw [processLines_eq, processLines_eq]
      exact reader.processLogLines_unwatched { reading with heldBack := [] } _
    have heldBack : reading.unwatched.heldBack = reading.heldBack := rfl
    simp only [perform, processChunk, lines, heldBack]
    rcases reader.watched.processLines
      (((reading.heldBack ++ text.toList).splitOn '\n').dropLast.map String.ofList)
      { reading with heldBack := [] } with ⟨_ | _, after⟩ <;> rfl
  | finish =>
    simp only [perform, finish]
    change (if reading.heldBack.isEmpty then _ else _) = _
    split
    · rfl
    · exact reader.processLogLine_unwatched { reading with heldBack := [] }
        (.text (String.ofList reading.heldBack))
  | bytes log =>
    rw [perform, perform, processBytes, processBytes, processByteLines_eq, processByteLines_eq]
    exact reader.processLogLines_unwatched reading _

end Unwatched

/-! ## Handlers that cancel -/

section Cancelling

variable {reader : LogReader Sink} {reading : Reading (Sink × List Invocation)}

/-- What processing a line writes down is at most one call of a handler. If the handler
cancels, processing the line ends with that, and puts nothing on record. -/
structure Logged (reading : Reading (Sink × List Invocation))
    (outcome : ReadOutcome (Sink × List Invocation)) (logged : List Invocation) : Prop where
  log : outcome.2.log = reading.log ++ logged
  cancelled : ∀ invocation ∈ logged, invocation.result = .error .cancelled →
    logged = [invocation] ∧ outcome.1 = .error .cancelled ∧
      outcome.2.failures = reading.failures

theorem Logged.none {outcome : ReadOutcome (Sink × List Invocation)}
    (same : outcome.2.log = reading.log) : Logged reading outcome [] :=
  ⟨by rw [same, List.append_nil], fun _ listed => absurd listed List.not_mem_nil⟩

/-- Processing a line leaves the sink to the handler, and stops when that asks for it. -/
theorem processNow_dispatched {Sink : Type} (reader : LogReader Sink) (reading : Reading Sink)
    (number : Nat) {line : String} {tokens : List String}
    (filled : (Text.trim line.toList).isEmpty = false) (fields : Line.fields line = .ok tokens) :
    (reader.processNow number line reading).2.sink =
        (reader.table.dispatch tokens reading.cancelled reading.sink).sink ∧
      ((reader.table.dispatch tokens reading.cancelled reading.sink).result = .error .cancelled →
        (reader.processNow number line reading).1 = .error .cancelled ∧
          (reader.processNow number line reading).2.failures = reading.failures) := by
  simp only [processNow, filled, fields]
  cases (reader.table.dispatch tokens reading.cancelled reading.sink).result with
  | ok known => cases known <;> exact ⟨rfl, by simp⟩
  | error fault =>
    cases fault with
    | cancelled => exact ⟨rfl, fun _ => ⟨rfl, rfl⟩⟩
    | _ => exact ⟨rfl, by simp⟩

variable (reader) (reading)

theorem exists_logged_processNow (number : Nat) (line : String) :
    ∃ logged, Logged reading (reader.watched.processNow number line reading) logged := by
  cases filled : (Text.trim line.toList).isEmpty with
  | true => exact ⟨[], .none (by rw [processNow, if_pos filled])⟩
  | false =>
    cases fields : Line.fields line with
    | error fault => exact ⟨[], .none (by simp only [processNow, filled, fields]; rfl)⟩
    | ok tokens =>
      obtain ⟨sink, stops⟩ := processNow_dispatched reader.watched reading number filled fields
      rcases reader.table.log_dispatch tokens reading.cancelled reading.sink with
        same | ⟨invocation, log, result⟩
      · exact ⟨[], .none ((congrArg Prod.snd sink).trans same)⟩
      · refine ⟨[invocation], (congrArg Prod.snd sink).trans log, fun other inside cancels => ?_⟩
        obtain rfl := List.mem_singleton.mp inside
        exact ⟨rfl, stops (result.trans (by rw [cancels]; rfl))⟩

/-- A damaged line is handed to no handler. -/
theorem exists_logged_processJob (job : LogLine × Nat) :
    ∃ logged, Logged reading (reader.watched.processJob job reading) logged ∧
      (logged ≠ [] → ∃ line, job.1 = .text line) := by
  obtain ⟨line | ⟨raw, cause⟩, number⟩ := job
  · obtain ⟨logged, same⟩ := reader.exists_logged_processNow reading number line
    exact ⟨logged, same, fun _ => ⟨line, rfl⟩⟩
  · exact ⟨[], .none rfl, fun nonempty => absurd rfl nonempty⟩

/-- A handler cancelled the processing of lines, when it was called for one of them. The lines in
front of that one had been processed, and no other handler was called. -/
structure CutShort (reader : LogReader Sink) (jobs : List (LogLine × Nat))
    (reading : Reading (Sink × List Invocation)) (before : List Invocation)
    (invocation : Invocation) (failures : Array LineFailure) : Prop where
  exists_line : ∃ (done pending : List (LogLine × Nat)) (line : String) (number : Nat)
    (between : Reading (Sink × List Invocation)),
    jobs = done ++ (.text line, number) :: pending ∧
      reader.watched.processJobs done reading = (.ok (), between) ∧
      between.log = reading.log ++ before ∧
      (reader.watched.processNow number line between).2.log =
        reading.log ++ before ++ [invocation] ∧
      failures = between.failures

/-- An item of two lists together that the first one lacks splits the second one. -/
theorem exists_append_of_notMem {Item : Type} {first others before later : List Item} {item : Item}
    (split : first ++ others = before ++ item :: later) (lacks : item ∉ first) :
    ∃ front, before = first ++ front ∧ others = front ++ item :: later := by
  rcases List.append_eq_append_iff.mp split with ⟨front, rfl, behind⟩ | ⟨back, rfl, ahead⟩
  · exact ⟨front, rfl, behind⟩
  · cases back with
    | nil => exact ⟨[], by simp, by simpa using ahead.symm⟩
    | cons other back =>
      obtain rfl : item = other := (List.cons.inj ahead).1
      exact absurd (by simp) lacks

theorem exists_logged_processJobs (jobs : List (LogLine × Nat)) :
    ∃ logged, (reader.watched.processJobs jobs reading).2.log = reading.log ++ logged ∧
      ∀ before invocation later, logged = before ++ invocation :: later →
        invocation.result = .error .cancelled →
          later = [] ∧ (reader.watched.processJobs jobs reading).1 = .error .cancelled ∧
            reader.CutShort jobs reading before invocation
              (reader.watched.processJobs jobs reading).2.failures := by
  induction jobs generalizing reading with
  | nil => exact ⟨[], by rw [processJobs, List.append_nil], by simp⟩
  | cons job jobs inductionHypothesis =>
    cases going : reading.cancelled with
    | true => exact ⟨[], by rw [processJobs, if_pos going, List.append_nil], by simp⟩
    | false =>
      obtain ⟨first, ⟨log, cancelled⟩, isText⟩ := reader.exists_logged_processJob reading job
      simp only [processJobs, going, Bool.false_eq_true, if_false]
      cases outcome : reader.watched.processJob job reading with
      | mk result between =>
        rw [outcome] at log cancelled
        cases result with
        | error fault =>
          refine ⟨first, log, ?_⟩
          rintro before invocation later rfl cancels
          obtain ⟨single, ended, failures⟩ := cancelled invocation (by simp) cancels
          obtain ⟨line, isLine⟩ := isText (by simp)
          obtain ⟨rfl, rfl⟩ : before = [] ∧ later = [] := by
            rcases List.append_eq_singleton_iff.mp single with ⟨isFirst, isLast⟩ | ⟨-, isEmpty⟩
            · exact ⟨isFirst, (List.cons.inj isLast).2⟩
            · cases isEmpty
          obtain ⟨_, number⟩ := job
          obtain rfl : _ = LogLine.text line := isLine
          refine ⟨rfl, ended, [], jobs, line, number, reading, rfl, rfl,
            by rw [List.append_nil], ?_, failures⟩
          change (reader.watched.processJob (.text line, number) reading).2.log = _
          rw [outcome, List.append_nil]
          exact log
        | ok _ =>
          obtain ⟨others, othersLog, othersCancelled⟩ := inductionHypothesis between
          refine ⟨first ++ others, by rw [othersLog, log, List.append_assoc], ?_⟩
          intro before invocation later split cancels
          -- The line went on, so its handler, if any, did not cancel.
          have calm : invocation ∉ first := fun inside => by
            cases (cancelled invocation inside cancels).2.1
          obtain ⟨front, rfl, behind⟩ := exists_append_of_notMem split calm
          obtain ⟨rfl, ended, done, pending, line, number, last, rfl, processed, logged, called,
            failures⟩ := othersCancelled front invocation later behind cancels
          rw [log] at logged called
          refine ⟨rfl, ended, job :: done, pending, line, number, last, rfl, ?_, ?_, ?_, failures⟩
          · rw [processJobs, going, if_neg Bool.false_ne_true, outcome]
            exact processed
          · rw [logged, List.append_assoc]
          · rw [called, List.append_assoc reading.log]

end Cancelling

/-- The handlers that a call reaches. -/
def invocations (reader : LogReader Sink) (call : ReadCall) (reading : Reading Sink) :
    List Invocation :=
  (reader.watched.perform call reading.watched).2.log

/-- No call swallows a cancellation. -/
structure KeepsCancellation (reader : LogReader Sink) (call : ReadCall)
    (reading : Reading Sink) : Prop where
  /-- Watching the handlers that are called changes nothing else. -/
  watched : reader.perform call reading =
    ReadOutcome.unwatched (reader.watched.perform call reading.watched)
  /-- A read that is cancelled takes no line. -/
  refused : reading.cancelled = true → call.ReachesLine reading.heldBack →
    (reader.perform call reading).1 = .error .cancelled ∧
      (reader.perform call reading).2.sink = reading.sink ∧
      (reader.perform call reading).2.failures = reading.failures ∧
      (reader.perform call reading).2.counts = reading.counts ∧
      reader.invocations call reading = []
  /-- A handler that cancels is the last one that the call reaches, and its line is not put on
  record. -/
  stopped : ∀ before invocation later,
    reader.invocations call reading = before ++ invocation :: later →
      invocation.result = .error .cancelled →
        later = [] ∧ (reader.perform call reading).1 = .error .cancelled ∧
          reader.CutShort (due reader.settings (call.lines reading.heldBack) reading)
            reading.watched before invocation (reader.perform call reading).2.failures

/-- Whatever the handlers of its table do, a reader keeps cancellations. -/
theorem cancellation_kept (reader : LogReader Sink) (call : ReadCall) (reading : Reading Sink) :
    reader.KeepsCancellation call reading := by
  have same := reader.perform_unwatched reading.watched call
  rw [Reading.unwatched_watched] at same
  refine ⟨same, fun cancelled reaches => ?_, fun before invocation later split cancels => ?_⟩
  · obtain ⟨heldBack, performed⟩ := reader.exists_perform_cancelled cancelled reaches
    have cancelledThere : reading.watched.cancelled = true := cancelled
    obtain ⟨_, watched⟩ := reader.watched.exists_perform_cancelled cancelledThere reaches
    rw [performed, invocations, watched]
    exact ⟨rfl, rfl, rfl, rfl, rfl⟩
  · obtain ⟨ledger, cutShort⟩ := reader.watched.perform_due call reading.watched
    obtain ⟨logged, log, cancelled⟩ := reader.exists_logged_processJobs reading.watched
      (due reader.settings (call.lines reading.heldBack) reading)
    have loggedThere : reader.invocations call reading = logged :=
      (congrArg (·.sink.2) ledger).trans log
    obtain ⟨isLast, ended, short⟩ :=
      cancelled before invocation later (loggedThere.symm.trans split) cancels
    have failures : (reader.perform call reading).2.failures =
        (reader.watched.processJobs (due reader.settings (call.lines reading.heldBack) reading)
          reading.watched).2.failures := by
      rw [same]
      exact congrArg (·.failures) ledger
    rw [failures]
    exact ⟨isLast, by rw [same]; exact cutShort _ ended, short⟩

/-- The lines of a timed range behind one whose handler cancels reach no handler, and neither do
those behind the range. -/
example :
    let records : List (RecordSpec Nat) :=
      [{ name := "go", layout := []
         handler := fun _ count => { result := .ok (), sink := count + 1 } },
        { name := "stop", layout := []
          handler := fun _ count => { result := .error .cancelled, sink := count } }]
    let reader : LogReader Nat := ⟨⟨records⟩, { timedRange := true }⟩
    let call := ReadCall.chunk "current-time\ngo\nstop\ngo\ncurrent-time\ngo\n"
    (reader.invocations call { sink := 0 }).map (·.arguments.command) = ["go", "stop"] := by
  decide +kernel

end LogReader

end JitTrace
