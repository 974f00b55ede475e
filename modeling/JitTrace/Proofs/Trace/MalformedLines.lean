import JitTrace.Proofs.Line.Deletion
import JitTrace.Proofs.Profile.Circles
import JitTrace.Proofs.Trace.Table

/-!
# Malformed lines of a log

A line that fails has no effect but its record among the failures and its number: reading
the log without such lines teaches the analyzer the same, whichever parts of the log count.
That is so of the logs whose reading ends. It does not end at a tick on calls that stand in
one another in a circle, and no line has to be malformed for that.
-/

namespace JitTrace

namespace Profile

/-- Two profiles hold the same, whatever the shapes of the indices of their code maps. -/
structure SameContents (left right : Profile) : Prop where
  dynamics : right.codeMap.dynamics.toList = left.codeMap.dynamics.toList
  statics : right.codeMap.statics.toList = left.codeMap.statics.toList
  libraries : right.codeMap.libraries.toList = left.codeMap.libraries.toList
  /-- The profiles are equal but for these three indices: in call tree, samples, counters,
  native entries, unknown code, scripts, code entries and all else. -/
  rest : right =
    { left with
      codeMap :=
        { left.codeMap with
          dynamics := right.codeMap.dynamics
          statics := right.codeMap.statics
          libraries := right.codeMap.libraries } }

theorem Alike.sameContents {left right : Profile} (alike : Alike left right) :
    SameContents left right where
  dynamics := alike.codeMap.dynamics.toList_eq
  statics := alike.codeMap.statics.toList_eq
  libraries := alike.codeMap.libraries.toList_eq
  rest := by
    obtain ⟨codeMap, rfl⟩ := alike.exists_eq
    obtain ⟨arena, dynamics, statics, libraries, pages, names⟩ := codeMap
    obtain ⟨sameArena, _, _, _, samePages, sameNames⟩ := alike.codeMap
    dsimp only at sameArena samePages sameNames
    rw [sameArena, samePages, sameNames]

/-- A new profile has valid indices. -/
theorem alike_new (settings : ProfileSettings) :
    Alike (Profile.new settings ScriptProvider.none)
      (Profile.new settings ScriptProvider.none) := by
  have detached := CodeMap.alike_empty.foldl_addDetached
    (PseudoFunction.all.map fun function => CodeEntry.pseudo function.label)
  rw [List.foldl_map] at detached
  exact ⟨detached, rfl, rfl⟩

end Profile

/-- Two reads have come to the same: what has been learnt, what it is concluded to, and how
many lines went which way. -/
structure Reading.SameOutcome (left right : Reading Analyzer) : Prop where
  profile : left.sink.profile.SameContents right.sink.profile
  events : right.sink.events = left.sink.events
  version : right.sink.version = left.sink.version
  concluded : (Analysis.ofReading left).profile.SameContents (Analysis.ofReading right).profile
  dispatched : right.counts.dispatched = left.counts.dispatched
  unknown : right.counts.unknown = left.counts.unknown
  filtered : right.counts.filtered = left.counts.filtered

namespace Analyzer

theorem alike_new {settings : Settings} {analyzer : Analyzer}
    (isNew : Analyzer.new settings {} = .ok analyzer) : analyzer.Alike analyzer := by
  simp only [Analyzer.new] at isNew
  cases forced : settings.versionOverride with
  | error fault => simp [forced] at isNew
  | ok version =>
    simp only [forced, Except.ok.injEq] at isNew
    subst isNew
    exact ⟨Profile.alike_new settings.profile, rfl, rfl⟩

/-- Analyzers that are alike conclude alike. -/
theorem sameOutcome_of_cleared {left right : Reading Analyzer}
    (cleared : left.ledger.Cleared Analyzer.Alike right.ledger)
    (filtered : right.counts.filtered = left.counts.filtered) : left.SameOutcome right := by
  have alike : left.sink.Alike right.sink := cleared.sink
  have events : right.sink.events = left.sink.events := by rw [alike.rest]
  have version : right.sink.version = left.sink.version := by rw [alike.rest]
  obtain ⟨_, first, second, onLeft, onRight, finalized⟩ := alike.profile.finalize
  refine ⟨alike.profile.sameContents, events, version, ?_, cleared.dispatched, cleared.unknown,
    filtered⟩
  simp only [Analysis.ofReading, onLeft, onRight]
  exact finalized.sameContents

end Analyzer

/-! ## Reads that end -/

/-- The source mapping that an event attaches to code. -/
def TraceEvent.Maps (event : TraceEvent) (source : SourceInfo) : Prop :=
  match event with
  | .sourcePositions start record => (Profile.Request.addSourcePositions start record).Maps source
  | _ => False

/-- The source mapping that a line has attached to code, in whichever version it is read. -/
def LogLine.Maps (line : LogLine) (source : SourceInfo) : Prop :=
  ∃ text command fields version, ∃ event : TraceEvent, line = .text text ∧
    Line.fields text = .ok (command :: fields) ∧ event.SaidBy version command fields ∧
    event.Maps source

/-- Reading the log with the analyzer ends, and this is its outcome. -/
structure LogReader.ReadsTo (reader : LogReader Analyzer) (bytes : List UInt8)
    (analyzer : Analyzer) (outcome : ReadOutcome Analyzer) : Prop where
  result : reader.processBytes bytes { sink := analyzer } = outcome
  ends : outcome.2.sink.profile.endless = false

namespace Analyzer

variable {analyzer : Analyzer}

/-- What is done after a success leaves no circle if it leaves none on its own. -/
theorem circleless_andThen {outcome : Outcome} {next : Analyzer → Outcome}
    (circleless : outcome.2.profile.Circleless)
    (going : ∀ {after : Analyzer}, after.profile.Circleless →
      (next after).2.profile.Circleless) :
    Profile.Circleless (match outcome with
      | (.error fault, after) => ((.error fault, after) : Outcome)
      | (.ok (), after) => next after).2.profile := by
  obtain ⟨_ | _, after⟩ := outcome
  · exact circleless
  · exact going circleless

theorem circleless_addSymbols (circleless : analyzer.profile.Circleless)
    (symbols : List LibrarySymbol) : (analyzer.addSymbols symbols).2.profile.Circleless := by
  induction symbols generalizing analyzer with
  | nil => exact circleless
  | cons symbol symbols inductionHypothesis =>
    have placed : (analyzer.changeProfile
        (·.addStaticCode symbol.name symbol.start symbol.stop)).2.profile.Circleless :=
      circleless.perform_ordinary (.addStaticCode symbol.name symbol.start symbol.stop) rfl
    rw [addSymbols]
    split <;> rename_i outcome <;> rw [outcome] at placed
    · exact inductionHypothesis placed
    · exact placed

theorem circleless_addLibrary (circleless : analyzer.profile.Circleless) (name : String)
    (start stop : UInt64) : (analyzer.addLibrary name start stop).2.profile.Circleless := by
  have added : (analyzer.changeProfile (·.addLibrary name start stop)).2.profile.Circleless :=
    circleless.perform_ordinary (.addLibrary name start stop) rfl
  refine circleless_andThen added fun {after} placed => ?_
  cases after.symbols name with
  | error fault => exact placed
  | ok symbols => exact circleless_addSymbols placed _

/-- An event that attaches no circle leaves none. -/
theorem circleless_apply (circleless : analyzer.profile.Circleless) {event : TraceEvent}
    (attaches : ∀ source, event.Maps source → source.Circleless) :
    (analyzer.apply event).2.profile.Circleless := by
  cases event with
  | version version =>
    rw [apply]
    split <;> exact circleless
  | library name start stop => exact circleless_addLibrary circleless name start stop
  | code creation => exact circleless.perform_ordinary (.addCode creation) rfl
  | functionCode creation address state =>
    exact circleless.perform_ordinary (.addFunctionCode creation address state) rfl
  | moveCode source target => exact circleless.perform_ordinary (.moveCode source target) rfl
  | deleteCode start => exact circleless.perform_ordinary (.deleteCode start) rfl
  | moveFunction source target =>
    exact circleless.perform_ordinary (.moveFunction source target) rfl
  | sourcePositions start record =>
    exact circleless.perform (.addSourcePositions start record) attaches
  | scriptSource id url text => exact circleless.perform_ordinary (.addScriptSource id url text) rfl
  | scriptDetails id url => exact circleless.perform_ordinary (.addScriptDetails id url) rfl
  | deopt event =>
    have reasoned : (analyzer.changeProfile
        (·.addDeoptReason event.code event.reason)).2.profile.Circleless :=
      circleless.perform_ordinary (.addDeoptReason event.code event.reason) rfl
    exact circleless_andThen reasoned fun noted => noted
  | disableOptimization name reason =>
    have disabled : (analyzer.changeProfile
        (·.disableOptimization name reason)).2.profile.Circleless :=
      circleless.perform_ordinary (.disableOptimization name reason) rfl
    exact circleless_andThen disabled fun noted => noted
  | ic | mapUpdate | mapTransition => exact circleless
  | tick tick => exact circleless.perform_ordinary (.recordTick tick) rfl
  | timer => exact circleless

/-- A line that attaches no circle leaves none. -/
theorem circleless_judge {reader : LogReader Analyzer}
    (understood : ∀ spec ∈ reader.table.records, spec.Understood)
    (circleless : analyzer.profile.Circleless) {line : LogLine}
    (attaches : ∀ source, line.Maps source → source.Circleless) :
    (reader.judge line analyzer).2.profile.Circleless := by
  cases line with
  | damaged raw cause => exact circleless
  | text text =>
    simp only [LogReader.judge]
    split
    · exact circleless
    · cases told : Line.fields text with
      | error fault => exact circleless
      | ok tokens =>
        have dispatched :
            (reader.table.dispatch tokens false analyzer).sink.profile.Circleless := by
          cases tokens with
          | nil => exact circleless
          | cons command fields =>
            rcases RecordTable.dispatch_cases understood command fields analyzer with
              ⟨same, -⟩ | ⟨event, said, applied, -⟩
            · rw [same]
              exact circleless
            · rw [applied]
              exact circleless_apply circleless fun source maps =>
                attaches source ⟨text, command, fields, _, event, rfl, told, said, maps⟩
        dsimp only
        split <;> exact dispatched

/-- So do lines one after the other. -/
theorem circleless_foldl {reader : LogReader Analyzer}
    (understood : ∀ spec ∈ reader.table.records, spec.Understood) {ledger : Ledger Analyzer}
    (circleless : ledger.sink.profile.Circleless) {jobs : List (LogLine × Nat)}
    (attaches : ∀ job ∈ jobs, ∀ source, job.1.Maps source → source.Circleless) :
    (jobs.foldl reader.settle ledger).sink.profile.Circleless := by
  induction jobs generalizing ledger with
  | nil => exact circleless
  | cons job jobs inductionHypothesis =>
    refine inductionHypothesis ?_ fun later inside => attaches later (List.mem_cons_of_mem _ inside)
    rw [LogReader.sink_settle]
    exact circleless_judge understood circleless (attaches job List.mem_cons_self)

theorem circleless_new {settings : Settings} (isNew : Analyzer.new settings {} = .ok analyzer) :
    analyzer.profile.Circleless := by
  rw [Analyzer.new] at isNew
  split at isNew
  · contradiction
  · obtain rfl := Except.ok.inj isNew
    exact .new settings.profile ScriptProvider.none

/-- While no line attaches a circle, reading the log ends. -/
theorem exists_readsTo {reader : LogReader Analyzer}
    (understood : ∀ spec ∈ reader.table.records, spec.Understood)
    (proper : analyzer.Alike analyzer) (circleless : analyzer.profile.Circleless)
    {bytes : List UInt8} (attaches : ∀ raw ∈ LogReader.byteLines bytes, ∀ source,
      (LogLine.decode raw).Maps source → source.Circleless) :
    ∃ outcome, reader.ReadsTo bytes analyzer outcome := by
  obtain ⟨reading, read, follows⟩ := reader.exists_processBytes
    (RecordTable.forgiving_of_understood understood) proper bytes
  let schedule := (LogReader.numberedLines bytes).foldl (Schedule.step reader.settings) {}
  -- Whatever lines were processed, and when, they stand in the log.
  have ofLog : ∀ job ∈ schedule.jobs, ∃ raw ∈ LogReader.byteLines bytes,
      LogLine.decode raw = job.1 := by
    intro job processed
    have entered : job ∈ schedule.entries := List.mem_append_left _ processed
    have numbered := (Schedule.mem_entries_foldl entered).resolve_left List.not_mem_nil
    exact List.mem_map.mp (List.fst_mem_of_mem_zipIdx numbered)
  have came : reading.sink = (schedule.jobs.foldl reader.settle { sink := analyzer }).sink :=
    congrArg Ledger.sink follows.ledger
  refine ⟨_, read, ?_⟩
  rw [came]
  refine (circleless_foldl understood circleless fun job processed source maps => ?_).ends
  obtain ⟨raw, inside, decoded⟩ := ofLog job processed
  exact attaches raw inside source (decoded ▸ maps)

/-- Where reading a log ends, it succeeds, and the log can be read without the lines that fail:
then no line fails, and the outcome is the same. Every line fails at most once. While no line
attaches a circle, reading the log ends. -/
theorem exists_reading_withoutFailures {settings : Settings} {analyzer : Analyzer}
    (isNew : Analyzer.new settings {} = .ok analyzer) (bytes : List UInt8) :
    ∃ reader, Analyzer.reader settings = .ok reader ∧
      ((∀ raw ∈ LogReader.byteLines bytes, ∀ source,
          (LogLine.decode raw).Maps source → source.Circleless) →
        ∃ outcome, reader.ReadsTo bytes analyzer outcome) ∧
      ∀ outcome, reader.ReadsTo bytes analyzer outcome →
        ∃ reading, outcome = (.ok (), reading) ∧
          (reading.failures.toList.map (·.line)).Nodup ∧
          ∃ kept, reader.ReadsTo
              (LogReader.withoutLines (reading.failures.toList.map (·.line)) bytes) analyzer
              (.ok (), kept) ∧
            kept.failures = #[] ∧ reading.SameOutcome kept := by
  obtain ⟨table, isTable, understood⟩ := exists_recordTable
  let reader : LogReader Analyzer := { table, settings := settings.reader }
  have forgiving : reader.table.Forgiving Analyzer.Alike :=
    RecordTable.forgiving_of_understood understood
  have isReader : Analyzer.reader settings = .ok reader := by
    rw [Analyzer.reader, isTable]
    rfl
  refine ⟨reader, isReader,
    exists_readsTo understood (alike_new isNew) (circleless_new isNew), ?_⟩
  rintro outcome ⟨read, ends⟩
  obtain ⟨reading, kept, isRead, readKept, distinct, cleared, filtered⟩ :=
    reader.exists_processBytes_withoutLines forgiving (alike_new isNew) bytes
  obtain rfl : outcome = (.ok (), reading) := read.symm.trans isRead
  have same := sameOutcome_of_cleared cleared filtered
  have keptEnds : kept.sink.profile.endless = false := by
    rw [same.profile.rest]
    exact ends
  exact ⟨reading, rfl, distinct, kept, ⟨readKept, keptEnds⟩, cleared.failures, same⟩

/-- The first line is no text, the second one is blank: the first line fails, and the second
one is left. -/
theorem exists_reading_withoutFailures_damaged :
    ∃ analyzer reader reading kept, Analyzer.new {} {} = .ok analyzer ∧
      Analyzer.reader {} = .ok reader ∧
      reader.ReadsTo [0xff, 10, 10] analyzer (.ok (), reading) ∧
      reading.failures.toList.map (·.line) = [1] ∧
      reader.ReadsTo [10] analyzer (.ok (), kept) ∧
      kept.failures = #[] ∧ reading.SameOutcome kept := by
  have isNew : Analyzer.new {} {} = .ok { profile := Profile.new {} .none } := rfl
  obtain ⟨reader, isReader, ends, cleared⟩ :=
    exists_reading_withoutFailures isNew [0xff, 10, 10]
  have lines : LogReader.byteLines [0xff, 10, 10] = [[0xff], []] := rfl
  have damaged : Text.decodeUtf8 [0xff] = .error ⟨0, some 1⟩ := by
    rw [Text.decodeUtf8, Text.decodeUtf8From]
    rfl
  have blank : Text.decodeUtf8 [] = .ok "" := by
    rw [Text.decodeUtf8, Text.decodeUtf8From]
    rfl
  -- Neither line has a field, so neither says an event.
  have unmapped : ∀ raw ∈ LogReader.byteLines [0xff, 10, 10], ∀ source,
      ¬(LogLine.decode raw).Maps source := by
    rw [lines]
    rintro raw inside source ⟨text, command, fields, version, event, isText, told, -⟩
    rcases List.mem_pair.mp inside with rfl | rfl
    · simp [LogLine.decode, damaged] at isText
    · simp only [LogLine.decode, blank, LogLine.text.injEq] at isText
      subst isText
      cases told
  obtain ⟨outcome, reads⟩ := ends fun raw inside source maps =>
    absurd maps (unmapped raw inside source)
  obtain ⟨reading, rfl, -, kept, readsKept, without, same⟩ := cleared outcome reads
  have failed : reading.failures.toList.map (·.line) = [1] := by
    have read := reads.result
    rw [LogReader.processBytes, lines] at read
    simp only [LogReader.processByteLines, damaged, blank, LogReader.processLine] at read
    cases timed : reader.settings.timedRange <;> rw [timed] at read <;>
      exact congrArg (·.2.failures.toList.map (·.line)) read.symm
  rw [failed] at readsKept
  exact ⟨_, reader, reading, kept, isNew, isReader, reads, failed, readsKept, without, same⟩

/-- A log with a tick on a call that stands in itself. -/
def circularLog : List UInt8 :=
  Text.encodeUtf8 (String.join
    ["code-creation,JS,13,5,0x1000,0x40,f a.js:1:10\n",
      "code-source-info,0x1000,1,0,10,C0O0I0,F0O0I0,\n", "tick,0x1000,200,0,0x0,0\n"])

/-- None of its lines is malformed, but reading it has no outcome. -/
theorem not_readsTo_circularLog :
    ∃ analyzer reader, Analyzer.new {} {} = .ok analyzer ∧ Analyzer.reader {} = .ok reader ∧
      (reader.processBytes circularLog { sink := analyzer }).2.failures = #[] ∧
      ∀ outcome, ¬reader.ReadsTo circularLog analyzer outcome := by
  let analyzer : Analyzer := { profile := Profile.new {} .none }
  have computed : ∃ reader, Analyzer.reader {} = .ok reader ∧
      (reader.processBytes circularLog { sink := analyzer }).2.failures.size = 0 ∧
      (reader.processBytes circularLog { sink := analyzer }).2.sink.profile.endless = true :=
    ⟨_, rfl, by decide +kernel⟩
  obtain ⟨reader, isReader, failures, endless⟩ := computed
  refine ⟨analyzer, reader, rfl, isReader, Array.eq_empty_of_size_eq_zero failures, ?_⟩
  intro outcome reads
  rw [reads.result, reads.ends] at endless
  exact Bool.false_ne_true endless

end Analyzer

end JitTrace
