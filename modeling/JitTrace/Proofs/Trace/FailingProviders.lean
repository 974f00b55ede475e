import JitTrace.Proofs.Trace.Recording

/-!
# What a failing line leaves behind

A line that fails for its own sake leaves the code as it was. One that fails because a script
or a listing of symbols cannot be provided has been applied up to there: the library is
registered without its symbols, and the source mapping is attached without the script's text.
-/

namespace JitTrace

namespace CodeMap

/-- A search for generated code changes no code. -/
theorem Indexed.alike_searched {map : CodeMap} (indexed : map.Indexed) {dynamics : AddressIndex}
    (searched : Indexed { map with dynamics }) (same : dynamics.toList = map.dynamics.toList) :
    map.Alike { map with dynamics } :=
  indexed.alike_self.withDynamics ⟨indexed.dynamics, searched.dynamics, same⟩

end CodeMap

/-- What a failing line leaves behind of the event that it says. -/
inductive CodeMap.Remains (providers : Providers) (stated : TraceEvent → Prop) (fault : Fault)
    (before after : CodeMap) : Prop where
  /-- The line is at fault, and no code has changed. -/
  | nothing (ofLine : fault.isOfLine = true) (unchanged : before.Alike after)
  /-- The symbols of a library cannot be listed, and the library is registered without any. -/
  | library {name : String} {start stop : UInt64} (said : stated (.library name start stop))
    (raised : providers.symbols name = .error fault)
    (registered : after = (before.addLibrary start
      (.plain (Number.saturatingSub stop start) name CodeEntry.libraryType)).2)
  /-- The script of a source mapping cannot be provided, and the mapping is attached. -/
  | mapping {start : UInt64} {record : Profile.SourceRecord} {info : SourceInfo} {id : CodeId}
    {url : String} (said : stated (.sourcePositions start record))
    (parsed : PositionText.sourceInfo record.scriptId record.start record.stop record.positions
      record.inlining record.functions = .ok info)
    (live : (start, id) ∈ before.dynamics.toList)
    (raised : providers.scripts url = .error fault)
    (attached : CodeMap.Alike
      (before.modifyEntry id fun entry => { entry with source := some info }) after)

namespace Analyzer

variable {providers : Providers} {analyzer after : Analyzer} {fault : Fault}

/-- While the profile is recorded, symbols are registered. -/
theorem addSymbols_ne_error (recording : analyzer.profile.finalized = false)
    {symbols : List LibrarySymbol} : analyzer.addSymbols symbols ≠ (.error fault, after) := by
  induction symbols generalizing analyzer with
  | nil => nofun
  | cons symbol symbols inductionHypothesis =>
    simp only [addSymbols, changeProfile, Profile.addStaticCode, Profile.whileRecording, recording,
      Bool.false_eq_true, if_false]
    exact inductionHypothesis rfl

namespace Recording

variable (recording : analyzer.Recording providers)
include recording

theorem indexed : analyzer.profile.codeMap.Indexed := by
  obtain ⟨settings, requests, reached⟩ := recording.reached
  exact reached ▸ Profile.indexed_run settings providers.scripts requests

theorem provider : analyzer.profile.scripts.provider = providers.scripts := by
  obtain ⟨settings, requests, reached⟩ := recording.reached
  exact reached ▸ Profile.provider_run settings providers.scripts requests

/-- A library fails only when its symbols cannot be listed. -/
theorem addLibrary_failed {name : String} {start stop : UInt64}
    (failed : analyzer.addLibrary name start stop = (.error fault, after)) :
    providers.symbols name = .error fault ∧
      after.profile.codeMap = (analyzer.profile.codeMap.addLibrary start
        (.plain (Number.saturatingSub stop start) name CodeEntry.libraryType)).2 := by
  simp only [Analyzer.addLibrary, changeProfile, Profile.addLibrary, Profile.whileRecording,
    recording.recording, Bool.false_eq_true, if_false, Except.map] at failed
  cases listed : analyzer.symbols name with
  | ok symbols =>
    simp only [listed] at failed
    exact absurd failed (addSymbols_ne_error rfl)
  | error cause =>
    simp only [listed, Prod.mk.injEq, Except.error.injEq] at failed
    obtain ⟨rfl, rfl⟩ := failed
    exact ⟨recording.symbols ▸ listed, rfl⟩

/-- A source mapping fails when it cannot be read, or when its script cannot be provided. -/
theorem addSourcePositions_failed {start : UInt64} {record : Profile.SourceRecord}
    (failed : analyzer.changeProfile (·.addSourcePositions start record) = (.error fault, after))
    {stated : TraceEvent → Prop} (said : stated (.sourcePositions start record)) :
    CodeMap.Remains providers stated fault analyzer.profile.codeMap after.profile.codeMap := by
  obtain ⟨dynamics, finds, searched, same⟩ := recording.indexed.exists_dynamicAt start
  have alike := recording.indexed.alike_searched searched same
  simp only [changeProfile, Profile.addSourcePositions, Profile.whileRecording,
    recording.recording, Bool.false_eq_true, if_false, finds] at failed
  cases found : (SplayTree.found? start analyzer.profile.codeMap.dynamics.toList).map (·.2) with
  | none => simp [found, Except.map] at failed
  | some id =>
    simp only [found] at failed
    cases parsed : PositionText.sourceInfo record.scriptId record.start record.stop
        record.positions record.inlining record.functions with
    | error cause =>
      simp only [parsed, Except.map, Prod.mk.injEq, Except.error.injEq] at failed
      obtain ⟨rfl, rfl⟩ := failed
      exact .nothing (PositionText.ofLine_sourceInfo _ _ _ _ _ _ _ parsed) alike
    | ok info =>
      simp only [parsed, Prod.mk.injEq] at failed
      obtain ⟨result, rfl⟩ := failed
      have ensured : (analyzer.profile.scripts.ensureSource record.scriptId).1 = .error fault := by
        cases ensured : (analyzer.profile.scripts.ensureSource record.scriptId).1 with
        | ok _ => simp [ensured, Except.map] at result
        | error cause => simpa [ensured, Except.map] using result
      obtain ⟨url, raised⟩ :=
        (analyzer.profile.scripts.provider_ensureSource record.scriptId).2 fault ensured
      rw [recording.provider] at raised
      exact .mapping said parsed (recording.indexed.found?_eq_some.mp found) raised
        (alike.modifyEntry id _)

/-- While the profile is recorded, no event fails but a library and a source mapping. -/
theorem apply_failed {event : TraceEvent} (failed : analyzer.apply event = (.error fault, after))
    {stated : TraceEvent → Prop} (said : stated event) :
    CodeMap.Remains providers stated fault analyzer.profile.codeMap after.profile.codeMap := by
  have answered (request : Profile.Request) (ordinary : request.isMapping = false) :
      analyzer.profile.answer request = .ok () :=
    Profile.answer_eq_ok recording.indexed recording.recording ordinary
  have refused (request : Profile.Request) (ordinary : request.isMapping = false)
      (refused : analyzer.profile.answer request = .error fault) : False := by
    rw [answered request ordinary] at refused
    contradiction
  have result : (analyzer.apply event).1 = .error fault := congrArg Prod.fst failed
  cases event with
  | library name start stop =>
    obtain ⟨raised, registered⟩ := recording.addLibrary_failed failed
    exact .library said raised registered
  | sourcePositions start record => exact recording.addSourcePositions_failed failed said
  | code creation => exact (refused (.addCode creation) rfl result).elim
  | functionCode creation address state =>
    exact (refused (.addFunctionCode creation address state) rfl result).elim
  | moveCode source target => exact (refused (.moveCode source target) rfl result).elim
  | deleteCode start => exact (refused (.deleteCode start) rfl result).elim
  | moveFunction source target => exact (refused (.moveFunction source target) rfl result).elim
  | scriptSource id url text => exact (refused (.addScriptSource id url text) rfl result).elim
  | scriptDetails id url => exact (refused (.addScriptDetails id url) rfl result).elim
  | tick tick => exact (refused (.recordTick tick) rfl result).elim
  | deopt event =>
    have reasoned : (analyzer.changeProfile (·.addDeoptReason event.code event.reason)).1 =
        .ok () := answered (.addDeoptReason event.code event.reason) rfl
    simp only [Analyzer.apply, Analyzer.addDeopt] at failed
    split at failed <;> rename_i outcome <;> rw [outcome] at reasoned
    · contradiction
    · simp [Analyzer.changeEvents] at failed
  | disableOptimization name reason =>
    have disabled : (analyzer.changeProfile (·.disableOptimization name reason)).1 = .ok () :=
      answered (.disableOptimization name reason) rfl
    simp only [Analyzer.apply, Analyzer.disableOptimization] at failed
    split at failed <;> rename_i outcome <;> rw [outcome] at disabled
    · contradiction
    · simp [Analyzer.changeEvents] at failed
  | _ => contradiction

end Recording

/-- A line that fails while the profile is recorded leaves the code as it was, but for a library
whose symbols and a source mapping whose script cannot be provided. -/
theorem dispatch_remains {table : RecordTable Analyzer} (isTable : recordTable = .ok table)
    (recording : analyzer.Recording providers) {command : String} {fields : List String}
    (failed : (table.dispatch (command :: fields) false analyzer).result = .error fault) :
    CodeMap.Remains providers (·.SaidBy analyzer.version command fields) fault
      analyzer.profile.codeMap
      (table.dispatch (command :: fields) false analyzer).sink.profile.codeMap := by
  obtain ⟨known, isKnown, understood⟩ := exists_recordTable
  obtain rfl : known = table := Except.ok.inj (isKnown.symm.trans isTable)
  rcases RecordTable.dispatch_cases understood command fields analyzer with
    ⟨same, ofLine⟩ | ⟨event, said, applied, result⟩
  · rw [same]
    exact .nothing (ofLine fault failed) recording.indexed.alike_self
  · rw [applied]
    rw [result] at failed
    exact recording.apply_failed (Prod.ext (Outcome.map_eq_error.mp failed) rfl) said

/-- A library whose listing is a directory. -/
theorem dispatch_remains_unlisted :
    let providers : Providers := { symbols := fun _ => .error (.io .isDirectory) }
    let analyzer : Analyzer :=
      { profile := Profile.run {} .none [], symbols := providers.symbols }
    let fields := ["libx.so", "0x1000", "0x2000"]
    ∃ table, recordTable = .ok table ∧ analyzer.Recording providers ∧
      (table.dispatch ("shared-library" :: fields) false analyzer).result =
        .error (.io .isDirectory) ∧
      CodeMap.Remains providers (·.SaidBy analyzer.version "shared-library" fields)
        (.io .isDirectory) analyzer.profile.codeMap
        (table.dispatch ("shared-library" :: fields) false analyzer).sink.profile.codeMap := by
  intro providers analyzer fields
  have recording : analyzer.Recording providers := ⟨⟨{}, [], rfl⟩, rfl, rfl⟩
  refine ⟨_, rfl, recording, rfl, ?_⟩
  exact dispatch_remains rfl recording rfl

/-- Where neither symbols nor scripts can be provided, a library that fails is registered all
the same, and a source mapping that fails is attached. -/
theorem dispatch_halfApplied :
    let providers : Providers :=
      { scripts := fun _ => .error (.io .isDirectory)
        symbols := fun _ => .error (.io .isDirectory) }
    let creation : Profile.CodeCreation :=
      { codeType := "JS", name := "f", timestamp := 1, start := 0x1000, size := 64, kind := none }
    let requests : List Profile.Request := [.addCode creation, .addScriptDetails 1 "a.js"]
    let analyzer : Analyzer :=
      { profile := Profile.run {} providers.scripts requests, symbols := providers.symbols }
    let library := ["shared-library", "libx.so", "0x10000", "0x20000"]
    let mapping := ["code-source-info", "0x1000", "1", "0", "10", "", "", ""]
    ∃ table, recordTable = .ok table ∧ analyzer.Recording providers ∧
      analyzer.profile.codeMap.arena.size = 6 ∧
      (analyzer.profile.codeMap.entry ⟨5⟩).source.isNone = true ∧
      (table.dispatch library false analyzer).result.isOk = false ∧
      (table.dispatch library false analyzer).sink.profile.codeMap.arena.size = 7 ∧
      (table.dispatch mapping false analyzer).result.isOk = false ∧
      ((table.dispatch mapping false analyzer).sink.profile.codeMap.entry ⟨5⟩).source.isSome =
        true := by
  intro providers creation requests analyzer library mapping
  have recording : analyzer.Recording providers := ⟨⟨{}, requests, rfl⟩, rfl, rfl⟩
  exact ⟨_, rfl, recording, by decide +kernel⟩

end Analyzer

end JitTrace
