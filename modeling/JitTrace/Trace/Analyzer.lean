import JitTrace.Line.Reader
import JitTrace.Profile.Finalize
import JitTrace.Profile.Queries
import JitTrace.Symbols.Library
import JitTrace.Trace.Event

/-!
# Analyzing a log

The analyzer applies trace events to a profile and an event log. Reading a log
with it, and finalizing the profile at the end, gives the analysis of the log.
-/

namespace JitTrace

/-- What has been learnt from a log so far. -/
structure Analyzer where
  profile : Profile
  events : EventLog := {}
  /-- The version that enumerations are read as. -/
  version : Version := .latest
  /-- Whether the version was set from outside, so that the log's does not count. -/
  versionLocked : Bool := false
  symbols : SymbolProvider := SymbolProvider.none

/-- Where an analyzer gets what is not in the log. -/
structure Providers where
  scripts : ScriptProvider := ScriptProvider.none
  symbols : SymbolProvider := SymbolProvider.none

/-- The uri of code whose script is not known. -/
def unknownUri : String := "<unknown>"

namespace Analyzer

/-- An analyzer that has seen nothing. -/
def new (settings : Settings) (providers : Providers) : Except Fault Analyzer :=
  match settings.versionOverride with
  | .error fault => .error fault
  | .ok forced =>
    .ok
      { profile := Profile.new settings.profile providers.scripts
        version := forced.getD .latest
        versionLocked := forced.isSome
        symbols := providers.symbols }

/-- The outcome of applying an event. -/
abbrev Outcome := Except Fault Unit × Analyzer

/-- Apply a change of the profile. -/
def changeProfile {Result : Type} (analyzer : Analyzer)
    (change : Profile → Profile.Outcome Result) : Outcome :=
  let (result, profile) := change analyzer.profile
  (result.map fun _ => (), { analyzer with profile })

/-- Change the event log. -/
def changeEvents (analyzer : Analyzer) (change : EventLog → EventLog) : Outcome :=
  (.ok (), { analyzer with events := change analyzer.events })

/-- The rendered name of the code covering an address. -/
def nameAt? (analyzer : Analyzer) (address : UInt64) : Option String :=
  (analyzer.profile.findEntry? address).map analyzer.profile.codeMap.displayName

/-- The uri of the script of the code covering an address. -/
def uriAt (analyzer : Analyzer) (address : UInt64) : String :=
  ((analyzer.profile.findEntry? address).bind analyzer.profile.scriptUrl?).getD unknownUri

/-- The best known position of the code covering an address: the location behind
its function's name, or else no more than its script. -/
def positionAt (analyzer : Analyzer) (address : UInt64) : FilePosition :=
  let located? := (analyzer.profile.findEntry? address).bind fun id =>
    FilePosition.ofFunctionName? (analyzer.profile.namedEntry id).name
  located?.getD ⟨analyzer.uriAt address, 0, 0⟩

/-- Register the symbols of a library, up to the first that is refused. -/
def addSymbols (analyzer : Analyzer) : List LibrarySymbol → Outcome
  | [] => (.ok (), analyzer)
  | symbol :: rest =>
    match analyzer.changeProfile (·.addStaticCode symbol.name symbol.start symbol.stop) with
    | (.ok (), analyzer) => addSymbols analyzer rest
    | (.error fault, analyzer) => (.error fault, analyzer)

/-- Register a library and its symbols. -/
def addLibrary (analyzer : Analyzer) (name : String) (start stop : UInt64) : Outcome :=
  match analyzer.changeProfile (·.addLibrary name start stop) with
  | (.error fault, analyzer) => (.error fault, analyzer)
  | (.ok (), analyzer) =>
    match analyzer.symbols name with
    | .error fault => (.error fault, analyzer)
    | .ok symbols => analyzer.addSymbols (LibrarySymbol.placeAll symbols start stop)

/-- Record a deopt with the code and the position it happened at. -/
def addDeopt (analyzer : Analyzer) (event : DeoptEvent) : Outcome :=
  let position := event.position.getD (analyzer.positionAt event.code)
  let functionName := analyzer.nameAt? event.code
  match analyzer.changeProfile (·.addDeoptReason event.code event.reason) with
  | (.error fault, analyzer) => (.error fault, analyzer)
  | (.ok (), analyzer) =>
    analyzer.changeEvents (·.addDeopt position
      { timestamp := event.timestamp
        kind := event.kind
        reason := event.reason
        functionName
        inliningId := event.inliningId })

/-- Record that a function is never optimized again. -/
def disableOptimization (analyzer : Analyzer) (name reason : String) : Outcome :=
  match analyzer.changeProfile (·.disableOptimization name reason) with
  | (.error fault, analyzer) => (.error fault, analyzer)
  | (.ok (), analyzer) => analyzer.changeEvents (·.addDisabled ⟨name, reason⟩)

/-- Record a transition of an inline cache. -/
def addIc (analyzer : Analyzer) (event : IcEvent) : Outcome :=
  let functionName := analyzer.nameAt? event.programCounter
  let uri := analyzer.uriAt event.programCounter
  analyzer.changeEvents
    (·.addIc ⟨uri, event.line, event.column⟩ { event.update with functionName })

/-- Record a transition of a map, at a position where its code is known. -/
def addMapTransition (analyzer : Analyzer) (transition : MapTransition) : Outcome :=
  let position :=
    if transition.programCounter == 0 then none
    else some ⟨(analyzer.positionAt transition.programCounter).uri, transition.line,
      transition.column⟩
  analyzer.changeEvents (·.addMapUpdate transition.id { transition.update with position })

/-- Apply an event. -/
def apply (analyzer : Analyzer) : TraceEvent → Outcome
  | .version version =>
    (.ok (), if analyzer.versionLocked then analyzer else { analyzer with version })
  | .library name start stop => analyzer.addLibrary name start stop
  | .code creation => analyzer.changeProfile (·.addCode creation)
  | .functionCode creation address state =>
    analyzer.changeProfile (·.addFunctionCode creation address state)
  | .moveCode source target => analyzer.changeProfile (·.moveCode source target)
  | .deleteCode start => analyzer.changeProfile (·.deleteCode start)
  | .moveFunction source target => analyzer.changeProfile (·.moveFunction source target)
  | .sourcePositions start record =>
    analyzer.changeProfile (·.addSourcePositions start record)
  | .scriptSource id url text => analyzer.changeProfile (·.addScriptSource id url text)
  | .scriptDetails id url => analyzer.changeProfile (·.addScriptDetails id url)
  | .deopt event => analyzer.addDeopt event
  | .disableOptimization name reason => analyzer.disableOptimization name reason
  | .ic event => analyzer.addIc event
  | .mapUpdate id update => analyzer.changeEvents (·.addMapUpdate id update)
  | .mapTransition transition => analyzer.addMapTransition transition
  | .tick tick => analyzer.changeProfile (·.recordTick tick)
  | .timer => (.ok (), analyzer)

/-- The handler of a record: read the event, then apply it. -/
def handler (record : TraceRecord) : Handler Analyzer := fun arguments analyzer =>
  match record.read analyzer.version arguments with
  | .error fault => { result := .error fault, sink := analyzer }
  | .ok event =>
    let (result, analyzer) := analyzer.apply event
    { result, sink := analyzer }

/-- The table of every record that is understood. -/
def recordTable : Except Fault (RecordTable Analyzer) :=
  TraceRecord.all.foldlM
    (fun table record => table.register record.name record.fields (handler record)) {}

/-- The reader that drives an analyzer. -/
def reader (settings : Settings) : Except Fault (LogReader Analyzer) :=
  recordTable.map fun table => { table, settings := settings.reader }

end Analyzer

/-- What a whole log says. -/
structure Analysis where
  /-- Finalized. -/
  profile : Profile
  events : EventLog
  /-- The version that enumerations were read as. -/
  version : Version
  failures : Array LineFailure
  counts : ReadCounts

namespace Analysis

/-- Conclude a read. -/
def ofReading (reading : Reading Analyzer) : Analysis where
  profile := reading.sink.profile.finalize.2
  events := reading.sink.events
  version := reading.sink.version
  failures := reading.failures
  counts := reading.counts

/-- Read a log with a step of a read, and conclude it. -/
def run (settings : Settings) (providers : Providers) (cancelled : Bool)
    (step : LogReader Analyzer → Reading Analyzer → ReadOutcome Analyzer) :
    Except Fault Analysis := do
  let analyzer ← Analyzer.new settings providers
  let reader ← Analyzer.reader settings
  match step reader { sink := analyzer, cancelled } with
  | (.ok (), reading) => return ofReading reading
  | (.error fault, _) => throw fault

/-- Analyze a log given as bytes. -/
def ofBytes (bytes : List UInt8) (settings : Settings) (providers : Providers)
    (cancelled : Bool) : Except Fault Analysis :=
  run settings providers cancelled fun reader reading => reader.processBytes bytes reading

/-- Analyze a log given as text. -/
def ofText (text : String) (settings : Settings) (providers : Providers) :
    Except Fault Analysis :=
  run settings providers false fun reader reading =>
    match reader.processChunk text reading with
    | (.ok (), reading) => reader.finish reading
    | (.error fault, reading) => (.error fault, reading)

end Analysis

end JitTrace
