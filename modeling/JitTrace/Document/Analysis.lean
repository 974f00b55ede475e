import JitTrace.CpuProfile.Export
import JitTrace.Document.Events
import JitTrace.Document.Tree
import JitTrace.Trace.Analyzer

/-!
# Documents of analyses

The document of an analysis consists of sections, which are asked for by name.
Some sections draw ids from the profile's supply, so each leaves a profile behind.
-/

namespace JitTrace.Document

/-- A script with the offsets of its lines. -/
def script (script : Script) : Json :=
  .array [nat script.id.toNat, text script.url, optional text script.text,
    optional (list nat) script.lineStarts?]

/-- The scripts by id. -/
def scripts (registry : ScriptRegistry) : Json :=
  list script registry.scripts

/-- A sample. -/
def sample (tree : CallTree) (sample : Sample) : Json :=
  Json.ofMembers
    [("node", nat (tree.node sample.node).id.toNat),
      ("path", list text (tree.pathLabels sample.node)), ("ts", word sample.timestamp),
      ("line", optional nat sample.line), ("state", text sample.vmState.name),
      ("system", .bool sample.system)]

/-- The numbers of ticks. -/
def tickCounters (counters : TickCounters) : Json :=
  Json.ofMembers
    [("total", nat counters.total), ("unaccounted", nat counters.unaccounted),
      ("by_state", Json.ofMembers
        (counters.byState.map fun (state, count) => (state.name, nat count)))]

/-- A reference to unknown code. -/
def unknownCode (unknown : UnknownCode) : Json :=
  .array [text unknown.operation.text, address unknown.address,
    optional nat unknown.stackPosition]

/-- A row of the listing of native entries. -/
def nativeEntry (row : NativeEntry) : Json :=
  .array [text row.name, nat row.ticks]

/-- The rows that a document's function listing has. -/
def listedFunctions : Nat := 5

/-- A section that reads the profile only. -/
def readingSection? (profile : Profile) : String → Option Json
  | "code" => some (codeMap profile.codeMap)
  | "entries" => some (liveEntries profile.codeMap)
  | "tree" => some (callTree profile.tree true)
  | "samples" => some (list (sample profile.tree) profile.samples.toList)
  | "counters" => some (tickCounters profile.counters)
  | "unknown" => some (list unknownCode profile.unknownCode.toList)
  | "c_entries" => some (list nativeEntry profile.nativeEntryListing)
  | "scripts" => some (scripts profile.scripts)
  | "folded" => some (text profile.tree.foldedStacks)
  | "top_down_view" => some (view profile.topDownView)
  | "cpuprofile" => some (result (fun document => text document.text) profile.cpuProfile)
  | _ => none

/-- A section that derives a tree. -/
def derivingSection? (profile : Profile) : String → Option (Json × Profile)
  | "top_self" =>
    let (rows, profile) := profile.topFunctions listedFunctions .own
    some (list functionCost rows, profile)
  | "top_total" =>
    let (rows, profile) := profile.topFunctions listedFunctions .total
    some (list functionCost rows, profile)
  | "bottom_up" =>
    let (tree, profile) := profile.bottomUpTree
    some (callTree tree false, profile)
  | "flat" =>
    let (tree, profile) := profile.flatTree none
    some (callTree tree false, profile)
  | "bottom_up_view" =>
    let (inverted, profile) := profile.bottomUpView
    some (view inverted, profile)
  | "flat_view" =>
    let (flat, profile) := profile.flatView
    some (view flat, profile)
  | _ => none

/-- A section of a profile; null where there is none of that name. -/
def profileSection (profile : Profile) (name : String) : Json × Profile :=
  match readingSection? profile name with
  | some document => (document, profile)
  | none => (derivingSection? profile name).getD (.null, profile)

/-- What became of the lines of a log. -/
def readCounts (counts : ReadCounts) : Json :=
  Json.ofMembers
    [("lines", nat counts.lines), ("dispatched", nat counts.dispatched),
      ("unknown", nat counts.unknown), ("filtered", nat counts.filtered)]

/-- A line that could not be processed. -/
def lineFailure (failure : LineFailure) : Json :=
  Json.ofMembers
    [("line", nat failure.line), ("command", optional text failure.command),
      ("message", text failure.message)]

/-- The lines that could not be processed. -/
def lineFailures (failures : Array LineFailure) : Json :=
  list lineFailure failures.toList

/-- The named sections of an analysis, in this order. -/
def sections (events : EventLog) (profile : Profile) : List String → List (String × Json)
  | [] => []
  | "events" :: names => ("events", eventLog events) :: sections events profile names
  | name :: names =>
    let (document, profile) := profileSection profile name
    (name, document) :: sections events profile names

/-- The document of an analysis. -/
def analysis (analysis : Analysis) (names : List String) : Json :=
  Json.ofMembers <|
    [("version", text analysis.version.text), ("stats", readCounts analysis.counts),
      ("failures", lineFailures analysis.failures)] ++
    sections analysis.events analysis.profile names

end JitTrace.Document
