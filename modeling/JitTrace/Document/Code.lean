import JitTrace.Code.Map
import JitTrace.Document.Basic
import JitTrace.Profile.Frames
import JitTrace.Symbols.Library

/-!
# Documents of code

The documents of code entries, of the indices of a code map and of what looking up
an address in it gives.
-/

namespace JitTrace.Document

/-- The id of an entry. -/
def codeId (id : CodeId) : Json :=
  nat id.index

/-- A group of a position table. -/
def position (entry : PositionEntry) : Json :=
  .array [word entry.codeOffset, word entry.scriptOffset, optional nat entry.inliningId]

/-- An inlined call. -/
def inlinedCall (call : InliningPosition) : Json :=
  .array [nat call.functionIndex, word call.scriptOffset, optional nat call.parent]

/-- A source mapping. -/
def source (info : SourceInfo) : Json :=
  Json.ofMembers
    [("script", nat info.scriptId.toNat), ("start", word info.start), ("end", word info.stop),
      ("positions", list position info.positions),
      ("inlining", list inlinedCall info.inlining.toList),
      ("functions", list address info.inlinedFunctions.toList)]

/-- The shape of an entry. -/
def flavor : CodeFlavor → Json
  | .plain => text "Plain"
  | .dynamic => text "Dynamic"
  | .compiled .. => text "DynamicFunc"
  | .sharedFunction => text "SharedFunction"

/-- The identity of an entry. -/
def identity : EntryIdentity → Json
  | .script script start => .array [nat script.toNat, word start]
  | .named name codeType => .array [text name, text codeType]

/-- An entry of a code map. -/
def entry (map : CodeMap) (id : CodeId) : Json :=
  let entry := map.entry id
  Json.ofMembers
    [("id", codeId id), ("name", text entry.name), ("type", text entry.codeType),
      ("kind", optional (fun kind => text kind.name) entry.kind),
      ("flavor", flavor entry.flavor), ("func", optional codeId entry.function?),
      ("state", optional (fun state => text state.name) entry.state?),
      ("size", address entry.size), ("ts", optional word entry.timestamp),
      ("source", optional source entry.source), ("deopts", list text entry.deoptReasons),
      ("disabled", optional text entry.optimizationDisabled),
      ("display", text (map.displayName id)), ("function_name", text entry.functionName),
      ("bare", text entry.bareName), ("identity", identity entry.identity),
      ("flags", list (.bool ·)
        [entry.isCompiledFunction, entry.isSharedFunction, entry.isDynamic, entry.isNative])]

/-- The result of an address lookup. -/
def located (located : Located) : Json :=
  Json.ofMembers
    [("id", codeId located.id), ("start", address located.start),
      ("offset", address located.offset)]

/-- A call on a logical stack. -/
def logicalFrame (frame : LogicalFrame) : Json :=
  Json.ofMembers
    [("id", codeId frame.entry), ("label", text frame.label),
      ("script", optional (fun script => nat script.toNat) frame.scriptId),
      ("offset", optional word frame.scriptOffset)]

/-- A function of a library. -/
def librarySymbol (symbol : LibrarySymbol) : Json :=
  .array [text symbol.name, address symbol.start, address symbol.stop]

/-- An index of a code map. -/
def addressIndex (map : CodeMap) (index : AddressIndex) : Json :=
  list (fun (start, id) => .array [address start, codeId id, text (map.displayName id)])
    index.toList

/-- What occupies which addresses. -/
def codeMap (map : CodeMap) : Json :=
  Json.ofMembers
    [("dynamic", addressIndex map map.dynamics), ("static", addressIndex map map.statics),
      ("libraries", addressIndex map map.libraries)]

/-- The entries of the live generated code. -/
def liveEntries (map : CodeMap) : Json :=
  list (fun (start, id) => .array [address start, entry map id]) map.dynamics.toList

end JitTrace.Document
