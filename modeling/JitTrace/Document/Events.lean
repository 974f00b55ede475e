import JitTrace.Document.Basic
import JitTrace.Events.Log

/-!
# Documents of events

The documents of deopts, inline cache transitions and map events, with what the
event log derives from them.
-/

namespace JitTrace.Document

/-- A position in a file. -/
def filePosition (position : FilePosition) : Json :=
  Json.ofMembers
    [("uri", text position.uri), ("line", nat position.line.toNat),
      ("column", nat position.column.toNat)]

/-- A deopt. -/
def deoptUpdate (update : DeoptUpdate) : Json :=
  Json.ofMembers
    [("timestamp", word update.timestamp), ("kind", text update.kind.name),
      ("reason", text update.reason), ("function_name", optional text update.functionName),
      ("inlining_id", int update.inliningId)]

/-- A transition of an inline cache. -/
def icUpdate (update : IcUpdate) : Json :=
  Json.ofMembers
    [("timestamp", word update.timestamp), ("ic_type", text update.icType),
      ("old_state", text update.oldState.name), ("new_state", text update.newState.name),
      ("map", word update.map), ("key", text update.key), ("modifier", text update.modifier),
      ("slow_reason", text update.slowReason),
      ("function_name", optional text update.functionName)]

/-- An event of a map. -/
def mapUpdate (update : MapUpdate) : Json :=
  Json.ofMembers
    [("timestamp", word update.timestamp), ("event", text update.event.name),
      ("detail", text update.detail), ("from", optional word update.origin),
      ("reason", text update.reason), ("name", text update.name),
      ("position", optional filePosition update.position)]

/-- The deopts at a position. -/
def deoptEntry (entry : DeoptEntry) : Json :=
  Json.ofMembers
    [("position", filePosition entry.key), ("updates", list deoptUpdate entry.updates)]

/-- The transitions at a position. -/
def icEntry (entry : IcEntry) : Json :=
  Json.ofMembers
    [("position", filePosition entry.key), ("updates", list icUpdate entry.updates)]

/-- The events of a map. -/
def mapEntry (entry : MapEntry) : Json :=
  Json.ofMembers [("id", word entry.key), ("updates", list mapUpdate entry.updates)]

/-- The deopts at a position with the worst of them. -/
def judgedDeopts (entry : DeoptEntry) : Json :=
  Json.ofMembers
    [("entry", deoptEntry entry),
      ("worst", optional (fun kind => text kind.name) (worstKind? entry)),
      ("latest", optional (fun update => word update.timestamp) entry.updates.getLast?)]

/-- The transitions at a position with the worst state and the maps seen. -/
def judgedIcs (entry : IcEntry) : Json :=
  Json.ofMembers
    [("entry", icEntry entry),
      ("worst", optional (fun state => text state.name) (worstState? entry)),
      ("maps", list word (mapsSeen entry)),
      ("latest", optional (fun update => word update.timestamp) entry.updates.getLast?)]

/-- The events of a map with what they say about it. -/
def judgedMap (entry : MapEntry) : Json :=
  Json.ofMembers
    [("entry", mapEntry entry), ("details", optional text (mapDetails? entry)),
      ("parent", optional word (mapParent? entry)),
      ("latest", optional (fun update => word update.timestamp) entry.updates.getLast?)]

/-- A function that the engine gave up optimizing. -/
def disabledOptimization (disabled : DisabledOptimization) : Json :=
  Json.ofMembers
    [("function_name", text disabled.functionName), ("reason", text disabled.reason)]

/-- The event log. -/
def eventLog (log : EventLog) : Json :=
  Json.ofMembers
    [("deopts", list judgedDeopts log.deopts.toList), ("ics", list judgedIcs log.ics.toList),
      ("maps", list judgedMap log.maps.toList),
      ("disabled", list disabledOptimization log.disabled),
      ("deopts_by_count", list (fun entry => text entry.key.text) log.deoptsByCount),
      ("ics_by_severity", list (fun entry => text entry.key.text) log.icsBySeverity)]

end JitTrace.Document
