import JitTrace.Fault
import JitTrace.Json.Parser
import JitTrace.Json.Printer
import JitTrace.Json.Record

/-!
# CPU profile documents

The document that browser developer tools exchange: the nodes of a call tree, and
the samples with the time between them. It has a JSON form, which is written with
its fields in a fixed order and read in any.
-/

namespace JitTrace

/-- The function and location of a node. -/
structure CallFrame where
  functionName : String
  scriptId : String
  url : String
  /-- Counted from zero; minus one when unknown. -/
  lineNumber : Int64
  /-- Counted from zero; minus one when unknown. -/
  columnNumber : Int64
deriving DecidableEq, Repr

/-- The samples of a node on one source line, counted from one. -/
structure PositionTick where
  line : UInt32
  ticks : UInt64
deriving DecidableEq, Repr

/-- A node. -/
structure CpuProfileNode where
  id : UInt32
  callFrame : CallFrame
  hitCount : UInt64
  children : List UInt32 := []
  deoptReason : Option String := none
  positionTicks : List PositionTick := []
deriving DecidableEq, Repr

/-- A document. Times are in microseconds. -/
structure CpuProfile where
  nodes : List CpuProfileNode
  startTime : UInt64
  endTime : UInt64
  /-- The node that each sample fell on. -/
  samples : List UInt32
  /-- The time since the previous sample, and for the first since `startTime`. -/
  timeDeltas : List Int64
deriving DecidableEq, Repr

/-- The JSON form of a location. -/
def CallFrame.toJson (frame : CallFrame) : Json :=
  .ofMembers
    [("functionName", .ofString frame.functionName), ("scriptId", .ofString frame.scriptId),
      ("url", .ofString frame.url), ("lineNumber", .ofInt frame.lineNumber.toInt),
      ("columnNumber", .ofInt frame.columnNumber.toInt)]

/-- Read the JSON form of a location. -/
def CallFrame.ofJson? (document : Json) : Option CallFrame := do
  let fields ← Json.fields?
    ["functionName", "scriptId", "url", "lineNumber", "columnNumber"] document
  match fields with
  | [functionName, scriptId, url, lineNumber, columnNumber] =>
    return {
      functionName := ← Json.required? Json.readText? functionName
      scriptId := ← Json.required? Json.readText? scriptId
      url := ← Json.required? Json.readText? url
      lineNumber := ← Json.required? Json.readInt64? lineNumber
      columnNumber := ← Json.required? Json.readInt64? columnNumber }
  | _ => none

/-- The JSON form of the samples on a line. -/
def PositionTick.toJson (tick : PositionTick) : Json :=
  .ofMembers [("line", .ofNat tick.line.toNat), ("ticks", .ofNat tick.ticks.toNat)]

/-- Read the JSON form of the samples on a line. -/
def PositionTick.ofJson? (document : Json) : Option PositionTick := do
  let fields ← Json.fields? ["line", "ticks"] document
  match fields with
  | [line, ticks] =>
    return {
      line := ← Json.required? Json.readWord32? line
      ticks := ← Json.required? Json.readWord64? ticks }
  | _ => none

namespace CpuProfileNode

/-- The JSON form of a node, without the lists that are empty and the reason that
is absent. -/
def toJson (node : CpuProfileNode) : Json :=
  .ofMembers
    ([("id", .ofNat node.id.toNat), ("callFrame", node.callFrame.toJson),
        ("hitCount", .ofNat node.hitCount.toNat)] ++
      (if node.children.isEmpty then []
        else [("children", .array (node.children.map fun id => .ofNat id.toNat))]) ++
      (match node.deoptReason with
        | none => []
        | some reason => [("deoptReason", .ofString reason)]) ++
      (if node.positionTicks.isEmpty then []
        else [("positionTicks", .array (node.positionTicks.map PositionTick.toJson))]))

/-- Read the JSON form of a node. -/
def ofJson? (document : Json) : Option CpuProfileNode := do
  let fields ← Json.fields?
    ["id", "callFrame", "hitCount", "children", "deoptReason", "positionTicks"] document
  match fields with
  | [id, callFrame, hitCount, children, deoptReason, positionTicks] =>
    return {
      id := ← Json.required? Json.readWord32? id
      callFrame := ← Json.required? CallFrame.ofJson? callFrame
      hitCount := ← Json.required? Json.readWord64? hitCount
      children := ← Json.optional? [] (Json.readList? Json.readWord32?) children
      deoptReason := ← Json.optional? none (Json.nullable? Json.readText?) deoptReason
      positionTicks :=
        ← Json.optional? [] (Json.readList? PositionTick.ofJson?) positionTicks }
  | _ => none

end CpuProfileNode

namespace CpuProfile

/-- The JSON form of a document. -/
def toJson (profile : CpuProfile) : Json :=
  .ofMembers
    [("nodes", .array (profile.nodes.map CpuProfileNode.toJson)),
      ("startTime", .ofNat profile.startTime.toNat),
      ("endTime", .ofNat profile.endTime.toNat),
      ("samples", .array (profile.samples.map fun id => .ofNat id.toNat)),
      ("timeDeltas", .array (profile.timeDeltas.map fun delta => .ofInt delta.toInt))]

/-- Read the JSON form of a document. -/
def ofJson? (document : Json) : Option CpuProfile := do
  let fields ← Json.fields? ["nodes", "startTime", "endTime", "samples", "timeDeltas"] document
  match fields with
  | [nodes, startTime, endTime, samples, timeDeltas] =>
    return {
      nodes := ← Json.required? (Json.readList? CpuProfileNode.ofJson?) nodes
      startTime := ← Json.required? Json.readWord64? startTime
      endTime := ← Json.required? Json.readWord64? endTime
      samples := ← Json.required? (Json.readList? Json.readWord32?) samples
      timeDeltas := ← Json.required? (Json.readList? Json.readInt64?) timeDeltas }
  | _ => none

/-- The text of a document. -/
def text (profile : CpuProfile) : String :=
  profile.toJson.text

/-- Read the text of a document. -/
def parse (text : String) : Except Fault CpuProfile :=
  match (Json.parse? text).bind ofJson? with
  | some profile => .ok profile
  | none => .error .json

end CpuProfile

end JitTrace
