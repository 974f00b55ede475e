import JitTrace.Record.Layout
import JitTrace.Events.Log
import JitTrace.Profile.Ticks

/-!
# Trace events

What the records of a log say, once their fields have been read: one event for
each record that is understood. Reading an event depends on the version that
wrote the log and on nothing else.
-/

namespace JitTrace

/-- A deopt, before anything is known about the code it happened in. -/
structure DeoptEvent where
  timestamp : UInt64
  code : UInt64
  inliningId : Int64
  kind : DeoptimizeKind
  reason : String
  /-- The position, where the log gives one that can be read. -/
  position : Option FilePosition

/-- A transition of an inline cache, before anything is known about its code. -/
structure IcEvent where
  programCounter : UInt64
  line : UInt32
  column : UInt32
  /-- The transition, without the name of its code. -/
  update : IcUpdate

/-- A transition of a map, and the code it happened in. -/
structure MapTransition where
  id : UInt64
  programCounter : UInt64
  line : UInt32
  column : UInt32
  /-- The transition, without its position. -/
  update : MapUpdate

/-- What a record of the log says. -/
inductive TraceEvent where
  | version (version : Version)
  | library (name : String) (start stop : UInt64)
  | code (creation : Profile.CodeCreation)
  | functionCode (creation : Profile.CodeCreation) (address : UInt64) (state : FunctionState)
  | moveCode (source target : UInt64)
  | deleteCode (start : UInt64)
  | moveFunction (source target : UInt64)
  | sourcePositions (start : UInt64) (record : Profile.SourceRecord)
  | scriptSource (id : UInt32) (url text : String)
  | scriptDetails (id : UInt32) (url : String)
  | deopt (event : DeoptEvent)
  | disableOptimization (name reason : String)
  | ic (event : IcEvent)
  | mapUpdate (id : UInt64) (update : MapUpdate)
  | mapTransition (transition : MapTransition)
  | tick (tick : Tick)
  /-- A timer record, which says nothing by itself. -/
  | timer

namespace TraceEvent

/-- A component of a version. -/
def versionPart (arguments : Arguments) (position : Nat) : Except Fault UInt32 := do
  let value ← arguments.int position
  if 0 ≤ value.toInt && value.toInt.toNat < UInt32.size then return .ofNat value.toInt.toNat
  else throw (.parse .negativeVersionPart)

/-- An integer that must not be negative, called `what` in the fault. -/
def nonNegative (what : String) (arguments : Arguments) (position : Nat) :
    Except Fault UInt64 := do
  let value ← arguments.int position
  if 0 ≤ value.toInt then return value.toUInt64
  else throw (.parse (.negative what value))

/-- A time. -/
def timestamp (arguments : Arguments) (position : Nat) : Except Fault UInt64 :=
  nonNegative "timestamp" arguments position

/-- A script id. -/
def scriptId (arguments : Arguments) (position : Nat) : Except Fault UInt32 := do
  let value ← arguments.int position
  if 0 ≤ value.toInt && value.toInt.toNat < UInt32.size then return .ofNat value.toInt.toNat
  else throw (.parse (.scriptId value))

/-- The nearest line or column number to an integer. -/
def clamp (value : Int64) : UInt32 :=
  if value.toInt < 0 then 0
  else if value.toInt.toNat < UInt32.size then .ofNat value.toInt.toNat
  else 0xffffffff

/-- A line or column number that counts as zero when it is missing. -/
def clampedOrZero (arguments : Arguments) (position : Nat) : UInt32 :=
  match arguments.int position with
  | .ok value => clamp value
  | .error _ => 0

/-- Read a `v8-version` record. -/
def readVersion (arguments : Arguments) : Except Fault TraceEvent := do
  let major ← versionPart arguments 0
  let minor ← versionPart arguments 1
  let build ← versionPart arguments 2
  return .version ⟨major, minor, build⟩

/-- Read a `shared-library` record. -/
def readLibrary (arguments : Arguments) : Except Fault TraceEvent := do
  let name ← arguments.text 0
  let start ← arguments.address 1
  let stop ← arguments.address 2
  return .library name start stop

/-- Read a `code-creation` record. A kind that the version does not know is left
out; a tier that it does not know is a fault. -/
def readCode (version : Version) (arguments : Arguments) : Except Fault TraceEvent := do
  let codeType ← arguments.text 0
  let kind ← arguments.int 1
  let timestamp ← timestamp arguments 2
  let start ← arguments.address 3
  let size ← nonNegative "size" arguments 4
  let name ← arguments.text 5
  let creation : Profile.CodeCreation :=
    { codeType, name, timestamp, start, size
      kind := (CodeKind.encodings.decodeOrdinal kind.toInt version).toOption }
  match ← arguments.address? 6 with
  | none => return .code creation
  | some address =>
    let marker ← arguments.text? 7
    let state ← FunctionState.decode (marker.getD "") version
    return .functionCode creation address state

/-- Read a `code-move` record. -/
def readMove (arguments : Arguments) : Except Fault TraceEvent := do
  let source ← arguments.address 0
  let target ← arguments.address 1
  return .moveCode source target

/-- Read a `code-delete` record. -/
def readDelete (arguments : Arguments) : Except Fault TraceEvent := do
  let start ← arguments.address 0
  return .deleteCode start

/-- Read an `sfi-move` record. -/
def readMoveFunction (arguments : Arguments) : Except Fault TraceEvent := do
  let source ← arguments.address 0
  let target ← arguments.address 1
  return .moveFunction source target

/-- Read a `code-source-info` record. -/
def readSourcePositions (arguments : Arguments) : Except Fault TraceEvent := do
  let code ← arguments.address 0
  let scriptId ← scriptId arguments 1
  let start ← nonNegative "offset" arguments 2
  let stop ← nonNegative "offset" arguments 3
  let positions ← arguments.text 4
  let inlining ← arguments.text 5
  let functions ← arguments.text 6
  return .sourcePositions code { scriptId, start, stop, positions, inlining, functions }

/-- Read a `script-source` record. -/
def readScriptSource (arguments : Arguments) : Except Fault TraceEvent := do
  let id ← scriptId arguments 0
  let url ← arguments.text 1
  let text ← arguments.text 2
  return .scriptSource id url text

/-- Read a `script-details` record. -/
def readScriptDetails (arguments : Arguments) : Except Fault TraceEvent := do
  let id ← scriptId arguments 0
  let url ← arguments.text 1
  return .scriptDetails id url

/-- Read a `code-deopt` record. -/
def readDeopt (version : Version) (arguments : Arguments) : Except Fault TraceEvent := do
  let timestamp ← timestamp arguments 0
  let code ← arguments.address 2
  let inliningId ← arguments.int 3
  let kind ← DeoptimizeKind.decode (← arguments.text 5) version
  let reason ← arguments.text 7
  let position ← arguments.text 6
  return .deopt
    { timestamp, code, inliningId, kind, reason
      position := (FilePosition.parse position).toOption }

/-- Read a `code-disable-optimization` record. -/
def readDisable (arguments : Arguments) : Except Fault TraceEvent := do
  let name ← arguments.text 0
  let reason ← arguments.text 1
  return .disableOptimization name reason

/-- Read the record of an inline cache. -/
def readIc (version : Version) (arguments : Arguments) : Except Fault TraceEvent := do
  let programCounter ← arguments.address 1
  let timestamp ← timestamp arguments 2
  let oldState ← IcState.decode (← arguments.text 5) version
  let newState ← IcState.decode (← arguments.text 6) version
  let map ← arguments.address 7
  let key ← arguments.text 8
  let modifier ← arguments.text? 9
  let slowReason ← arguments.text? 10
  let line ← arguments.int 3
  let column ← arguments.int 4
  return .ic
    { programCounter
      line := clamp line
      column := clamp column
      update :=
        { timestamp, icType := arguments.command, oldState, newState, map, key
          modifier := modifier.getD ""
          slowReason := slowReason.getD ""
          functionName := none } }

/-- Read a `map-create` record. -/
def readMapCreate (arguments : Arguments) : Except Fault TraceEvent := do
  let id ← arguments.address 1
  let timestamp ← timestamp arguments 0
  return .mapUpdate id { timestamp, event := .create }

/-- Read a `map-details` record. -/
def readMapDetails (arguments : Arguments) : Except Fault TraceEvent := do
  let id ← arguments.address 1
  let timestamp ← timestamp arguments 0
  let detail ← arguments.text 2
  return .mapUpdate id { timestamp, event := .details, detail }

/-- Read a `map` record. -/
def readMap (arguments : Arguments) : Except Fault TraceEvent := do
  let origin ← arguments.address 2
  let programCounter ← arguments.address 4
  let id ← arguments.address 3
  let timestamp ← timestamp arguments 1
  let detail ← arguments.text 0
  let reason ← arguments.text? 7
  let name ← arguments.text? 8
  return .mapTransition
    { id, programCounter
      line := clampedOrZero arguments 5
      column := clampedOrZero arguments 6
      update :=
        { timestamp, event := .transition, detail
          origin := if origin == 0 then none else some origin
          reason := reason.getD ""
          name := name.getD "" } }

/-- Read a `tick` record. -/
def readTick (version : Version) (arguments : Arguments) : Except Fault TraceEvent := do
  let programCounter ← arguments.address 0
  let frames ← arguments.textList 5
  let timestamp ← timestamp arguments 1
  let callback ← arguments.int 2
  let callbackOrTop ← arguments.address 3
  let state ← arguments.int 4
  let vmState ← VmState.ofOrdinal state.toInt version
  let stack ← StackText.addresses programCounter frames
  return .tick
    { programCounter, timestamp, callbackOrTop, vmState, stack
      inCallback := callback != 0 }

end TraceEvent

/-- A record that is understood: its name, its fields, and how they are read. -/
structure TraceRecord where
  name : String
  fields : List FieldParser
  read : Version → Arguments → Except Fault TraceEvent

namespace TraceRecord

/-- The names of the records of inline caches. -/
def icNames : List String :=
  ["LoadIC", "StoreIC", "KeyedLoadIC", "KeyedStoreIC", "LoadGlobalIC", "StoreGlobalIC",
    "StoreInArrayLiteralIC"]

/-- The record of an inline cache. -/
def icRecord (name : String) : TraceRecord where
  name
  fields :=
    [.command, .address, .int, .int, .int, .text, .text, .address, .text,
      .optional .text .absent, .optional .text .absent]
  read := TraceEvent.readIc

/-- Every record that is understood. -/
def all : List TraceRecord :=
  [ { name := "v8-version"
      fields := [.int, .int, .int]
      read := fun _ => TraceEvent.readVersion },
    { name := "shared-library"
      fields := [.text, .address, .address, .optional .int (.int 0)]
      read := fun _ => TraceEvent.readLibrary },
    { name := "code-creation"
      fields :=
        [.text, .int, .int, .address, .int, .text, .optional .address .absent,
          .optional .text .absent]
      read := TraceEvent.readCode },
    { name := "code-move"
      fields := [.address, .address]
      read := fun _ => TraceEvent.readMove },
    { name := "code-delete"
      fields := [.address]
      read := fun _ => TraceEvent.readDelete },
    { name := "sfi-move"
      fields := [.address, .address]
      read := fun _ => TraceEvent.readMoveFunction },
    { name := "code-source-info"
      fields := [.address, .int, .int, .int, .text, .text, .text]
      read := fun _ => TraceEvent.readSourcePositions },
    { name := "script-source"
      fields := [.int, .text, .text]
      read := fun _ => TraceEvent.readScriptSource },
    { name := "script-details"
      fields := [.int, .text, .rest .text]
      read := fun _ => TraceEvent.readScriptDetails },
    { name := "code-deopt"
      fields := [.int, .int, .address, .int, .int, .text, .text, .text]
      read := TraceEvent.readDeopt },
    { name := "code-disable-optimization"
      fields := [.text, .text]
      read := fun _ => TraceEvent.readDisable },
    { name := "map-create"
      fields := [.int, .address]
      read := fun _ => TraceEvent.readMapCreate },
    { name := "map-details"
      fields := [.int, .address, .text]
      read := fun _ => TraceEvent.readMapDetails },
    { name := "map"
      fields :=
        [.text, .int, .address, .address, .optional .address (.int 0), .optional .int (.int 0),
          .optional .int (.int 0), .optional .text .absent, .optional .text .absent]
      read := fun _ => TraceEvent.readMap },
    { name := "tick"
      fields := [.address, .int, .int, .address, .int, .rest .text]
      read := TraceEvent.readTick },
    { name := "current-time"
      fields := [.int]
      read := fun _ _ => .ok .timer } ] ++ icNames.map icRecord

end TraceRecord

end JitTrace
