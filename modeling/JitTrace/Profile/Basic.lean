import JitTrace.CallTree.Derived
import JitTrace.Code.Map
import JitTrace.Profile.Skip
import JitTrace.Source.Location
import JitTrace.Source.PositionText
import JitTrace.Source.Script
import JitTrace.Tally

/-!
# Profiles

A profile records code events and ticks until it is finalized; afterwards it
answers queries only. This module holds the state and the code events.
-/

namespace JitTrace

/-- What referred to an address that no code occupies. -/
inductive CodeOperation where
  | move
  | delete
  | tick
deriving DecidableEq, Repr

/-- The name of an operation in reports. -/
def CodeOperation.text : CodeOperation → String
  | .move => "move"
  | .delete => "delete"
  | .tick => "tick"

/-- A reference to an address that no code occupies. -/
structure UnknownCode where
  operation : CodeOperation
  address : UInt64
  /-- The place of the frame in the stack of a tick. -/
  stackPosition : Option Nat := none
deriving DecidableEq, Repr

/-- A recorded tick. -/
structure Sample where
  node : NodeIndex
  /-- In microseconds. -/
  timestamp : UInt64
  /-- The source line of the innermost call. -/
  line : Option Nat
  vmState : VmState
  /-- Attributed to a pseudo function rather than to code. -/
  system : Bool
deriving DecidableEq, Repr, Inhabited

/-- How many ticks there were. -/
structure TickCounters where
  total : Nat := 0
  /-- Ticks whose program counter lay in no code. -/
  unaccounted : Nat := 0
  byState : Tally VmState := []
deriving Repr, Inhabited

/-- The functions that stand for the engine itself. -/
inductive PseudoFunction where
  | root
  | program
  | idle
  | gc
  | unresolved
deriving DecidableEq, Repr

namespace PseudoFunction

/-- The name of a pseudo function. -/
def label : PseudoFunction → String
  | .root => CallTree.rootLabel
  | .program => "(program)"
  | .idle => "(idle)"
  | .gc => "(gc)"
  | .unresolved => "(unresolved function)"

/-- The pseudo functions in the order of their ids. -/
def all : List PseudoFunction :=
  [.root, .program, .idle, .gc, .unresolved]

/-- The code entry of a pseudo function; they are the first entries of a profile. -/
def id : PseudoFunction → CodeId
  | .root => ⟨0⟩
  | .program => ⟨1⟩
  | .idle => ⟨2⟩
  | .gc => ⟨3⟩
  | .unresolved => ⟨4⟩

/-- The function that a tick without a usable stack is attributed to. -/
def ofState : VmState → PseudoFunction
  | .gc => .gc
  | .idle | .idleExternal => .idle
  | _ => .program

end PseudoFunction

/-- A profile. -/
structure Profile where
  codeMap : CodeMap
  /-- The call tree, outermost calls at the top, and its supply of ids. -/
  growing : GrowingTree
  samples : Array Sample := #[]
  scripts : ScriptRegistry := {}
  skip : SkipFilter
  samplingRate : Float
  /-- Through which native functions the engine was entered, and how often. -/
  nativeEntries : Tally String := []
  counters : TickCounters := {}
  unknownCode : Array UnknownCode := #[]
  startTime : Option UInt64 := none
  endTime : Option UInt64 := none
  finalized : Bool := false
  /-- A tick fell on calls that stand in one another in a circle. Recording such a
  tick never ends, so nobody ever gets to see a profile that says so. -/
  endless : Bool := false

namespace Profile

/-- A profile without events. -/
def new (settings : ProfileSettings) (provider : ScriptProvider) : Profile where
  codeMap := PseudoFunction.all.foldl
    (fun map function => (map.addDetached (CodeEntry.pseudo function.label)).2) CodeMap.empty
  growing := GrowingTree.fresh CallTree.rootLabel (some PseudoFunction.root.id)
  scripts := { provider }
  skip := settings.skipFilter
  samplingRate := settings.samplingRate

/-- The call tree. -/
def tree (profile : Profile) : CallTree :=
  profile.growing.tree

/-- The entry behind an id. -/
def entry (profile : Profile) (id : CodeId) : CodeEntry :=
  profile.codeMap.entry id

/-- The outcome of a change to a profile. -/
abbrev Outcome (Result : Type) := Except Fault Result × Profile

/-- Make a change, unless the profile has been finalized. -/
def whileRecording {Result : Type} (operation : ProfileOperation) (profile : Profile)
    (change : Profile → Outcome Result) : Outcome Result :=
  if profile.finalized then (.error (.illegalState (.finalized operation)), profile)
  else change profile

/-- Put a reference to unknown code on record. -/
def reportUnknown (profile : Profile) (unknown : UnknownCode) : Profile :=
  { profile with unknownCode := profile.unknownCode.push unknown }

/-- Register a library at `[start, stop)`. -/
def addLibrary (profile : Profile) (name : String) (start stop : UInt64) : Outcome CodeId :=
  profile.whileRecording .addLibrary fun profile =>
    let entry := CodeEntry.plain (Number.saturatingSub stop start) name CodeEntry.libraryType
    let (id, codeMap) := profile.codeMap.addLibrary start entry
    (.ok id, { profile with codeMap })

/-- Register a native function at `[start, stop)`. -/
def addStaticCode (profile : Profile) (name : String) (start stop : UInt64) : Outcome CodeId :=
  profile.whileRecording .addStaticCode fun profile =>
    let entry := CodeEntry.plain (Number.saturatingSub stop start) name CodeEntry.nativeType
    let (id, codeMap) := profile.codeMap.addStaticCode start entry
    (.ok id, { profile with codeMap })

/-- What the log says about a new piece of generated code. -/
structure CodeCreation where
  codeType : String
  name : String
  timestamp : UInt64
  start : UInt64
  size : UInt64
  kind : Option CodeKind

/-- Register generated code of no known function. -/
def addCode (profile : Profile) (creation : CodeCreation) : Outcome CodeId :=
  profile.whileRecording .addCode fun profile =>
    let entry := { CodeEntry.dynamic creation.size creation.name creation.codeType with
      kind := creation.kind, timestamp := some creation.timestamp }
    let (id, codeMap) := profile.codeMap.addCode creation.start entry
    (.ok id, { profile with codeMap })

/-- The function at an address, under the name reported last. It is created when
there is none. -/
def functionAt (map : CodeMap) (address : UInt64) (name : String) : CodeId × CodeMap :=
  match map.dynamicAt address with
  | (some function, map) => (function, map.modifyEntry function fun entry => { entry with name })
  | (none, map) => map.addCode address (CodeEntry.sharedFunction name)

/-- Whether the entry `existing` is the reported code, reported before. -/
def isReported (map : CodeMap) (existing function : CodeId) (size : UInt64) : Bool :=
  let entry := map.entry existing
  entry.size == size && entry.function? == some function

/-- Register generated code of the function at `address`. Code reported before
with the same size and function only takes on its new tier. -/
def addFunctionCode (profile : Profile) (creation : CodeCreation) (address : UInt64)
    (state : FunctionState) : Outcome CodeId :=
  profile.whileRecording .addFunctionCode fun profile =>
    let (function, map) := functionAt profile.codeMap address creation.name
    let place (map : CodeMap) : Outcome CodeId :=
      let entry := { CodeEntry.compiled creation.size creation.codeType function state with
        kind := creation.kind, timestamp := some creation.timestamp }
      let (id, codeMap) := map.addCode creation.start entry
      (.ok id, { profile with codeMap })
    match map.dynamicAt creation.start with
    | (none, map) => place map
    | (some existing, map) =>
      if isReported map existing function creation.size then
        let codeMap := map.modifyEntry existing fun entry =>
          { entry with
            flavor := .compiled function state
            kind := creation.kind.or entry.kind }
        (.ok existing, { profile with codeMap })
      else place (map.deleteCode creation.start).2

/-- Relocate generated code. Where there is none, that is reported and no fault. -/
def moveCode (profile : Profile) (source target : UInt64) : Outcome Unit :=
  profile.whileRecording .moveCode fun profile =>
    match profile.codeMap.moveCode source target with
    | (.ok (), codeMap) => (.ok (), { profile with codeMap })
    | (.error (.codeNotFound address), codeMap) =>
      (.ok (), reportUnknown { profile with codeMap } { operation := .move, address })
    | (.error fault, codeMap) => (.error fault, { profile with codeMap })

/-- Drop generated code. Where there is none, that is reported and no fault. -/
def deleteCode (profile : Profile) (start : UInt64) : Outcome Unit :=
  profile.whileRecording .deleteCode fun profile =>
    match profile.codeMap.deleteCode start with
    | (some _, codeMap) => (.ok (), { profile with codeMap })
    | (none, codeMap) =>
      (.ok (), reportUnknown { profile with codeMap } { operation := .delete, address := start })

/-- Relocate a function. Nothing happens where there is none. -/
def moveFunction (profile : Profile) (source target : UInt64) : Outcome Unit :=
  profile.whileRecording .moveFunction fun profile =>
    match profile.codeMap.dynamicAt source with
    | (none, codeMap) => (.ok (), { profile with codeMap })
    | (some _, codeMap) =>
      let (result, codeMap) := codeMap.moveCode source target
      (result, { profile with codeMap })

/-- A source mapping as the log writes it. -/
structure SourceRecord where
  scriptId : UInt32
  start : UInt64
  stop : UInt64
  positions : String
  inlining : String
  functions : String

/-- Attach a source mapping to the code that starts at `start`, and see to the
text of its script. -/
def addSourcePositions (profile : Profile) (start : UInt64) (record : SourceRecord) :
    Outcome Unit :=
  profile.whileRecording .addSourcePositions fun profile =>
    match profile.codeMap.dynamicAt start with
    | (none, codeMap) => (.ok (), { profile with codeMap })
    | (some id, codeMap) =>
      match PositionText.sourceInfo record.scriptId record.start record.stop record.positions
          record.inlining record.functions with
      | .error fault => (.error fault, { profile with codeMap })
      | .ok info =>
        let codeMap := codeMap.modifyEntry id fun entry => { entry with source := some info }
        let (result, scripts) := profile.scripts.ensureSource record.scriptId
        (result, { profile with codeMap, scripts })

/-- Record the text of a script. -/
def addScriptSource (profile : Profile) (id : UInt32) (url text : String) : Outcome Unit :=
  profile.whileRecording .addScript fun profile =>
    (.ok (), { profile with scripts := profile.scripts.addSource id url text })

/-- Record a script without its text. -/
def addScriptDetails (profile : Profile) (id : UInt32) (url : String) : Outcome Unit :=
  profile.whileRecording .addScript fun profile =>
    (.ok (), { profile with scripts := profile.scripts.addDetails id url })

/-- Attach the reason of a deopt to the code covering an address. -/
def addDeoptReason (profile : Profile) (address : UInt64) (reason : String) :
    Outcome (Option CodeId) :=
  profile.whileRecording .addDeopt fun profile =>
    match profile.codeMap.lookup? address with
    | none => (.ok none, profile)
    | some located =>
      let codeMap := profile.codeMap.modifyEntry located.id fun entry =>
        { entry with deoptReasons := entry.deoptReasons ++ [reason] }
      (.ok (some located.id), { profile with codeMap })

/-- The live functions with a bare name. -/
def functionsNamed (map : CodeMap) (name : String) : List CodeId :=
  (map.dynamics.toList.map (·.2)).filter fun id =>
    (map.entry id).isSharedFunction && (map.entry id).bareName == name

/-- Mark every function of a name as never optimized again; the number marked. -/
def disableOptimization (profile : Profile) (name reason : String) : Outcome Nat :=
  profile.whileRecording .disableOptimization fun profile =>
    let functions := functionsNamed profile.codeMap name
    let codeMap := functions.foldl
      (fun map id => map.modifyEntry id fun entry =>
        { entry with optimizationDisabled := some reason }) profile.codeMap
    (.ok functions.length, { profile with codeMap })

end Profile

end JitTrace
