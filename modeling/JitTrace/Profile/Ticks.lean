import JitTrace.Profile.Basic
import JitTrace.Profile.Frames

/-!
# Ticks

A tick is a stack of addresses. Each is resolved to the calls it stands for, the
skipped categories are dropped, and what is left is a path in the call tree. On
the way, ticks in native code tell through which function the engine was left.
-/

namespace JitTrace

/-- A tick as the log gives it. -/
structure Tick where
  programCounter : UInt64
  timestamp : UInt64
  inCallback : Bool
  /-- The callback that is running, or else the top of the stack, if known. -/
  callbackOrTop : UInt64
  vmState : VmState
  /-- Return addresses, innermost first. -/
  stack : List UInt64
deriving Repr

namespace Profile

/-- The search for the native function through which generated code was left. It
starts when the innermost frame is native, and ends at the first other frame
behind a native function. -/
structure NativeEntrySearch where
  active : Bool := false
  /-- The last native function seen. -/
  candidate : Option String := none
deriving Repr, DecidableEq

/-- What one address of a stack resolves to. -/
structure ResolvedAddress where
  located : Option Located
  /-- The type of the code there. -/
  codeType : Option String
  /-- The rendered name of the code there. -/
  label : String
  /-- The calls the address stands for, before any are dropped. -/
  frames : List LogicalFrame := []
  /-- There is no end of these calls. -/
  endless : Bool := false
deriving Repr

/-- Resolve one address. -/
def resolveAddress (map : CodeMap) (address : UInt64) (isReturnAddress : Bool) :
    ResolvedAddress × CodeMap :=
  match map.findAddress address with
  | (none, map) => ({ located := none, codeType := none, label := "" }, map)
  | (some located, map) =>
    let label := map.displayName located.id
    let codeType := (map.entry located.id).codeType
    let (frames?, map) := map.expandFrame? located isReturnAddress
    ({ located := some located
       codeType := some codeType
       label
       frames := frames?.getD []
       endless := frames?.isNone }, map)

/-- Advance the search for a native entry by one frame; the function found, if
the search ends here. -/
def NativeEntrySearch.step (search : NativeEntrySearch) (isInnermost : Bool)
    (resolved : ResolvedAddress) : Option String × NativeEntrySearch :=
  let isNative := resolved.codeType == some CodeEntry.nativeType
  let isLibrary := resolved.codeType == some CodeEntry.libraryType
  let active := search.active || (isInnermost && (isNative || isLibrary))
  let candidate := if active && isNative then some resolved.label else search.candidate
  if active && !isInnermost && !isNative then
    match candidate with
    | some name => (some name, { active := false, candidate := none })
    | none => (none, { active, candidate })
  else (none, { active, candidate })

/-- Where the stack of a tick comes from. -/
structure StackKind where
  /-- The innermost frame is a callback that was called from outside. -/
  inCallback : Bool
  /-- The second frame is the top of the stack. -/
  hasTop : Bool
deriving Repr, DecidableEq

/-- The frame that stands for a caller which cannot be known. -/
def unresolvedFrame : LogicalFrame where
  entry := PseudoFunction.unresolved.id
  label := PseudoFunction.unresolved.label

/-- The calls that an address adds to the logical stack: those not skipped, and
the unknown caller when an apply builtin was running innermost. -/
def logicalFrames (skip : SkipFilter) (kind : StackKind) (isInnermost : Bool)
    (resolved : ResolvedAddress) : List LogicalFrame :=
  let kept := resolved.frames.filter fun frame => !Skip.skips skip frame.label
  if isInnermost && !kind.inCallback && !kind.hasTop && Skip.isApplyBuiltin resolved.label then
    kept ++ [unresolvedFrame]
  else kept

/-- Put an address without code on record; a program counter is counted. -/
def reportMissing (profile : Profile) (position : Nat) (address : UInt64) : Profile :=
  let profile :=
    if position == 0 then
      { profile with counters :=
          { profile.counters with unaccounted := profile.counters.unaccounted + 1 } }
    else profile
  profile.reportUnknown { operation := .tick, address, stackPosition := some position }

/-- Count an entry through a native function. -/
def countNativeEntry (profile : Profile) : Option String → Profile
  | none => profile
  | some name => { profile with nativeEntries := Tally.bump name profile.nativeEntries }

/-- The logical stack of the addresses from `position` on, innermost first. -/
def resolveStack (kind : StackKind) (position : Nat) (search : NativeEntrySearch)
    (profile : Profile) : List UInt64 → List LogicalFrame × Profile
  | [] => ([], profile)
  | address :: stack =>
    let isInnermost := position == 0
    let (resolved, codeMap) := resolveAddress profile.codeMap address !isInnermost
    let profile := { profile with codeMap, endless := profile.endless || resolved.endless }
    let profile :=
      if resolved.located.isNone then profile.reportMissing position address else profile
    let (entered, search) := search.step isInnermost resolved
    let profile := profile.countNativeEntry entered
    let frames := logicalFrames profile.skip kind isInnermost resolved
    let (outer, profile) := resolveStack kind (position + 1) search profile stack
    (frames ++ outer, profile)

/-- The addresses of a tick, innermost first. In a callback the program counter
may point into the callback itself, so the callback takes its place. Otherwise
the top of the stack counts only when it lies in the code of a function. -/
def Tick.physicalStack (map : CodeMap) (tick : Tick) : StackKind × List UInt64 :=
  if tick.inCallback then
    (⟨true, false⟩, tick.callbackOrTop :: tick.stack)
  else
    let isFunction :=
      match map.lookup? tick.callbackOrTop with
      | some located => (map.entry located.id).isCompiledFunction
      | none => false
    if tick.callbackOrTop != 0 && isFunction then
      (⟨false, true⟩, tick.programCounter :: tick.callbackOrTop :: tick.stack)
    else
      (⟨false, false⟩, tick.programCounter :: tick.stack)

/-- The source line of a frame, where its script's text is known. -/
def lineOf? (profile : Profile) (frame : LogicalFrame) : Option Nat := do
  let scriptId ← frame.scriptId
  let offset ← frame.scriptOffset
  profile.scripts.lineOf? scriptId offset

/-- Take note of a time. -/
def observeTime (profile : Profile) (timestamp : UInt64) : Profile :=
  { profile with
    startTime := some (match profile.startTime with
      | some time => min time timestamp
      | none => timestamp)
    endTime := some (match profile.endTime with
      | some time => max time timestamp
      | none => timestamp) }

/-- Count a tick. -/
def countTick (profile : Profile) (state : VmState) : Profile :=
  { profile with counters :=
      { profile.counters with
        total := profile.counters.total + 1
        byState := Tally.bump state profile.counters.byState } }

/-- Where a tick is attributed to. -/
structure Attribution where
  /-- The path in the call tree, outermost call first. -/
  path : List (String × Option CodeId)
  line : Option Nat
  system : Bool
deriving Repr

/-- Attribute a logical stack, innermost frame first. An empty one belongs to the
pseudo function of the engine's state. -/
def attributionOf (profile : Profile) (state : VmState) (frames : List LogicalFrame) :
    Attribution :=
  match frames with
  | [] =>
    let function := (PseudoFunction.ofState state).id
    { path := [(profile.codeMap.displayName function, some function)]
      line := none
      system := true }
  | leaf :: _ =>
    { path := frames.reverse.map fun frame => (frame.label, some frame.entry)
      line := profile.lineOf? leaf
      system := false }

/-- Add an attributed tick to the call tree and the samples. -/
def addSample (profile : Profile) (tick : Tick) (attribution : Attribution) :
    NodeIndex × Profile :=
  let (node, growing) := profile.growing.addPath attribution.path
  let growing := growing.mapTree fun tree => tree.recordSample node attribution.line
  let sample : Sample :=
    { node
      timestamp := tick.timestamp
      line := attribution.line
      vmState := tick.vmState
      system := attribution.system }
  (node, { profile with growing, samples := profile.samples.push sample })

/-- Record a tick; the node it is counted at. -/
def recordTick (profile : Profile) (tick : Tick) : Outcome NodeIndex :=
  profile.whileRecording .recordTick fun profile =>
    let profile := (profile.observeTime tick.timestamp).countTick tick.vmState
    let (kind, stack) := Tick.physicalStack profile.codeMap tick
    let (frames, profile) := profile.resolveStack kind 0 {} stack
    let (node, profile) := profile.addSample tick (profile.attributionOf tick.vmState frames)
    (.ok node, profile)

end Profile

end JitTrace
