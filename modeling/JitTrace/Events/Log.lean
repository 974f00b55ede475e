import JitTrace.Events.History
import JitTrace.Source.Location
import JitTrace.Version.Enumerations

/-!
# The event log

The events of a log that are no part of its profile: deopts and inline cache
transitions by the position they happened at, the history of every object map,
and the functions that the engine gave up optimizing.
-/

namespace JitTrace

/-- A deopt. -/
structure DeoptUpdate where
  /-- In microseconds. -/
  timestamp : UInt64
  kind : DeoptimizeKind
  reason : String
  /-- The deoptimized code, when it was known. -/
  functionName : Option String
  inliningId : Int64
deriving Repr, DecidableEq

/-- A transition of an inline cache. -/
structure IcUpdate where
  timestamp : UInt64
  /-- The kind of inline cache, such as `LoadIC`. -/
  icType : String
  oldState : IcState
  newState : IcState
  map : UInt64
  key : String
  modifier : String
  slowReason : String
  functionName : Option String
deriving Repr, DecidableEq

/-- What happened to a map. -/
inductive MapEvent where
  | create
  | details
  | transition
deriving DecidableEq, Repr

/-- The name of a map event in reports. -/
def MapEvent.name : MapEvent → String
  | .create => "Create"
  | .details => "Details"
  | .transition => "Transition"

/-- An event of a map. -/
structure MapUpdate where
  timestamp : UInt64
  event : MapEvent
  /-- The type of a transition, or the text of details. -/
  detail : String := ""
  /-- The map that a transition started from. -/
  origin : Option UInt64 := none
  reason : String := ""
  name : String := ""
  position : Option FilePosition := none
deriving Repr, DecidableEq

/-- A function that the engine gave up optimizing. -/
structure DisabledOptimization where
  functionName : String
  reason : String
deriving Repr, DecidableEq

/-- The deopts at one position. -/
abbrev DeoptEntry := HistoryEntry FilePosition DeoptUpdate

/-- The transitions of the inline caches at one position. -/
abbrev IcEntry := HistoryEntry FilePosition IcUpdate

/-- The events of one map. -/
abbrev MapEntry := HistoryEntry UInt64 MapUpdate

/-- The most severe kind of deopt at a position. -/
def worstKind? (entry : DeoptEntry) : Option DeoptimizeKind :=
  highest? DeoptimizeKind.severity (entry.updates.map (·.kind))

/-- The most polymorphic state that was reached at a position. -/
def worstState? (entry : IcEntry) : Option IcState :=
  highest? IcState.severity (entry.updates.map (·.newState))

/-- The maps seen by the inline caches at a position, in the order in which they
were first seen. -/
def mapsSeen (entry : IcEntry) : List UInt64 :=
  ((entry.updates.map (·.map)).filter (· != 0)).eraseDups

/-- The latest details of a map. -/
def mapDetails? (entry : MapEntry) : Option String :=
  ((entry.updates.reverse.find? fun update => update.event == .details)).map (·.detail)

/-- The map that a map was last seen to come from. -/
def mapParent? (entry : MapEntry) : Option UInt64 :=
  entry.updates.reverse.findSome? (·.origin)

/-- All events of a log that are no part of its profile. -/
structure EventLog where
  deopts : History FilePosition DeoptUpdate := {}
  ics : History FilePosition IcUpdate := {}
  maps : History UInt64 MapUpdate := {}
  disabled : List DisabledOptimization := []

namespace EventLog

/-- Record a deopt. -/
def addDeopt (log : EventLog) (position : FilePosition) (update : DeoptUpdate) : EventLog :=
  { log with deopts := log.deopts.add position update }

/-- Record a transition of an inline cache. -/
def addIc (log : EventLog) (position : FilePosition) (update : IcUpdate) : EventLog :=
  { log with ics := log.ics.add position update }

/-- Record an event of a map. -/
def addMapUpdate (log : EventLog) (id : UInt64) (update : MapUpdate) : EventLog :=
  { log with maps := log.maps.add id update }

/-- Record a function that the engine gave up optimizing. -/
def addDisabled (log : EventLog) (disabled : DisabledOptimization) : EventLog :=
  { log with disabled := log.disabled ++ [disabled] }

/-- The deopts at a position. -/
def deoptAt? (log : EventLog) (position : FilePosition) : Option DeoptEntry :=
  log.deopts.get? position

/-- The transitions of the inline caches at a position. -/
def icAt? (log : EventLog) (position : FilePosition) : Option IcEntry :=
  log.ics.get? position

/-- The events of a map. -/
def map? (log : EventLog) (id : UInt64) : Option MapEntry :=
  log.maps.get? id

/-- Order by a rank, highest first, and among equals by position. -/
def rankedBefore {Update : Type} (rank : HistoryEntry FilePosition Update → Nat)
    (left right : HistoryEntry FilePosition Update) : Bool :=
  if rank left = rank right then (FilePosition.compare left.key right.key).isLE
  else rank right < rank left

/-- The positions of deopts, those with the most deopts first. -/
def deoptsByCount (log : EventLog) : List DeoptEntry :=
  log.deopts.toList.mergeSort (rankedBefore fun entry => entry.updates.length)

/-- The rank of a position's worst inline cache state. -/
def icSeverity (entry : IcEntry) : Nat :=
  match worstState? entry with
  | some state => state.severity
  | none => 0

/-- The positions of inline caches, the most polymorphic ones first. -/
def icsBySeverity (log : EventLog) : List IcEntry :=
  log.ics.toList.mergeSort (rankedBefore icSeverity)

end EventLog

end JitTrace
