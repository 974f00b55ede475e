import JitTrace.CallTree.Walk
import JitTrace.CpuProfile.Basic
import JitTrace.Profile.Queries

/-!
# Exporting CPU profiles

The CPU profile document of a finalized profile: its call tree, each node before
the nodes below it, and its samples in the order of the log.
-/

namespace JitTrace.Profile

/-- The function that a node's code belongs to; none for code of no function. -/
def functionOf? (profile : Profile) (id : CodeId) : Option CodeEntry :=
  let code := profile.entry id
  match code.flavor with
  | .compiled function _ => some (profile.entry function)
  | .sharedFunction => some code
  | _ => none

/-- The location of a node that belongs to no function. -/
def unknownFrame (label : String) : CallFrame where
  functionName := label
  scriptId := "0"
  url := ""
  lineNumber := -1
  columnNumber := -1

/-- A line or column counted from one, counted from zero. -/
def fromZero (count : UInt32) : Int64 :=
  Int64.ofInt (count.toNat - 1)

/-- The function and location of a node. -/
def callFrame (profile : Profile) (label : String) (entry : Option CodeId) : CallFrame :=
  match entry with
  | none => unknownFrame label
  | some id =>
    match profile.functionOf? id with
    | none => unknownFrame label
    | some function =>
      let functionName := if function.bareName.isEmpty then "(anonymous)" else function.bareName
      let scriptId :=
        match (profile.entry id).source with
        | some source => toString source.scriptId.toNat
        | none => "0"
      match FilePosition.ofFunctionName? function.name with
      | some position =>
        { functionName
          scriptId
          url := (profile.scriptUrl? id).getD position.uri
          lineNumber := fromZero position.line
          columnNumber := fromZero position.column }
      | none =>
        { unknownFrame label with
          functionName
          scriptId
          url := (profile.scriptUrl? id).getD "" }

/-- A node of the document. -/
def exportNode (profile : Profile) (index : NodeIndex) : CpuProfileNode :=
  let tree := profile.tree
  let node := tree.node index
  { id := node.id
    callFrame := profile.callFrame node.label node.entry
    hitCount := .ofNat node.selfWeight
    children := node.children.toList.map fun child => (tree.node child).id
    deoptReason := node.entry.bind fun id => (profile.entry id).deoptReasons.getLast?
    positionTicks := node.lineTicks.map fun (line, ticks) => ⟨.ofNat line, .ofNat ticks⟩ }

/-- The times between samples, the first since `previous`. Samples may be out of
order, so a difference may be negative. -/
def deltasFrom (previous : UInt64) : List Sample → List Int64
  | [] => []
  | sample :: samples =>
    (sample.timestamp.toInt64 - previous.toInt64) :: deltasFrom sample.timestamp samples

/-- The CPU profile document of a finalized profile. -/
def cpuProfile (profile : Profile) : Except Fault CpuProfile :=
  if !profile.finalized then .error (.illegalState .notFinalized)
  else
    let startTime := profile.startTime.getD 0
    let samples := profile.samples.toList
    .ok
      { nodes := profile.tree.preOrder.map profile.exportNode
        startTime
        endTime := profile.endTime.getD startTime
        samples := samples.map fun sample => (profile.tree.node sample.node).id
        timeDeltas := deltasFrom startTime samples }

end JitTrace.Profile
