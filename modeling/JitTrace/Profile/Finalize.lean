import JitTrace.Profile.Basic

/-!
# Finalizing a profile

Finalizing drops functions that no live code was compiled from, gives lone
samples of the engine to the code around them, and computes the totals of the
call tree. A finalized profile never changes again.
-/

namespace JitTrace

/-- What finalizing did. -/
structure FinalizeCounts where
  prunedFunctions : Nat := 0
  smoothedSamples : Nat := 0
deriving DecidableEq, Repr

namespace Profile

/-- The functions that live code was compiled from. -/
def usedFunctions (map : CodeMap) : List CodeId :=
  map.dynamics.toList.filterMap fun (_, id) => (map.entry id).function?

/-- Drop the functions that no live code was compiled from; their number. -/
def pruneFunctions (map : CodeMap) : Nat × CodeMap :=
  let used := usedFunctions map
  map.retainDynamic fun _ id entry => !entry.isSharedFunction || used.contains id

/-- Whether a sample between two others is given to the first of them: it fell on
the engine, its neighbours on code, and both below the same outermost call. -/
def isLone (tree : CallTree) (program : NodeIndex) (previous current next : Sample) : Bool :=
  current.node == program && !previous.system && !next.system &&
    (tree.topLevelAncestor? previous.node).isSome &&
    tree.topLevelAncestor? previous.node == tree.topLevelAncestor? next.node

/-- Samples during smoothing. -/
structure Smoothing where
  tree : CallTree
  samples : Array Sample
  moved : Nat := 0

/-- Look at the sample at `index`, which has a neighbour on either side. A lone one
takes the place of its predecessor and counts as code from then on. -/
def Smoothing.step (program : NodeIndex) (smoothing : Smoothing) (index : Nat) : Smoothing :=
  let previous := smoothing.samples.getD (index - 1) default
  let current := smoothing.samples.getD index default
  let next := smoothing.samples.getD (index + 1) default
  if isLone smoothing.tree program previous current next then
    { tree := smoothing.tree.moveSample current.node current.line previous.node previous.line
      samples := smoothing.samples.setIfInBounds index
        { current with node := previous.node, line := previous.line, system := false }
      moved := smoothing.moved + 1 }
  else smoothing

/-- Give lone samples of the engine to the code around them, first to last. -/
def smooth (tree : CallTree) (samples : Array Sample) : Smoothing :=
  match tree.findChild? 0 PseudoFunction.program.label with
  | none => { tree, samples }
  | some program =>
    (List.range' 1 (samples.size - 2)).foldl (Smoothing.step program) { tree, samples }

/-- Finalize a profile. Doing so again changes nothing. -/
def finalize (profile : Profile) : FinalizeCounts × Profile :=
  if profile.finalized then ({}, profile)
  else
    let (prunedFunctions, codeMap) := pruneFunctions profile.codeMap
    let smoothing := smooth profile.tree profile.samples
    ({ prunedFunctions, smoothedSamples := smoothing.moved },
      { profile with
        codeMap
        samples := smoothing.samples
        growing := { profile.growing with tree := smoothing.tree.computeTotals }
        finalized := true })

end Profile

end JitTrace
