import JitTrace.CallTree.Report
import JitTrace.CallTree.View
import JitTrace.Profile.Basic

/-!
# Questions to a profile

What a profile can be asked. Trees derived from its call tree draw their ids from
the profile's supply, so those questions leave a profile behind whose supply has
moved on.
-/

namespace JitTrace

/-- A row of the listing of native entries. -/
structure NativeEntry where
  name : String
  ticks : Nat
deriving DecidableEq, Repr

namespace Profile

/-- The code covering an address. -/
def findEntry? (profile : Profile) (address : UInt64) : Option CodeId :=
  (profile.codeMap.lookup? address).map (·.id)

/-- The entry whose name tells the location of some code: its function where that
is known. -/
def namedEntry (profile : Profile) (id : CodeId) : CodeEntry :=
  let entry := profile.entry id
  match entry.function? with
  | some function => profile.entry function
  | none => entry

/-- The url of the script that code was compiled from, or else the one behind its
function's name. -/
def scriptUrl? (profile : Profile) (id : CodeId) : Option String :=
  let script? := (profile.entry id).source.bind fun source => profile.scripts.get? source.scriptId
  let known? := (script?.map (·.url)).filter fun url => !url.isEmpty
  known?.or ((FilePosition.ofFunctionName? (profile.namedEntry id).name).map (·.uri))

/-- The order of the listing of native entries: by descending ticks, then by name. -/
def nativeEntryBefore (left right : NativeEntry) : Bool :=
  if left.ticks = right.ticks then left.name ≤ right.name else right.ticks < left.ticks

/-- The native functions through which the engine was entered, below a row with
their sum. -/
def nativeEntryListing (profile : Profile) : List NativeEntry :=
  let rows := profile.nativeEntries.map fun (name, ticks) => ⟨name, ticks⟩
  ⟨"TOTAL", Tally.total profile.nativeEntries⟩ :: rows.mergeSort nativeEntryBefore

/-- A question whose answer draws ids from the profile's supply. -/
def drawing {Answer : Type} (profile : Profile)
    (question : CallTree → IdSupply → Answer × IdSupply) : Answer × Profile :=
  let (answer, ids) := question profile.tree profile.growing.ids
  (answer, { profile with growing := { profile.growing with ids } })

/-- The inverted call tree. -/
def bottomUpTree (profile : Profile) : CallTree × Profile :=
  profile.drawing fun tree ids =>
    let inverted := tree.bottomUp ids
    (inverted.tree, inverted.ids)

/-- The flat tree of a region, or of the whole profile. -/
def flatTree (profile : Profile) (region : Option String) : CallTree × Profile :=
  profile.drawing fun tree ids =>
    let flat := tree.flat region ids
    (flat.tree, flat.ids)

/-- The most expensive functions. -/
def topFunctions (profile : Profile) (count : Nat) (kind : WeightKind) :
    List FunctionCost × Profile :=
  profile.drawing fun tree ids => tree.topFunctions count kind ids

/-- The call tree as a view. -/
def topDownView (profile : Profile) : ProfileView :=
  ProfileView.ofTree profile.tree profile.samplingRate false

/-- The inverted call tree as a view. -/
def bottomUpView (profile : Profile) : ProfileView × Profile :=
  let (tree, profile) := profile.bottomUpTree
  (ProfileView.ofTree tree profile.samplingRate true, profile)

/-- The flat tree as a view. -/
def flatView (profile : Profile) : ProfileView × Profile :=
  let (tree, profile) := profile.flatTree none
  (ProfileView.ofTree tree profile.samplingRate false, profile)

end Profile

end JitTrace
