import JitTrace.Json.Parser
import JitTrace.Json.Record
import JitTrace.Number.Decimal
import JitTrace.Version.Bound

/-!
# Settings

What a read can be told: which frames are kept apart in call trees, which parts
of the log count, and which version and symbols to assume. Settings come from a
JSON document in which everything may be left out.
-/

namespace JitTrace

/-- The categories of frames that are left out of logical stacks. -/
structure SkipFilter where
  inlineCaches : Bool := false
  bytecodes : Bool := false
  builtins : Bool := false
  stubs : Bool := false
  nativeLibraries : Bool := false
deriving DecidableEq, Repr

/-- The filter as a set of bits. -/
def SkipFilter.bits (filter : SkipFilter) : Nat :=
  filter.inlineCaches.toNat + 2 * filter.bytecodes.toNat + 4 * filter.builtins.toNat +
    8 * filter.stubs.toNat + 16 * filter.nativeLibraries.toNat

/-- How call trees are built. A category that is not kept apart is attributed to
its callers. -/
structure ProfileSettings where
  separateInlineCaches : Bool := true
  separateBytecodes : Bool := false
  separateBuiltins : Bool := true
  separateStubs : Bool := true
  separateNativeLibraries : Bool := true
  /-- The milliseconds that one sample stands for. -/
  samplingRate : Float := 1.0
deriving Repr, Inhabited

/-- The categories that are not kept apart. -/
def ProfileSettings.skipFilter (settings : ProfileSettings) : SkipFilter where
  inlineCaches := !settings.separateInlineCaches
  bytecodes := !settings.separateBytecodes
  builtins := !settings.separateBuiltins
  stubs := !settings.separateStubs
  nativeLibraries := !settings.separateNativeLibraries

/-- Which lines of a log count. -/
structure ReaderSettings where
  /-- Only lines between markers count, and all that are no ticks before them. -/
  timedRange : Bool := false
  /-- A range ends with every second marker instead of going on to the next. -/
  pairwiseTimedRange : Bool := false
deriving DecidableEq, Repr, Inhabited

/-- All settings of a read. -/
structure Settings where
  profile : ProfileSettings := {}
  reader : ReaderSettings := {}
  /-- Read the log as this version's, whatever it says itself. -/
  version : Option String := none
  /-- Where the symbol listings of native libraries are. -/
  symbolsDirectory : Option String := none
deriving Repr, Inhabited

namespace Settings

/-- Read the settings of call trees. -/
def readProfile? (document : Json) : Option ProfileSettings := do
  let fields ← Json.fields?
    ["separate_ic", "separate_bytecodes", "separate_builtins", "separate_stubs",
      "separate_native_libraries", "sampling_rate"] document
  match fields with
  | [inlineCaches, bytecodes, builtins, stubs, nativeLibraries, samplingRate] =>
    let standard : ProfileSettings := {}
    return {
      separateInlineCaches :=
        ← Json.optional? standard.separateInlineCaches Json.readBool? inlineCaches
      separateBytecodes := ← Json.optional? standard.separateBytecodes Json.readBool? bytecodes
      separateBuiltins := ← Json.optional? standard.separateBuiltins Json.readBool? builtins
      separateStubs := ← Json.optional? standard.separateStubs Json.readBool? stubs
      separateNativeLibraries :=
        ← Json.optional? standard.separateNativeLibraries Json.readBool? nativeLibraries
      samplingRate := ← Json.optional? standard.samplingRate Json.readFloat? samplingRate }
  | _ => none

/-- Read the settings of the reader. -/
def readReader? (document : Json) : Option ReaderSettings := do
  let fields ← Json.fields? ["timed_range", "pairwise_timed_range"] document
  match fields with
  | [timedRange, pairwise] =>
    return {
      timedRange := ← Json.optional? false Json.readBool? timedRange
      pairwiseTimedRange := ← Json.optional? false Json.readBool? pairwise }
  | _ => none

/-- Read all settings. -/
def read? (document : Json) : Option Settings := do
  let fields ← Json.fields? ["profile", "reader", "version", "symbols_dir"] document
  match fields with
  | [profile, reader, version, symbolsDirectory] =>
    return {
      profile := ← Json.optional? {} readProfile? profile
      reader := ← Json.optional? {} readReader? reader
      version := ← Json.optional? none (Json.nullable? Json.readText?) version
      symbolsDirectory :=
        ← Json.optional? none (Json.nullable? Json.readText?) symbolsDirectory }
  | _ => none

/-- The version that the log is read as, if one is set. -/
def versionOverride (settings : Settings) : Except Fault (Option Version) :=
  match settings.version with
  | none => .ok none
  | some raw => (Version.parse raw).map some

/-- Check what the form of the document does not: the sampling rate must be
positive and the version readable. -/
def validate (settings : Settings) : Except Fault Settings :=
  let rate := settings.profile.samplingRate
  if rate.isNaN || rate ≤ 0.0 then
    .error (.configuration (.samplingRate (Number.shortestText rate)))
  else settings.versionOverride.map fun _ => settings

/-- Read settings from the text of a document. -/
def ofText (text : String) : Except Fault Settings :=
  match (Json.parse? text).bind read? with
  | none => .error .json
  | some settings => settings.validate

end Settings

end JitTrace
