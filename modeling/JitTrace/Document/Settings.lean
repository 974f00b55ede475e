import JitTrace.Document.Basic
import JitTrace.Settings

/-!
# Documents of settings

The documents of versions and settings.
-/

namespace JitTrace.Document

/-- A version. -/
def version (version : Version) : Json :=
  Json.ofMembers
    [("parts", list (fun part => nat part.toNat) [version.major, version.minor, version.build]),
      ("display", text version.text), ("max", .bool (version == Version.latest))]

/-- The settings with what follows from them. -/
def settings (settings : Settings) : Json :=
  let profile := settings.profile
  Json.ofMembers
    [("separate", list (.bool ·)
        [profile.separateInlineCaches, profile.separateBytecodes, profile.separateBuiltins,
          profile.separateStubs, profile.separateNativeLibraries]),
      ("skip_bits", nat profile.skipFilter.bits), ("sampling_rate", float profile.samplingRate),
      ("timed", list (.bool ·)
        [settings.reader.timedRange, settings.reader.pairwiseTimedRange]),
      ("version", optional text settings.version),
      ("override", result (optional version) settings.versionOverride),
      ("symbols_dir", optional text settings.symbolsDirectory)]

end JitTrace.Document
