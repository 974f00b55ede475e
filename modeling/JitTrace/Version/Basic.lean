/-!
# Engine versions

The version of the JavaScript engine that wrote a log. The encodings of several
fields changed over time, so nearly every record is read relative to one.
-/

namespace JitTrace

/-- A version `major.minor.build`; a patch number plays no part. -/
structure Version where
  major : UInt32
  minor : UInt32
  build : UInt32
deriving DecidableEq, Repr, Hashable

namespace Version

/-- Newer than every real version: the encodings in force when the log does not
say which version wrote it. -/
def latest : Version :=
  ⟨0xffffffff, 0xffffffff, 0xffffffff⟩

instance : Inhabited Version := ⟨latest⟩

/-- Whether `version` is at least as new as `bound`: the major number decides,
then the minor number, then the build. -/
def isAtLeast (version bound : Version) : Bool :=
  if version.major != bound.major then bound.major < version.major
  else if version.minor != bound.minor then bound.minor < version.minor
  else bound.build ≤ version.build

/-- The usual written form. -/
def text (version : Version) : String :=
  if version = latest then "latest"
  else s!"{version.major.toNat}.{version.minor.toNat}.{version.build.toNat}"

end Version

end JitTrace
