import JitTrace.Fault
import JitTrace.Text.Blank

/-!
# Reading versions and version bounds

Versions are written `latest`, `X`, `X.Y` or `X.Y.Z`; further components, such as
a patch number, are read and ignored. A bound `>=X.Y.Z` or `*` says from which
version on an encoding is in force.
-/

namespace JitTrace

namespace Version

/-- Whether two texts agree up to the case of ASCII letters. -/
def sameIgnoringCase (left right : List Char) : Bool :=
  left.map Char.toLower == right.map Char.toLower

/-- The components of a version that is not the word for the newest one. -/
def components? (cs : List Char) : Option (List UInt32) :=
  (cs.splitOn '.').mapM Number.word32?

/-- Read a version. Missing components are zero. -/
def parse (raw : String) : Except Fault Version :=
  let cs := Text.trim raw.toList
  if sameIgnoringCase cs "latest".toList || sameIgnoringCase cs "max".toList then
    .ok latest
  else
    match components? cs with
    | none => .error (.parse (.version (String.ofList cs)))
    | some parts =>
      .ok ⟨parts.getD 0 0, parts.getD 1 0, parts.getD 2 0⟩

end Version

/-- From which version on an encoding is in force. -/
inductive VersionBound where
  | atLeast (version : Version)
  | any
deriving DecidableEq, Repr

namespace VersionBound

/-- Whether a version satisfies the bound. -/
def admits (bound : VersionBound) (version : Version) : Bool :=
  match bound with
  | .atLeast lower => version.isAtLeast lower
  | .any => true

/-- The written form of a bound. -/
def text : VersionBound → String
  | .atLeast lower => ">=" ++ lower.text
  | .any => "*"

/-- Read a bound. -/
def parse (raw : String) : Except Fault VersionBound :=
  match Text.trim raw.toList with
  | ['*'] => .ok .any
  | '>' :: '=' :: rest => (Version.parse (String.ofList rest)).map .atLeast
  | cs => .error (.configuration (.unsupportedBound (String.ofList cs)))

end VersionBound

end JitTrace
