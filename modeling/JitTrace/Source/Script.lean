import JitTrace.Fault

/-!
# Scripts

The scripts of a profile by id, with their text where it is known. Text that the
log does not carry is requested from a provider, at most once for each script.
-/

namespace JitTrace

/-- Where the text of a script comes from; `none` when there is no such script. -/
abbrev ScriptProvider := String → Except Fault (Option String)

/-- The provider that has no script. -/
def ScriptProvider.none : ScriptProvider := fun _ => .ok .none

/-- The byte offsets at which lines begin, after a line that begins before
`offset`. -/
def lineStartsFrom (offset : Nat) : List Char → List Nat
  | [] => []
  | c :: rest =>
    if c == '\n' then (offset + 1) :: lineStartsFrom (offset + 1) rest
    else lineStartsFrom (offset + c.utf8Size) rest

/-- The byte offsets at which the lines of a text begin. -/
def lineStarts (text : String) : List Nat :=
  0 :: lineStartsFrom 0 text.toList

/-- A line, counted from one, and the bytes before a place in it. -/
structure LineColumn where
  line : Nat
  column : Nat
deriving Repr, DecidableEq

/-- The place of an offset among lines that begin at these offsets. Lines and columns
are numbers of 32 bits. -/
def LineColumn.of (starts : List Nat) (offset : Nat) : LineColumn :=
  let begun := starts.takeWhile (· ≤ offset)
  ⟨begun.length % UInt32.size, (offset - begun.getLastD 0) % UInt32.size⟩

/-- A script. -/
structure Script where
  id : UInt32
  url : String
  text : Option String := none
  /-- Where the lines of the text begin, found when first asked for. -/
  starts : Thunk (List Nat) := .pure []

namespace Script

/-- Give a script its text, whose lines are yet to be found. -/
def setText (script : Script) (text : String) : Script :=
  { script with text := some text, starts := .mk fun _ => lineStarts text }

/-- The byte offsets at which the lines of a script begin. -/
def lineStarts? (script : Script) : Option (List Nat) :=
  script.text.map fun _ => script.starts.get

/-- The line and column of a byte offset into a script whose text is known; none beyond
the end of the text. -/
def lineColumn? (script : Script) (offset : UInt64) : Option LineColumn := do
  let text ← script.text
  if text.utf8ByteSize < offset.toNat then none
  else
    let starts ← script.lineStarts?
    return .of starts offset.toNat

end Script

/-- The scripts of a profile. -/
structure ScriptRegistry where
  provider : ScriptProvider := ScriptProvider.none
  /-- Sorted by id. -/
  scripts : List Script := []
  /-- Scripts whose text is in the log or has been requested. -/
  settled : List UInt32 := []
  /-- The urls that the provider has been asked for, the latest first. -/
  requests : List (UInt32 × String) := []

namespace ScriptRegistry

/-- The script with an id. -/
def get? (registry : ScriptRegistry) (id : UInt32) : Option Script :=
  registry.scripts.find? fun script => script.id == id

/-- Replace the script with the id of `script`, or add it in its place. -/
def put (script : Script) : List Script → List Script
  | [] => [script]
  | other :: rest =>
    if script.id < other.id then script :: other :: rest
    else if script.id == other.id then script :: rest
    else other :: put script rest

/-- Record the text of a script. A known script takes a new url if there is one. -/
def addSource (registry : ScriptRegistry) (id : UInt32) (url text : String) : ScriptRegistry :=
  let known := (registry.get? id).getD { id, url }
  let url := if url.isEmpty then known.url else url
  { registry with
    scripts := put ({ known with url }.setText text) registry.scripts
    settled := id :: registry.settled }

/-- Record a script without text. A known script keeps its url if it has one. -/
def addDetails (registry : ScriptRegistry) (id : UInt32) (url : String) : ScriptRegistry :=
  let known := (registry.get? id).getD { id, url }
  let url := if known.url.isEmpty then url else known.url
  { registry with scripts := put { known with url } registry.scripts }

/-- Make sure that a known script has its text if there is any, asking the
provider the first time only. -/
def ensureSource (registry : ScriptRegistry) (id : UInt32) :
    Except Fault Unit × ScriptRegistry :=
  match registry.get? id with
  | none => (.ok (), registry)
  | some script =>
    if registry.settled.contains id then (.ok (), registry)
    else
      let registry := { registry with settled := id :: registry.settled }
      if script.text.isSome then (.ok (), registry)
      else
        let registry := { registry with requests := (id, script.url) :: registry.requests }
        match registry.provider script.url with
        | .error fault => (.error fault, registry)
        | .ok none => (.ok (), registry)
        | .ok (some text) =>
          (.ok (), { registry with scripts := put (script.setText text) registry.scripts })

/-- The line of an offset into a script. -/
def lineOf? (registry : ScriptRegistry) (id : UInt32) (offset : UInt64) : Option Nat := do
  let script ← registry.get? id
  let place ← script.lineColumn? offset
  return place.line

end ScriptRegistry

end JitTrace
