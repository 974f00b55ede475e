import JitTrace.Fault
import JitTrace.Text.Blank
import JitTrace.Text.Cut

/-!
# Source locations

A location is written `uri:line:column`. The uri may hold colons of its own, so
the numbers are taken from the end. The engine also appends a location to the
names of functions, behind their last space.
-/

namespace JitTrace

/-- A position in a script. Lines and columns count from one. -/
structure FilePosition where
  uri : String
  line : UInt32
  column : UInt32
deriving DecidableEq, Hashable, Repr

namespace FilePosition

/-- The written form. -/
def text (position : FilePosition) : String :=
  position.uri ++ ":" ++ toString position.line.toNat ++ ":" ++ toString position.column.toNat

/-- Order by uri, then line, then column. -/
def compare (left right : FilePosition) : Ordering :=
  ((Ord.compare left.uri right.uri).then (Ord.compare left.line right.line)).then
    (Ord.compare left.column right.column)

/-- Read `uri:line:column` with a non-empty uri. -/
def ofCharacters? (cs : List Char) : Option FilePosition := do
  let (before, columnText) ← Text.cutLast ':' cs
  let (uri, lineText) ← Text.cutLast ':' before
  let column ← Number.word32? columnText
  let line ← Number.word32? lineText
  if uri.isEmpty then none else some ⟨String.ofList uri, line, column⟩

/-- The text between angle brackets, or the whole text where there are none. -/
def withoutBrackets (cs : List Char) : List Char :=
  match cs with
  | '<' :: rest =>
    match rest.getLast? with
    | some '>' => rest.dropLast
    | _ => cs
  | _ => cs

/-- Read a position field, with or without angle brackets around it. -/
def parse (raw : String) : Except Fault FilePosition :=
  match ofCharacters? (withoutBrackets (Text.trim raw.toList)) with
  | some position => .ok position
  | none => .error (.parse (.sourcePosition raw))

/-- The location behind the last space of a function's name. A name without a
space may be nothing but a location. -/
def ofFunctionName? (name : String) : Option FilePosition :=
  match Text.cutLast ' ' name.toList with
  | some (_, location) => ofCharacters? location
  | none => ofCharacters? name.toList

end FilePosition

end JitTrace
