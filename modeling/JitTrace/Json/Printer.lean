import JitTrace.Json.Basic

/-!
# Printing JSON

The compact written form of a document: no blanks, members in their order, and
in strings no more escapes than the format demands.
-/

namespace JitTrace.Json

/-- One character inside a string. -/
def escaped (c : Char) : List Char :=
  if c == '"' then ['\\', '"']
  else if c == '\\' then ['\\', '\\']
  else if c.toNat == 8 then ['\\', 'b']
  else if c.toNat == 12 then ['\\', 'f']
  else if c == '\n' then ['\\', 'n']
  else if c == '\r' then ['\\', 'r']
  else if c == '\t' then ['\\', 't']
  else if c.toNat < 32 then
    ['\\', 'u', '0', '0', Nat.digitChar (c.toNat / 16), Nat.digitChar (c.toNat % 16)]
  else [c]

/-- A string with its quotes. One that denotes no text is written as the half of
a surrogate pair. -/
def renderString : Option String → List Char
  | some text => '"' :: text.toList.flatMap escaped ++ ['"']
  | none => ['"', '\\', 'u', 'd', '8', '0', '0', '"']

/-- A number. -/
def renderNumber (number : JsonNumber) : List Char :=
  (if number.negative then ['-'] else []) ++ number.whole ++
    (if number.fraction.isEmpty then [] else '.' :: number.fraction) ++
    match number.exponent with
    | none => []
    | some (negative, digits) => 'e' :: (if negative then ['-'] else []) ++ digits

mutual

/-- The written form of a document. -/
def render : Json → List Char
  | .null => ['n', 'u', 'l', 'l']
  | .bool true => ['t', 'r', 'u', 'e']
  | .bool false => ['f', 'a', 'l', 's', 'e']
  | .number literal => renderNumber literal
  | .string text => renderString text
  | .array items => '[' :: renderItems items
  | .object members => '\x7b' :: renderMembers members

/-- The items of an array with the bracket that closes it. -/
def renderItems : List Json → List Char
  | [] => [']']
  | item :: items => item.render ++ renderMoreItems items

/-- The items behind the first one. -/
def renderMoreItems : List Json → List Char
  | [] => [']']
  | item :: items => ',' :: (item.render ++ renderMoreItems items)

/-- The members of an object with the brace that closes it. -/
def renderMembers : List (Option String × Json) → List Char
  | [] => ['\x7d']
  | (key, value) :: members =>
    renderString key ++ ':' :: (value.render ++ renderMoreMembers members)

/-- The members behind the first one. -/
def renderMoreMembers : List (Option String × Json) → List Char
  | [] => ['\x7d']
  | (key, value) :: members =>
    ',' :: (renderString key ++ ':' :: (value.render ++ renderMoreMembers members))

end

/-- The text of a document. -/
def text (document : Json) : String :=
  String.ofList document.render

end JitTrace.Json
