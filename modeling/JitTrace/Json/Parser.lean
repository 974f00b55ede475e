import JitTrace.Json.Basic
import JitTrace.Number.Digits

/-!
# Parsing JSON

Each reader takes a document, or a part of one, off the front of a text and
returns what is left. A text is a document with nothing but blanks around it.
-/

namespace JitTrace.Json

/-- A part of a string: a character, or a 16-bit unit given by an escape. -/
inductive StringPart where
  | character (c : Char)
  | unit (value : Nat)
deriving Repr, DecidableEq

/-- The text that the parts of a string denote. A high surrogate unit must be
followed at once by a low one, and together they denote one character. -/
def textOfParts? : List StringPart → Option (List Char)
  | [] => some []
  | .character c :: rest => (textOfParts? rest).map (c :: ·)
  | .unit high :: .unit low :: rest =>
    if 0xd800 ≤ high && high < 0xdc00 then
      if 0xdc00 ≤ low && low < 0xe000 then
        (textOfParts? rest).map
          (Char.ofNat (0x10000 + (high - 0xd800) * 0x400 + (low - 0xdc00)) :: ·)
      else none
    else if 0xdc00 ≤ high && high < 0xe000 then none
    else (textOfParts? (.unit low :: rest)).map (Char.ofNat high :: ·)
  | .unit unit :: rest =>
    if 0xd800 ≤ unit && unit < 0xe000 then none
    else (textOfParts? rest).map (Char.ofNat unit :: ·)

/-- The value of four hexadecimal digits. -/
def unitOfDigits? (a b c d : Char) : Option Nat := do
  let a ← Number.digitValue? 16 a
  let b ← Number.digitValue? 16 b
  let c ← Number.digitValue? 16 c
  let d ← Number.digitValue? 16 d
  return ((a * 16 + b) * 16 + c) * 16 + d

/-- The character that a one-letter escape stands for. -/
def shortEscape? (c : Char) : Option Char :=
  if c == '"' then some '"'
  else if c == '\\' then some '\\'
  else if c == '/' then some '/'
  else if c == 'b' then some '\x08'
  else if c == 'f' then some '\x0c'
  else if c == 'n' then some '\n'
  else if c == 'r' then some '\r'
  else if c == 't' then some '\t'
  else none

/-- The parts of a string whose opening quote has been read, and what follows its
closing quote. -/
def readParts? : List Char → Option (List StringPart × List Char)
  | [] => none
  | '"' :: rest => some ([], rest)
  | '\\' :: 'u' :: a :: b :: c :: d :: rest =>
    match unitOfDigits? a b c d with
    | none => none
    | some unit => (readParts? rest).map fun (parts, rest) => (.unit unit :: parts, rest)
  | '\\' :: c :: rest =>
    match shortEscape? c with
    | none => none
    | some c => (readParts? rest).map fun (parts, rest) => (.character c :: parts, rest)
  | c :: rest =>
    if c.toNat < 32 || c == '\\' then none
    else (readParts? rest).map fun (parts, rest) => (.character c :: parts, rest)

/-- A string whose opening quote has been read. -/
def readString? (cs : List Char) : Option (Option String × List Char) :=
  (readParts? cs).map fun (parts, rest) => ((textOfParts? parts).map String.ofList, rest)

/-- A decimal digit. -/
def isDigit (c : Char) : Bool :=
  '0' ≤ c && c ≤ '9'

/-- A non-empty run of digits. -/
def readDigits? (cs : List Char) : Option (List Char × List Char) :=
  match cs.span isDigit with
  | ([], _) => none
  | (digits, rest) => some (digits, rest)

/-- The digits before the point: a single zero, or digits that start with none. -/
def readWhole? (cs : List Char) : Option (List Char × List Char) :=
  match readDigits? cs with
  | some ('0' :: _ :: _, _) => none
  | found => found

/-- The digits behind the point, where there is a point. -/
def readFraction? : List Char → Option (List Char × List Char)
  | '.' :: rest => readDigits? rest
  | rest => some ([], rest)

/-- The sign and digits of an exponent whose mark has been read. -/
def readExponentDigits? : List Char → Option ((Bool × List Char) × List Char)
  | '-' :: rest => (readDigits? rest).map fun (digits, rest) => ((true, digits), rest)
  | '+' :: rest => (readDigits? rest).map fun (digits, rest) => ((false, digits), rest)
  | rest => (readDigits? rest).map fun (digits, rest) => ((false, digits), rest)

/-- The exponent, where there is one. -/
def readExponent? : List Char → Option (Option (Bool × List Char) × List Char)
  | 'e' :: rest => (readExponentDigits? rest).map fun (exponent, rest) => (some exponent, rest)
  | 'E' :: rest => (readExponentDigits? rest).map fun (exponent, rest) => (some exponent, rest)
  | rest => some (none, rest)

/-- A number without its sign. -/
def readMagnitude? (negative : Bool) (cs : List Char) : Option (JsonNumber × List Char) := do
  let (whole, rest) ← readWhole? cs
  let (fraction, rest) ← readFraction? rest
  let (exponent, rest) ← readExponent? rest
  return ({ negative, whole, fraction, exponent }, rest)

/-- A number. -/
def readNumber? : List Char → Option (JsonNumber × List Char)
  | '-' :: rest => readMagnitude? true rest
  | rest => readMagnitude? false rest

/-- The blanks of the format. -/
def isBlank (c : Char) : Bool :=
  c == ' ' || c == '\t' || c == '\n' || c == '\r'

/-- Drop the blanks in front. -/
def skipBlanks (cs : List Char) : List Char :=
  cs.dropWhile isBlank

mutual

/-- A document at the front of a text that starts with no blank. -/
def readValue? : Nat → List Char → Option (Json × List Char)
  | 0, _ => none
  | fuel + 1, cs =>
    match cs with
    | 'n' :: 'u' :: 'l' :: 'l' :: rest => some (.null, rest)
    | 't' :: 'r' :: 'u' :: 'e' :: rest => some (.bool true, rest)
    | 'f' :: 'a' :: 'l' :: 's' :: 'e' :: rest => some (.bool false, rest)
    | '"' :: rest => (readString? rest).map fun (text, rest) => (.string text, rest)
    | '[' :: rest =>
      match skipBlanks rest with
      | ']' :: rest => some (.array [], rest)
      | rest => (readItems? fuel rest).map fun (items, rest) => (.array items, rest)
    | '\x7b' :: rest =>
      match skipBlanks rest with
      | '\x7d' :: rest => some (.object [], rest)
      | rest => (readMembers? fuel rest).map fun (members, rest) => (.object members, rest)
    | cs => (readNumber? cs).map fun (literal, rest) => (.number literal, rest)

/-- One or more items of an array, with the bracket that closes it. -/
def readItems? : Nat → List Char → Option (List Json × List Char)
  | 0, _ => none
  | fuel + 1, cs =>
    match readValue? fuel cs with
    | none => none
    | some (item, rest) =>
      match skipBlanks rest with
      | ']' :: rest => some ([item], rest)
      | ',' :: rest =>
        (readItems? fuel (skipBlanks rest)).map fun (items, rest) => (item :: items, rest)
      | _ => none

/-- One or more members of an object, with the brace that closes it. -/
def readMembers? : Nat → List Char → Option (List (Option String × Json) × List Char)
  | 0, _ => none
  | fuel + 1, cs =>
    match cs with
    | '"' :: rest =>
      match readString? rest with
      | none => none
      | some (key, rest) =>
        match skipBlanks rest with
        | ':' :: rest =>
          match readValue? fuel (skipBlanks rest) with
          | none => none
          | some (value, rest) =>
            match skipBlanks rest with
            | '\x7d' :: rest => some ([(key, value)], rest)
            | ',' :: rest =>
              (readMembers? fuel (skipBlanks rest)).map fun (members, rest) =>
                ((key, value) :: members, rest)
            | _ => none
        | _ => none
    | _ => none

end

/-- The document that a text consists of. Every reader uses up a character for
each unit of fuel but one, so the length of the text bounds the fuel. -/
def parse? (text : String) : Option Json :=
  let cs := skipBlanks text.toList
  match readValue? (2 * cs.length + 2) cs with
  | some (document, rest) => if (skipBlanks rest).isEmpty then some document else none
  | none => none

end JitTrace.Json
