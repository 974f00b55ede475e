import JitTrace.Text.Property

/-!
# Quoted form of a text

How fault messages show a text they were given: between double quotes, with
everything escaped that would not be visible as itself.
-/

namespace JitTrace.Text

/-- The hexadecimal digits of a number, lower case, without padding. -/
def hexDigits (value : Nat) : List Char :=
  Nat.toDigits 16 value

/-- One character inside the quotes. A single quote needs no escape there. -/
def quotedCharacter (c : Char) : List Char :=
  if c == '"' then ['\\', '"']
  else if c == '\\' then ['\\', '\\']
  else if c == '\t' then ['\\', 't']
  else if c == '\r' then ['\\', 'r']
  else if c == '\n' then ['\\', 'n']
  else if c.toNat == 0 then ['\\', '0']
  else if c.toNat < 0x7f && 0x20 ≤ c.toNat then [c]
  else if isCombining c || !isPrintable c then
    ['\\', 'u', '\x7b'] ++ hexDigits c.toNat ++ ['\x7d']
  else [c]

/-- The quoted form of a text. -/
def quoted (text : String) : String :=
  String.ofList ('"' :: text.toList.flatMap quotedCharacter ++ ['"'])

end JitTrace.Text
