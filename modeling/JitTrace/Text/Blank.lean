/-!
# Blank characters

The characters with the `White_Space` property, and texts freed of them at
their ends. Fields of a log are read after trimming, so this set decides which
stray spaces a number or a version may carry.
-/

namespace JitTrace.Text

/-- The `White_Space` characters of the Unicode standard. -/
def isBlank (c : Char) : Bool :=
  let code := c.toNat
  (0x9 ≤ code && code ≤ 0xd) || code == 0x20 || code == 0x85 || code == 0xa0 ||
    code == 0x1680 || (0x2000 ≤ code && code ≤ 0x200a) || code == 0x2028 ||
    code == 0x2029 || code == 0x202f || code == 0x205f || code == 0x3000

/-- Drop the blanks in front. -/
def trimFront (cs : List Char) : List Char :=
  cs.dropWhile isBlank

/-- Drop the blanks at the end. -/
def trimBack (cs : List Char) : List Char :=
  (cs.reverse.dropWhile isBlank).reverse

/-- Drop the blanks at both ends. -/
def trim (cs : List Char) : List Char :=
  trimBack (trimFront cs)

/-- Texts without the blanks at both ends. -/
def trimmed (text : String) : String :=
  String.ofList (trim text.toList)

end JitTrace.Text
