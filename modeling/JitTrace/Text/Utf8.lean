/-!
# Reading bytes as UTF-8

Bytes are read one character at a time. Where they are no UTF-8 the reader says
at which byte the damage starts and how many bytes cannot belong to any
character, which is what both the strict and the lenient reading need.
-/

namespace JitTrace.Text

/-- Why bytes are not UTF-8: the offset of the first damaged sequence, and its
length, or `none` where the input ends inside a character. -/
structure Utf8Fault where
  offset : Nat
  length : Option Nat
deriving DecidableEq, Repr

/-- The wording of a decoding fault. -/
def Utf8Fault.message (fault : Utf8Fault) : String :=
  match fault.length with
  | some count => s!"invalid utf-8 sequence of {count} bytes from index {fault.offset}"
  | none => s!"incomplete utf-8 byte sequence from index {fault.offset}"

/-- What stands at the front of a byte sequence. -/
inductive Utf8Piece where
  /-- A character whose first byte is followed by `trailing` more. -/
  | character (c : Char) (trailing : Nat)
  /-- Damage: `length` bytes, the first among them, belong to no character. -/
  | invalid (length : Nat)
  /-- The input ends inside a character. -/
  | incomplete
deriving DecidableEq, Repr

/-- Whether a byte continues a character. -/
def isContinuation (byte : UInt8) : Bool :=
  0x80 ≤ byte && byte ≤ 0xbf

/-- Whether `second` may follow the first byte `first` of a character of three
or four bytes. The bounds rule out overlong forms, surrogates and code points
above the last one. -/
def isSecond (first second : UInt8) : Bool :=
  if first == 0xe0 then 0xa0 ≤ second && second ≤ 0xbf
  else if first == 0xed then 0x80 ≤ second && second ≤ 0x9f
  else if first == 0xf0 then 0x90 ≤ second && second ≤ 0xbf
  else if first == 0xf4 then 0x80 ≤ second && second ≤ 0x8f
  else isContinuation second

/-- The six payload bits of a continuation byte. -/
def continuationBits (byte : UInt8) : Nat :=
  byte.toNat % 64

/-- The piece that starts with `first` and goes on in `rest`. -/
def utf8Piece (first : UInt8) (rest : List UInt8) : Utf8Piece :=
  if first < 0x80 then
    .character (Char.ofNat first.toNat) 0
  else if 0xc2 ≤ first && first ≤ 0xdf then
    match rest with
    | [] => .incomplete
    | second :: _ =>
      if isContinuation second then
        .character (Char.ofNat (first.toNat % 32 * 64 + continuationBits second)) 1
      else
        .invalid 1
  else if 0xe0 ≤ first && first ≤ 0xef then
    match rest with
    | [] => .incomplete
    | second :: rest =>
      if !isSecond first second then .invalid 1
      else
        match rest with
        | [] => .incomplete
        | third :: _ =>
          if isContinuation third then
            .character
              (Char.ofNat ((first.toNat % 16 * 64 + continuationBits second) * 64 +
                continuationBits third)) 2
          else
            .invalid 2
  else if 0xf0 ≤ first && first ≤ 0xf4 then
    match rest with
    | [] => .incomplete
    | second :: rest =>
      if !isSecond first second then .invalid 1
      else
        match rest with
        | [] => .incomplete
        | third :: rest =>
          if !isContinuation third then .invalid 2
          else
            match rest with
            | [] => .incomplete
            | fourth :: _ =>
              if isContinuation fourth then
                .character
                  (Char.ofNat (((first.toNat % 8 * 64 + continuationBits second) * 64 +
                    continuationBits third) * 64 + continuationBits fourth)) 3
              else
                .invalid 3
  else
    .invalid 1

/-- Strict reading from a given offset: the characters, or the first fault. -/
def decodeUtf8From (offset : Nat) (bytes : List UInt8) : Except Utf8Fault (List Char) :=
  match bytes with
  | [] => .ok []
  | first :: rest =>
    match utf8Piece first rest with
    | .character c trailing =>
      (decodeUtf8From (offset + 1 + trailing) (rest.drop trailing)).map (c :: ·)
    | .invalid length => .error ⟨offset, some length⟩
    | .incomplete => .error ⟨offset, none⟩
termination_by bytes.length
decreasing_by simp only [List.length_drop, List.length_cons]; omega

/-- Strict reading of a whole byte sequence. -/
def decodeUtf8 (bytes : List UInt8) : Except Utf8Fault String :=
  (decodeUtf8From 0 bytes).map String.ofList

/-- The replacement character that stands for damaged bytes. -/
def replacementCharacter : Char := '\uFFFD'

/-- Lenient reading: each damaged sequence becomes one replacement character. -/
def decodeUtf8Lossy (bytes : List UInt8) : List Char :=
  match bytes with
  | [] => []
  | first :: rest =>
    match utf8Piece first rest with
    | .character c trailing => c :: decodeUtf8Lossy (rest.drop trailing)
    | .invalid length => replacementCharacter :: decodeUtf8Lossy (rest.drop (length - 1))
    | .incomplete => [replacementCharacter]
termination_by bytes.length
decreasing_by all_goals simp only [List.length_drop, List.length_cons]; omega

/-- The number of bytes that characters take. -/
def byteCount (cs : List Char) : Nat :=
  cs.foldl (fun count c => count + c.utf8Size) 0

/-- The UTF-8 bytes of a text. -/
def encodeUtf8 (text : String) : List UInt8 :=
  text.toList.flatMap String.utf8EncodeChar

end JitTrace.Text
