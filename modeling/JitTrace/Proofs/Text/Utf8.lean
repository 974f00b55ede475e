import JitTrace.Text.Utf8

/-!
# Reading what has been written as UTF-8

Every text is read back from its bytes. A line feed and a carriage return are bytes of their
own, and no other character has such a byte.
-/

namespace JitTrace.Text

theorem toNat_ofNat_of_lt {value : Nat} (fits : value < 256) :
    (UInt8.ofNat value).toNat = value := by
  rw [UInt8.toNat_ofNat', Nat.mod_eq_of_lt fits]

/-! ## Bytes that go on with a character -/

theorem toNat_continuation (bits : Nat) :
    (UInt8.ofNat (bits % 64 + 128)).toNat = bits % 64 + 128 :=
  toNat_ofNat_of_lt (by omega)

theorem isContinuation_ofNat (bits : Nat) : isContinuation (.ofNat (bits % 64 + 128)) = true := by
  simp only [isContinuation, UInt8.le_iff_toNat_le, toNat_continuation, UInt8.reduceToNat,
    Bool.and_eq_true, decide_eq_true_eq]
  omega

theorem continuationBits_ofNat (bits : Nat) :
    continuationBits (.ofNat (bits % 64 + 128)) = bits % 64 := by
  rw [continuationBits, toNat_continuation]
  omega

/-- The second byte of a character has the bounds that its first one asks for. -/
theorem isSecond_ofNat {first bits : Nat} (fits : first < 256)
    (overlong : first = 0xe0 → 0x20 ≤ bits % 64) (surrogate : first = 0xed → bits % 64 < 0x20)
    (small : first = 0xf0 → 0x10 ≤ bits % 64) (large : first = 0xf4 → bits % 64 < 0x10) :
    isSecond (.ofNat first) (.ofNat (bits % 64 + 128)) = true := by
  have isFirst (byte : UInt8) : (UInt8.ofNat first == byte) = decide (first = byte.toNat) := by
    rw [Bool.eq_iff_iff, beq_iff_eq, decide_eq_true_eq, ← UInt8.toNat_inj,
      toNat_ofNat_of_lt fits]
  simp only [isSecond, isFirst, isContinuation_ofNat, UInt8.le_iff_toNat_le, toNat_continuation,
    UInt8.reduceToNat, decide_eq_true_eq]
  repeat' split
  all_goals simp only [Bool.and_eq_true, decide_eq_true_eq]
  all_goals omega

/-! ## Characters and texts -/

/-- A character is found at the front of its bytes. -/
theorem utf8Piece_utf8EncodeChar (c : Char) (rest : List UInt8) :
    ∃ first trailing, String.utf8EncodeChar c = first :: trailing ∧
      utf8Piece first (trailing ++ rest) = .character c trailing.length := by
  have valid : c.val.toNat < 0xd800 ∨ 0xdfff < c.val.toNat ∧ c.val.toNat < 0x110000 := c.valid
  have same : Char.ofNat c.val.toNat = c := Char.ofNat_toNat c
  rw [String.utf8EncodeChar.eq_1]
  generalize c.val.toNat = code at valid same
  rw [← same]
  by_cases one : code ≤ 127
  · have first : (UInt8.ofNat code).toNat = code := toNat_ofNat_of_lt (by omega)
    rw [if_pos one]
    refine ⟨_, [], rfl, ?_⟩
    simp only [utf8Piece, UInt8.lt_iff_toNat_lt, first, UInt8.reduceToNat]
    rw [if_pos (by omega)]
    rfl
  rw [if_neg one]
  by_cases two : code ≤ 2047
  · have first : (UInt8.ofNat (code / 64 % 32 + 192)).toNat = code / 64 + 192 := by
      rw [toNat_ofNat_of_lt (by omega)]
      omega
    have whole : (code / 64 + 192) % 32 * 64 + code % 64 = code := by omega
    rw [if_pos two]
    refine ⟨_, [_], rfl, ?_⟩
    simp only [utf8Piece, UInt8.lt_iff_toNat_lt, UInt8.le_iff_toNat_le, first, UInt8.reduceToNat,
      List.cons_append, isContinuation_ofNat, continuationBits_ofNat, whole, if_true]
    rw [if_neg (by omega), if_pos (by simp; omega)]
    rfl
  rw [if_neg two]
  by_cases three : code ≤ 65535
  · have first : (UInt8.ofNat (code / 4096 % 16 + 224)).toNat = code / 4096 + 224 := by
      rw [toNat_ofNat_of_lt (by omega)]
      omega
    have second :
        isSecond (.ofNat (code / 4096 % 16 + 224)) (.ofNat (code / 64 % 64 + 128)) = true :=
      isSecond_ofNat (by omega) (by omega) (by omega) (by omega) (by omega)
    have whole : ((code / 4096 + 224) % 16 * 64 + code / 64 % 64) * 64 + code % 64 = code := by
      omega
    rw [if_pos three]
    refine ⟨_, [_, _], rfl, ?_⟩
    simp only [utf8Piece, UInt8.lt_iff_toNat_lt, UInt8.le_iff_toNat_le, first, UInt8.reduceToNat,
      List.cons_append, second, isContinuation_ofNat, continuationBits_ofNat, whole, Bool.not_true,
      Bool.false_eq_true, if_false, if_true]
    rw [if_neg (by omega), if_neg (by simp), if_pos (by simp; omega)]
    rfl
  · have first : (UInt8.ofNat (code / 262144 % 8 + 240)).toNat = code / 262144 + 240 := by
      rw [toNat_ofNat_of_lt (by omega)]
      omega
    have second :
        isSecond (.ofNat (code / 262144 % 8 + 240)) (.ofNat (code / 4096 % 64 + 128)) = true :=
      isSecond_ofNat (by omega) (by omega) (by omega) (by omega) (by omega)
    have whole : (((code / 262144 + 240) % 8 * 64 + code / 4096 % 64) * 64 + code / 64 % 64) * 64 +
        code % 64 = code := by
      omega
    rw [if_neg three]
    refine ⟨_, [_, _, _], rfl, ?_⟩
    simp only [utf8Piece, UInt8.lt_iff_toNat_lt, UInt8.le_iff_toNat_le, first, UInt8.reduceToNat,
      List.cons_append, second, isContinuation_ofNat, continuationBits_ofNat, whole, Bool.not_true,
      Bool.false_eq_true, if_false, if_true]
    rw [if_neg (by omega), if_neg (by simp), if_neg (by simp), if_pos (by simp; omega)]
    rfl

/-- Characters are read back from their bytes. -/
theorem decodeUtf8From_flatMap (cs : List Char) (offset : Nat) :
    decodeUtf8From offset (cs.flatMap String.utf8EncodeChar) = .ok cs := by
  induction cs generalizing offset with
  | nil => rw [List.flatMap_nil, decodeUtf8From]
  | cons c cs inductionHypothesis =>
    obtain ⟨first, trailing, encoded, found⟩ :=
      utf8Piece_utf8EncodeChar c (cs.flatMap String.utf8EncodeChar)
    rw [List.flatMap_cons, encoded, List.cons_append, decodeUtf8From, found]
    dsimp only
    rw [List.drop_left, inductionHypothesis]
    rfl

/-- A text is read back from its bytes. -/
theorem decodeUtf8_encodeUtf8 (text : String) : decodeUtf8 (encodeUtf8 text) = .ok text := by
  rw [decodeUtf8, encodeUtf8, decodeUtf8From_flatMap]
  exact congrArg Except.ok (String.ofList_toList)

/-- No other character has the byte of one of the first 128. -/
theorem ofNat_mem_utf8EncodeChar (sign c : Char) (ascii : sign.toNat < 128) :
    UInt8.ofNat sign.toNat ∈ String.utf8EncodeChar c ↔ c = sign := by
  have same : c = sign ↔ c.val.toNat = sign.toNat := Char.toNat_inj.symm
  rw [same, String.utf8EncodeChar.eq_1]
  generalize c.val.toNat = code
  have sameByte (number : Nat) :
      UInt8.ofNat sign.toNat = UInt8.ofNat number ↔ sign.toNat = number % 256 := by
    rw [← UInt8.toNat_inj, UInt8.toNat_ofNat', UInt8.toNat_ofNat']
    omega
  split
  · rw [List.mem_singleton, sameByte]
    omega
  · repeat' split
    all_goals
      simp only [List.mem_cons, List.not_mem_nil, or_false, sameByte]
      omega

end JitTrace.Text
