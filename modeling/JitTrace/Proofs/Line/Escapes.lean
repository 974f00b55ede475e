import JitTrace.Line.Fields
import JitTrace.Proofs.Number.Hexadecimal

/-!
# Escapes of a field

What the text of a field stands for, said without a reader: it is made of plain characters and
of escapes, each of which stands for one character. The reader accepts these texts and no
others, except that it takes a plus sign for the first digit of an escape.
-/

namespace JitTrace

open Number (HexNumber SignedNumber)

/-- Characters of one byte each take as many bytes as they are. -/
theorem Text.byteCount_of_ascii {cs : List Char} (ascii : ∀ c ∈ cs, c.toNat < 128) :
    byteCount cs = cs.length := by
  have each : ∀ count, cs.foldl (fun count c => count + c.utf8Size) count = count + cs.length := by
    induction cs with
    | nil => exact fun _ => rfl
    | cons c cs inductionHypothesis =>
      intro count
      have one : c.utf8Size = 1 := by
        rw [Char.utf8Size_eq_one_iff, UInt32.le_iff_toNat_le]
        exact Nat.le_of_lt_succ (ascii c List.mem_cons_self)
      rw [List.foldl_cons, inductionHypothesis fun c inside => ascii c (.tail _ inside), one,
        List.length_cons, Nat.add_assoc, Nat.add_comm 1]
  rw [byteCount, each, Nat.zero_add]

namespace Line

/-- What a text with escapes stands for, where `number` says which digits form which number.
No character has the number of a surrogate. -/
inductive Denotes (number : List Char → Nat → Prop) : List Char → List Char → Prop where
  | nil : Denotes number [] []
  | plain {c : Char} {cs out : List Char} (ordinary : c ≠ '\\') (rest : Denotes number cs out) :
    Denotes number (c :: cs) (c :: out)
  | lineFeed {cs out : List Char} (rest : Denotes number cs out) :
    Denotes number ('\\' :: 'n' :: cs) ('\n' :: out)
  | backslash {cs out : List Char} (rest : Denotes number cs out) :
    Denotes number ('\\' :: '\\' :: cs) ('\\' :: out)
  | short {digits cs out : List Char} {c : Char} (two : digits.length = 2)
    (denoted : number digits c.toNat) (rest : Denotes number cs out) :
    Denotes number ('\\' :: 'x' :: (digits ++ cs)) (c :: out)
  | long {digits cs out : List Char} {c : Char} (four : digits.length = 4)
    (denoted : number digits c.toNat) (rest : Denotes number cs out) :
    Denotes number ('\\' :: 'u' :: (digits ++ cs)) (c :: out)

variable {cs out : List Char} {c : Char}

/-- A number is that of a character when it is valid as one. -/
theorem decode_eq_ok {code : Nat} :
    (if valid : code.isValidChar then Except.ok (Char.ofNatAux code valid)
      else .error (ParseFault.codePoint code)) = .ok c ↔ code = c.toNat := by
  by_cases valid : code.isValidChar
  · rw [dif_pos valid, Except.ok.injEq, ← Char.toNat_inj]
    rfl
  · rw [dif_neg valid]
    simp only [reduceCtorEq, false_iff]
    rintro rfl
    exact valid c.valid

/-- An escape is read from the digits that stand next. -/
theorem hexEscape_eq_ok {count : Nat} : hexEscape count cs = .ok c ↔
    (cs.take count).length = count ∧ SignedNumber (cs.take count) c.toNat := by
  have fits : c.toNat < UInt32.size := c.val.toNat_lt
  rw [hexEscape]
  by_cases bytes : Text.byteCount (cs.take count) = count
  · rw [if_neg (by simpa using bytes)]
    cases found : Number.unsigned? 16 UInt32.size (cs.take count) with
    | none =>
      simp only [reduceCtorEq, false_iff, not_and]
      intro _ isNumber
      simp [Number.unsigned?_eq_some.mpr ⟨fits, isNumber⟩] at found
    | some code =>
      have isNumber := (Number.unsigned?_eq_some.mp found).2
      have length := (Text.byteCount_of_ascii fun _ => isNumber.lt_of_mem).symm.trans bytes
      have same : SignedNumber (cs.take count) c.toNat ↔ code = c.toNat := by
        have read : Number.unsigned? 16 UInt32.size (cs.take count) = some c.toNat ↔
            c.toNat < UInt32.size ∧ SignedNumber (cs.take count) c.toNat :=
          Number.unsigned?_eq_some
        rw [← Option.some_inj, ← found, read, and_iff_right fits]
      rw [and_iff_right length, same]
      exact decode_eq_ok
  · rw [if_pos (by simpa using bytes)]
    simp only [reduceCtorEq, false_iff, not_and]
    intro length isNumber
    exact bytes ((Text.byteCount_of_ascii fun _ => isNumber.lt_of_mem).trans length)

theorem map_cons_eq_ok {read : Except ParseFault (List Char)} :
    read.map (c :: ·) = .ok out ↔ ∃ rest, read = .ok rest ∧ c :: rest = out := by
  cases read <;> simp [Except.map]

/-- The reader accepts exactly the texts that stand for something, and gives what they stand
for. -/
theorem unescape_eq_ok : unescape cs = .ok out ↔ Denotes SignedNumber cs out := by
  constructor
  · intro read
    fun_induction unescape cs generalizing out with
    | case1 =>
      obtain rfl := Except.ok.inj read
      exact .nil
    | case2 => contradiction
    | case3 c rest isFeed inductionHypothesis =>
      obtain rfl := beq_iff_eq.mp isFeed
      obtain ⟨behind, readBehind, rfl⟩ := map_cons_eq_ok.mp read
      exact .lineFeed (inductionHypothesis readBehind)
    | case4 c rest _ isBackslash inductionHypothesis =>
      obtain rfl := beq_iff_eq.mp isBackslash
      obtain ⟨behind, readBehind, rfl⟩ := map_cons_eq_ok.mp read
      exact .backslash (inductionHypothesis readBehind)
    | case5 c rest _ _ isShort denoted found inductionHypothesis =>
      obtain rfl := beq_iff_eq.mp isShort
      obtain ⟨behind, readBehind, rfl⟩ := map_cons_eq_ok.mp read
      obtain ⟨two, isNumber⟩ := hexEscape_eq_ok.mp found
      exact List.take_append_drop 2 rest ▸ .short two isNumber (inductionHypothesis readBehind)
    | case6 => contradiction
    | case7 c rest _ _ _ isLong denoted found inductionHypothesis =>
      obtain rfl := beq_iff_eq.mp isLong
      obtain ⟨behind, readBehind, rfl⟩ := map_cons_eq_ok.mp read
      obtain ⟨four, isNumber⟩ := hexEscape_eq_ok.mp found
      exact List.take_append_drop 4 rest ▸ .long four isNumber (inductionHypothesis readBehind)
    | case8 => contradiction
    | case9 => contradiction
    | case10 c rest notEnd notEscape inductionHypothesis =>
      obtain ⟨behind, readBehind, rfl⟩ := map_cons_eq_ok.mp read
      refine .plain ?_ (inductionHypothesis readBehind)
      rintro rfl
      cases rest with
      | nil => exact notEnd rfl rfl
      | cons next rest => exact notEscape next rest rfl rfl
  · intro denotes
    induction denotes with
    | nil => rw [unescape]
    | plain ordinary _ inductionHypothesis =>
      rw [unescape, inductionHypothesis]
      · rfl
      · exact fun isBackslash => absurd isBackslash ordinary
      · exact fun _ _ isBackslash => absurd isBackslash ordinary
    | lineFeed _ inductionHypothesis =>
      rw [unescape, inductionHypothesis]
      rfl
    | backslash _ inductionHypothesis =>
      rw [unescape, inductionHypothesis]
      rfl
    | @short digits cs out c two denoted _ inductionHypothesis =>
      have found : hexEscape 2 (digits ++ cs) = .ok c := by
        rw [hexEscape_eq_ok, List.take_left' two]
        exact ⟨two, denoted⟩
      rw [unescape, found, List.drop_left' two, inductionHypothesis]
      rfl
    | @long digits cs out c four denoted _ inductionHypothesis =>
      have found : hexEscape 4 (digits ++ cs) = .ok c := by
        rw [hexEscape_eq_ok, List.take_left' four]
        exact ⟨four, denoted⟩
      rw [unescape, found, List.drop_left' four, inductionHypothesis]
      rfl

/-- What a text stands for depends on the numbers of digits that occur in it. -/
theorem Denotes.mono {number other : List Char → Nat → Prop} (denotes : Denotes number cs out)
    (isOther : ∀ digits, digits ⊆ cs → ∀ value, number digits value → other digits value) :
    Denotes other cs out := by
  induction denotes with
  | nil => exact .nil
  | plain ordinary _ inductionHypothesis =>
    exact .plain ordinary (inductionHypothesis fun digits _ => isOther digits (by grind))
  | lineFeed _ inductionHypothesis =>
    exact .lineFeed (inductionHypothesis fun digits _ => isOther digits (by grind))
  | backslash _ inductionHypothesis =>
    exact .backslash (inductionHypothesis fun digits _ => isOther digits (by grind))
  | short two denoted _ inductionHypothesis =>
    exact .short two (isOther _ (by grind) _ denoted)
      (inductionHypothesis fun digits _ => isOther digits (by grind))
  | long four denoted _ inductionHypothesis =>
    exact .long four (isOther _ (by grind) _ denoted)
      (inductionHypothesis fun digits _ => isOther digits (by grind))

/-- Escapes of hexadecimal digits are read as what they stand for. -/
theorem unescape_of_denotes (denotes : Denotes HexNumber cs out) : unescape cs = .ok out :=
  unescape_eq_ok.mpr (denotes.mono fun _ _ _ => .inl)

/-- The reader accepts exactly the texts that stand for something when a plus sign may take the
place of an escape's first digit, and gives what they stand for. So it reads all escapes of
digits, and where there is no plus sign it reads nothing else. -/
theorem unescape_accepts (cs out : List Char) :
    (unescape cs = .ok out ↔ Denotes SignedNumber cs out) ∧
      (Denotes HexNumber cs out → unescape cs = .ok out) ∧
      ('+' ∉ cs → unescape cs = .ok out → Denotes HexNumber cs out) := by
  refine ⟨unescape_eq_ok, unescape_of_denotes, fun unsigned read => ?_⟩
  exact (unescape_eq_ok.mp read).mono fun digits inside _ isNumber =>
    isNumber.hexNumber fun signed => unsigned (inside signed)

/-- All escapes, one behind the other, with digits of both cases. -/
theorem unescape_accepts_escapes :
    '+' ∉ "\\n\\\\\\x2Cn\\u00e9".toList ∧
      unescape "\\n\\\\\\x2Cn\\u00e9".toList = .ok "\n\\,né".toList ∧
      Denotes HexNumber "\\n\\\\\\x2Cn\\u00e9".toList "\n\\,né".toList := by
  have unsigned : '+' ∉ "\\n\\\\\\x2Cn\\u00e9".toList := by decide
  have comma : HexNumber ['2', 'C'] ','.toNat := Number.natural?_eq_some.mp rfl
  have accented : HexNumber ['0', '0', 'e', '9'] 'é'.toNat := Number.natural?_eq_some.mp rfl
  have read : unescape "\\n\\\\\\x2Cn\\u00e9".toList = .ok "\n\\,né".toList :=
    (unescape_accepts _ _).2.1 <| .lineFeed <| .backslash <| .short rfl comma <|
      .plain (by decide) <| .long rfl accented .nil
  exact ⟨unsigned, read, (unescape_accepts _ _).2.2 unsigned read⟩

/-- A plus sign and one digit are read as an escape, though two digits are asked for. -/
theorem unescape_plus :
    unescape ['\\', 'x', '+', '1'] = .ok ['\x01'] ∧
      ¬ ∃ out, Denotes HexNumber ['\\', 'x', '+', '1'] out := by
  have signed : SignedNumber ['+', '1'] '\x01'.toNat :=
    .inr ⟨['1'], rfl, Number.natural?_eq_some.mp rfl⟩
  refine ⟨unescape_eq_ok.mpr (.short rfl signed .nil), ?_⟩
  rintro ⟨out, denotes⟩
  generalize written : ['\\', 'x', '+', '1'] = cs at denotes
  cases denotes with
  | plain ordinary => exact ordinary (List.cons.inj written).1.symm
  | short two denoted =>
    obtain ⟨first, second, rfl⟩ := List.length_eq_two.mp two
    obtain rfl : '+' = first := Option.some.inj (congrArg (·[2]?) written)
    exact Number.not_hexNumber_plus _ _ denoted
  | _ => simp at written

end Line

end JitTrace
