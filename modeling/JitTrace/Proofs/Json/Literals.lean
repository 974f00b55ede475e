import JitTrace.Json.Parser
import JitTrace.Json.Printer
import Mathlib.Data.List.TakeDrop

/-!
# Literals of JSON

Numbers and strings are read back as they were written, whatever stands behind them. A number
has no end of its own, so behind it must stand nothing that could belong to it. A string ends
with its quote; inside, a character is written as itself, as an escape of one letter or by the
four digits of its unit, and each of these is read as that character.
-/

namespace JitTrace

/-! ## Numbers -/

/-- The number is written as the format demands. -/
structure JsonNumber.Written (number : JsonNumber) : Prop where
  whole_ne_nil : number.whole ≠ []
  whole : ∀ c ∈ number.whole, Json.isDigit c = true
  /-- No digits follow a leading zero. -/
  leading : ∀ second rest, number.whole ≠ '0' :: second :: rest
  fraction : ∀ c ∈ number.fraction, Json.isDigit c = true
  exponent_ne_nil : ∀ exponent ∈ number.exponent, exponent.2 ≠ []
  exponent : ∀ exponent ∈ number.exponent, ∀ c ∈ exponent.2, Json.isDigit c = true

namespace Json

/-- Whether a character could go on with the number in front of it. -/
def continuesNumber (c : Char) : Bool :=
  isDigit c || c == '.' || c == 'e' || c == 'E'

/-- Nothing at the front of a text belongs to a number before it. -/
def EndsNumber (rest : List Char) : Prop :=
  ∀ c ∈ rest.head?, continuesNumber c = false

/-- The text does not go on with digits. -/
def EndsDigits (rest : List Char) : Prop :=
  ∀ c ∈ rest.head?, isDigit c = false

theorem EndsNumber.endsDigits {rest : List Char} (ends : EndsNumber rest) : EndsDigits rest := by
  intro c first
  have beyond := ends c first
  rw [continuesNumber, Bool.or_assoc, Bool.or_assoc, Bool.or_eq_false_iff] at beyond
  exact beyond.1

theorem readDigits?_append {digits rest : List Char} (nonempty : digits ≠ [])
    (all : ∀ c ∈ digits, isDigit c = true) (ends : EndsDigits rest) :
    readDigits? (digits ++ rest) = some (digits, rest) := by
  have stops : rest.takeWhile isDigit = [] ∧ rest.dropWhile isDigit = rest := by
    cases rest with
    | nil => exact ⟨rfl, rfl⟩
    | cons c rest =>
      have notDigit := ends c rfl
      exact ⟨List.takeWhile_cons_of_neg (by simp [notDigit]),
        List.dropWhile_cons_of_neg (by simp [notDigit])⟩
  rw [readDigits?, List.span_eq_takeWhile_dropWhile, List.takeWhile_append_of_pos all,
    List.dropWhile_append_of_pos all, stops.1, stops.2, List.append_nil]
  cases digits with
  | nil => contradiction
  | cons => rfl

/-- The digits behind the point, with their point. -/
def renderFraction (digits : List Char) : List Char :=
  if digits.isEmpty then [] else '.' :: digits

/-- An exponent with its mark. -/
def renderExponent : Option (Bool × List Char) → List Char
  | none => []
  | some (negative, digits) => 'e' :: (if negative then ['-'] else []) ++ digits

theorem renderNumber_eq (number : JsonNumber) :
    renderNumber number = (if number.negative then ['-'] else []) ++
      (number.whole ++ (renderFraction number.fraction ++ renderExponent number.exponent)) := by
  rw [renderNumber, renderFraction, List.append_assoc, List.append_assoc]
  cases number.exponent <;> rfl

variable {rest : List Char}

theorem readExponent?_renderExponent {exponent : Option (Bool × List Char)}
    (nonempty : ∀ known ∈ exponent, known.2 ≠ [])
    (digits : ∀ known ∈ exponent, ∀ c ∈ known.2, isDigit c = true) (ends : EndsNumber rest) :
    readExponent? (renderExponent exponent ++ rest) = some (exponent, rest) := by
  cases exponent with
  | none =>
    cases rest with
    | nil => rfl
    | cons c rest =>
      have beyond := ends c rfl
      rw [renderExponent, List.nil_append, readExponent?]
      · rintro more ⟨⟩
        contradiction
      · rintro more ⟨⟩
        contradiction
  | some exponent =>
    obtain ⟨negative, written⟩ := exponent
    have digitsOf := digits _ rfl
    have readsDigits := readDigits?_append (nonempty _ rfl) digitsOf ends.endsDigits
    have reads : readExponentDigits?
        ((if negative then ['-'] else []) ++ written ++ rest) =
          some ((negative, written), rest) := by
      cases negative with
      | true => exact congrArg (Option.map _) readsDigits
      | false =>
        obtain ⟨c, others, rfl⟩ := List.exists_cons_of_ne_nil (nonempty _ rfl)
        have isDigit := digitsOf c List.mem_cons_self
        simp only [Bool.false_eq_true, if_false, List.nil_append, List.cons_append] at readsDigits ⊢
        rw [readExponentDigits?, readsDigits]
        · rfl
        · rintro more ⟨⟩
          contradiction
        · rintro more ⟨⟩
          contradiction
    exact congrArg (Option.map fun found : (Bool × List Char) × List Char =>
      (some found.1, found.2)) reads

theorem readFraction?_renderFraction {fraction : List Char}
    (digits : ∀ c ∈ fraction, isDigit c = true) (ends : EndsDigits rest)
    (noPoint : rest.head? ≠ some '.') :
    readFraction? (renderFraction fraction ++ rest) = some (fraction, rest) := by
  cases fraction with
  | nil =>
    rw [renderFraction, List.isEmpty_nil, if_pos rfl, List.nil_append, readFraction?]
    rintro more rfl
    exact noPoint rfl
  | cons c others => exact readDigits?_append (List.cons_ne_nil c others) digits ends

theorem readWhole?_append {whole : List Char} (nonempty : whole ≠ [])
    (digits : ∀ c ∈ whole, isDigit c = true)
    (leading : ∀ second others, whole ≠ '0' :: second :: others) (ends : EndsDigits rest) :
    readWhole? (whole ++ rest) = some (whole, rest) := by
  rw [readWhole?, readDigits?_append nonempty digits ends]
  split
  · rename_i second others more found
    exact absurd (congrArg Prod.fst (Option.some.inj found)) (leading second others)
  · rfl

/-- What stands behind the digits before the point. -/
theorem ends_renderExponent (exponent : Option (Bool × List Char)) (ends : EndsNumber rest) :
    EndsDigits (renderExponent exponent ++ rest) ∧
      (renderExponent exponent ++ rest).head? ≠ some '.' := by
  cases exponent with
  | none =>
    refine ⟨ends.endsDigits, fun point => ?_⟩
    have beyond := ends '.' point
    contradiction
  | some exponent =>
    refine ⟨?_, fun point => ?_⟩
    · rintro c ⟨⟩
      rfl
    · exact absurd (Option.some.inj point) (by decide)

theorem endsDigits_renderFraction (fraction : List Char) (ends : EndsDigits rest) :
    EndsDigits (renderFraction fraction ++ rest) := by
  cases fraction with
  | nil => exact ends
  | cons c others =>
    rintro first ⟨⟩
    rfl

/-- A number is read as it was written. -/
theorem readNumber?_renderNumber {number : JsonNumber} (written : number.Written)
    (ends : EndsNumber rest) :
    readNumber? (renderNumber number ++ rest) = some (number, rest) := by
  obtain ⟨negative, whole, fraction, exponent⟩ := number
  obtain ⟨nonempty, digits, leading, fractionDigits, exponentNonempty, exponentDigits⟩ := written
  obtain ⟨endsFraction, noPoint⟩ := ends_renderExponent exponent ends
  have endsWhole := endsDigits_renderFraction fraction endsFraction
  have reads : readMagnitude? negative
      (whole ++ (renderFraction fraction ++ (renderExponent exponent ++ rest))) =
        some (⟨negative, whole, fraction, exponent⟩, rest) := by
    rw [readMagnitude?, readWhole?_append nonempty digits leading endsWhole]
    simp only [Option.bind_eq_bind, Option.bind_some,
      readFraction?_renderFraction fractionDigits endsFraction noPoint,
      readExponent?_renderExponent exponentNonempty exponentDigits ends]
    rfl
  rw [renderNumber_eq]
  simp only [List.append_assoc]
  cases negative with
  | true => exact reads
  | false =>
    obtain ⟨c, others, rfl⟩ := List.exists_cons_of_ne_nil nonempty
    have isDigit := digits c List.mem_cons_self
    simp only [Bool.false_eq_true, if_false, List.nil_append, List.cons_append] at reads ⊢
    rw [readNumber?, reads]
    rintro more ⟨⟩
    contradiction

/-! ## Integers -/

end Json

namespace JsonNumber

theorem digitsValue_toDigits (value : Nat) : digitsValue 0 (Nat.toDigits 10 value) = value := by
  have reads := Nat.ofDigitChars_ten_toDigits (n := value)
  simp only [Nat.ofDigitChars, Nat.mul_comm 10] at reads
  exact reads

/-- Only zero is written with a leading zero. -/
theorem head?_toDigits {value : Nat} (positive : 0 < value) :
    (Nat.toDigits 10 value).head? ≠ some '0' := by
  induction value using Nat.base_induction 10 (by decide) with
  | single digit small =>
    have nonzero : ∀ digit < 10, 0 < digit → Nat.digitChar digit ≠ '0' := by decide
    rw [Nat.toDigits_of_lt_base small, List.head?_cons, ne_eq, Option.some.injEq]
    exact nonzero digit small positive
  | digit front digit small nonzero inductionHypothesis =>
    obtain ⟨first, others, split⟩ :=
      List.exists_cons_of_ne_nil (Nat.toDigits_ne_nil (n := front) (b := 10))
    have notZero := inductionHypothesis nonzero
    rw [← Nat.toDigits_append_toDigits (by decide) nonzero small, split]
    rwa [split] at notZero

theorem written_ofNat (value : Nat) : (ofNat value).Written where
  whole_ne_nil := Nat.toDigits_ne_nil
  whole c inside := by
    have isDigit := Nat.isDigit_of_mem_toDigits (by decide) (by decide) inside
    simpa [Json.isDigit, Char.isDigit, Char.le_def] using isDigit
  leading second rest leads := by
    rcases Nat.eq_zero_or_pos value with rfl | positive
    · have single : ['0'] = '0' :: second :: rest := leads
      simp at single
    · exact head?_toDigits positive (congrArg List.head? leads)
  fraction := by simp [ofNat]
  exponent_ne_nil := by simp [ofNat]
  exponent := by simp [ofNat]

theorem written_ofInt (value : Int) : (ofInt value).Written := by
  cases value with
  | ofNat value => exact written_ofNat value
  | negSucc value => exact { written_ofNat (value + 1) with }

/-- A natural number below the limit is read from what is written for it. -/
theorem natBelow?_ofNat {value limit : Nat} (below : value < limit) :
    (ofNat value).natBelow? limit = some value := by
  simp [natBelow?, isIntegral, ofNat, digitsValue_toDigits, below]

/-- So is a signed integer. -/
theorem int64?_ofInt (value : Int64) : (ofInt value.toInt).int64? = some value := by
  have lower := value.le_toInt
  have upper := value.toInt_lt
  have back := Int64.ofInt_toInt value
  cases whole : value.toInt with
  | ofNat magnitude =>
    rw [whole] at lower upper back
    have fits : magnitude < 0x8000000000000000 := by
      have := Int.ofNat_lt.mp upper
      omega
    have value' : Int64.ofInt magnitude = value := back
    simp [int64?, isIntegral, ofInt, ofNat, digitsValue_toDigits, fits, value']
  | negSucc magnitude =>
    rw [whole] at lower upper back
    have fits : magnitude + 1 ≤ 0x8000000000000000 := by omega
    have value' : Int64.ofInt (-((magnitude + 1 : Nat) : Int)) = value := back
    simp only [int64?, isIntegral, ofInt, ofNat, digitsValue_toDigits]
    simp [fits, ← value']

end JsonNumber

namespace Json

/-! ## Strings -/

/-- What a character of a string is read as: a unit where it is written by its digits. -/
def partOf (c : Char) : StringPart :=
  if c.toNat < 32 ∧ c ∉ ['\x08', '\x0c', '\n', '\r', '\t'] then .unit c.toNat else .character c

/-- A unit that is no half of a pair stands for its character. -/
theorem textOfParts?_unit {unit : Nat} (low : unit < 0xd800) (parts : List StringPart) :
    textOfParts? (.unit unit :: parts) = (textOfParts? parts).map (Char.ofNat unit :: ·) := by
  have notHigh : ¬ 0xd800 ≤ unit := Nat.not_le.mpr low
  have notLow : ¬ 0xdc00 ≤ unit := by omega
  rcases parts with _ | ⟨c | other, parts⟩ <;> simp [textOfParts?, notHigh, notLow]

/-- The parts of a text denote the text. -/
theorem textOfParts?_map_partOf (text : List Char) :
    textOfParts? (text.map partOf) = some text := by
  induction text with
  | nil => rfl
  | cons c text inductionHypothesis =>
    rw [List.map_cons, partOf]
    split
    · rename_i control
      rw [textOfParts?_unit (by omega), inductionHypothesis, Char.ofNat_toNat]
      rfl
    · rw [textOfParts?, inductionHypothesis]
      rfl

/-- Four digits that begin with two zeros give the unit that they were written for. -/
theorem unitOfDigits?_digitChar : ∀ unit < 32,
    unitOfDigits? '0' '0' (Nat.digitChar (unit / 16)) (Nat.digitChar (unit % 16)) = some unit := by
  decide

/-- A character is read as it was written. -/
theorem readParts?_escaped (c : Char) (rest : List Char) :
    readParts? (escaped c ++ rest) =
      (readParts? rest).map fun (parts, rest) => (partOf c :: parts, rest) := by
  by_cases short : c ∈ ['"', '\\', '\x08', '\x0c', '\n', '\r', '\t']
  · simp only [List.mem_cons, List.not_mem_nil, or_false] at short
    rcases short with rfl | rfl | rfl | rfl | rfl | rfl | rfl <;> rfl
  simp only [List.mem_cons, List.not_mem_nil, or_false, not_or] at short
  obtain ⟨notQuote, notBackslash, notBackspace, notFeed, notLine, notReturn, notTab⟩ := short
  have notBackspace' : c.toNat ≠ 8 := fun same => notBackspace (Char.toNat_inj.mp same)
  have notFeed' : c.toNat ≠ 12 := fun same => notFeed (Char.toNat_inj.mp same)
  by_cases control : c.toNat < 32
  · have part : partOf c = .unit c.toNat := by simp [partOf, *]
    have written : escaped c =
        ['\\', 'u', '0', '0', Nat.digitChar (c.toNat / 16), Nat.digitChar (c.toNat % 16)] := by
      simp [escaped, *]
    rw [written, part]
    simp only [List.cons_append, List.nil_append, readParts?]
    rw [unitOfDigits?_digitChar c.toNat control]
  · have part : partOf c = .character c := by simp [partOf, control]
    have written : escaped c = [c] := by simp [escaped, *]
    rw [written, part, List.singleton_append, readParts?]
    · simp [control, notBackslash]
    · exact notQuote
    · intro a b d e more isBackslash
      exact absurd isBackslash notBackslash
    · intro d more isBackslash
      exact absurd isBackslash notBackslash

theorem readParts?_text (text rest : List Char) :
    readParts? (text.flatMap escaped ++ '"' :: rest) = some (text.map partOf, rest) := by
  induction text with
  | nil => rfl
  | cons c text inductionHypothesis =>
    rw [List.flatMap_cons, List.append_assoc, readParts?_escaped, inductionHypothesis]
    rfl

/-- A string is read as it was written, also one that denotes no text. -/
theorem readString?_renderString (text : Option String) (rest : List Char) :
    ∃ inside, renderString text ++ rest = '"' :: inside ∧
      readString? inside = some (text, rest) := by
  cases text with
  | none =>
    have unit : unitOfDigits? 'd' '8' '0' '0' = some 0xd800 := by decide
    have half : textOfParts? [.unit 0xd800] = none := by decide
    refine ⟨'\\' :: 'u' :: 'd' :: '8' :: '0' :: '0' :: '"' :: rest, rfl, ?_⟩
    simp [readString?, readParts?, unit, half]
  | some text =>
    refine ⟨text.toList.flatMap escaped ++ '"' :: rest, by simp [renderString], ?_⟩
    simp only [readString?, readParts?_text, textOfParts?_map_partOf, Option.map_some,
      String.ofList_toList]

end Json

end JitTrace
