import JitTrace.Proofs.Number.Signs
import Mathlib.Data.List.Forall2
import Mathlib.Data.Nat.Digits.Defs

/-!
# Hexadecimal numbers

What a row of hexadecimal digits stands for, said without a reader: each digit has a value,
and the values are the digits of the number, the last one the least. The readers find this
number and no other.
-/

namespace JitTrace.Number

/-- The character is the hexadecimal digit of this value, in lower or upper case. -/
def HexDigit (c : Char) (value : Nat) : Prop :=
  value < 16 ∧ (c = Nat.digitChar value ∨ c = (Nat.digitChar value).toUpper)

instance (c : Char) (value : Nat) : Decidable (HexDigit c value) :=
  inferInstanceAs (Decidable (_ ∧ _))

/-- The characters are hexadecimal digits, at least one, and this is their number. -/
def HexNumber (digits : List Char) (number : Nat) : Prop :=
  digits ≠ [] ∧ ∃ values, List.Forall₂ HexDigit digits values ∧
    number = Nat.ofDigits 16 values.reverse

/-- The number of hexadecimal digits, in front of which a plus sign may stand. -/
def SignedNumber (digits : List Char) (number : Nat) : Prop :=
  HexNumber digits number ∨ ∃ unsigned, digits = '+' :: unsigned ∧ HexNumber unsigned number

variable {c : Char} {digits : List Char} {number : Nat}

/-- What is known of the first 128 codes is known of their characters. -/
theorem of_low_codes (property : Char → Prop) (each : ∀ code < 128, property (Char.ofNat code))
    (low : c.toNat < 128) : property c := by
  have ofCode := each c.toNat low
  rwa [Char.ofNat_toNat] at ofCode

theorem lt_of_digitValue? {base value : Nat} (found : digitValue? base c = some value) :
    c.toNat < 128 := by
  have below {last : Char} (upTo : c ≤ last) (known : last.toNat < 128) : c.toNat < 128 :=
    Nat.lt_of_le_of_lt (UInt32.le_iff_toNat_le.mp upTo) known
  simp only [digitValue?, Option.filter_eq_some_iff, Bool.and_eq_true, decide_eq_true_eq] at found
  obtain ⟨found, -⟩ := found
  split_ifs at found with digit lower upper
  · exact below digit.2 (by decide)
  · exact below lower.2 (by decide)
  · exact below upper.2 (by decide)

theorem digitValue?_eq_some {value : Nat} : digitValue? 16 c = some value ↔ HexDigit c value := by
  constructor
  · intro found
    exact of_low_codes (fun c => ∀ value ∈ digitValue? 16 c, HexDigit c value) (by decide)
      (lt_of_digitValue? found) value found
  · have each : ∀ value < 16, digitValue? 16 (Nat.digitChar value) = some value ∧
        digitValue? 16 (Nat.digitChar value).toUpper = some value := by decide
    rintro ⟨small, rfl | rfl⟩
    · exact (each value small).1
    · exact (each value small).2

/-- A number is read digit by digit, with what has been read before as the greatest one. -/
theorem naturalFrom?_eq_some {start : Nat} :
    naturalFrom? 16 start digits = some number ↔ ∃ values,
      List.Forall₂ HexDigit digits values ∧
        number = Nat.ofDigits 16 (values.reverse ++ [start]) := by
  induction digits generalizing start with
  | nil => simp [naturalFrom?, eq_comm]
  | cons c digits inductionHypothesis =>
    have shift (values : List Nat) (value : Nat) :
        Nat.ofDigits 16 (values.reverse ++ [start * 16 + value]) =
          Nat.ofDigits 16 ((value :: values).reverse ++ [start]) := by
      simp only [List.reverse_cons, List.append_assoc, List.singleton_append, Nat.ofDigits_append,
        Nat.ofDigits_cons, Nat.ofDigits_nil]
      ring
    rw [naturalFrom?]
    cases found : digitValue? 16 c with
    | none =>
      simp only [List.forall₂_cons_left_iff, reduceCtorEq, false_iff]
      rintro ⟨_, ⟨value, values, isDigit, -, rfl⟩, -⟩
      simp [digitValue?_eq_some.mpr isDigit] at found
    | some value =>
      simp only [inductionHypothesis, shift]
      constructor
      · rintro ⟨values, each, isNumber⟩
        exact ⟨value :: values, .cons (digitValue?_eq_some.mp found) each, isNumber⟩
      · rintro ⟨_, each, isNumber⟩
        obtain ⟨other, values, isDigit, others, rfl⟩ := List.forall₂_cons_left_iff.mp each
        obtain rfl : value = other := by simpa [found] using digitValue?_eq_some.mpr isDigit
        exact ⟨values, others, isNumber⟩

theorem natural?_eq_some : natural? 16 digits = some number ↔ HexNumber digits number := by
  cases digits with
  | nil => simp [natural?, HexNumber]
  | cons c digits => simp [natural?, HexNumber, naturalFrom?_eq_some, Nat.ofDigits_append]

/-- Hexadecimal digits are among the first 128 characters. -/
theorem HexNumber.lt_of_mem (isNumber : HexNumber digits number) (inside : c ∈ digits) :
    c.toNat < 128 := by
  obtain ⟨-, values, each, -⟩ := isNumber
  induction each with
  | nil => contradiction
  | cons isDigit _ inductionHypothesis =>
    rcases List.mem_cons.mp inside with rfl | later
    · exact lt_of_digitValue? (digitValue?_eq_some.mpr isDigit)
    · exact inductionHypothesis later

theorem readIn_hexadecimal : ReadIn 16 HexNumber :=
  fun _ _ => natural?_eq_some

theorem not_hexNumber_plus (unsigned : List Char) (number : Nat) :
    ¬ HexNumber ('+' :: unsigned) number :=
  readIn_hexadecimal.not_cons digitValue?_plus

theorem plussed_hexNumber : Plussed HexNumber digits number ↔ SignedNumber digits number := by
  constructor
  · intro isNumber
    cases isNumber with
    | bare isNumber => exact .inl isNumber
    | plus isNumber => exact .inr ⟨_, rfl, isNumber⟩
  · rintro (isNumber | ⟨unsigned, rfl, isNumber⟩)
    · exact .bare isNumber
    · exact .plus isNumber

theorem unsigned?_eq_some {limit : Nat} :
    unsigned? 16 limit digits = some number ↔ number < limit ∧ SignedNumber digits number := by
  rw [readIn_hexadecimal.unsigned?_eq_some, plussed_hexNumber]

namespace SignedNumber

theorem lt_of_mem (isNumber : SignedNumber digits number) (inside : c ∈ digits) :
    c.toNat < 128 := by
  rcases isNumber with isNumber | ⟨unsigned, rfl, isNumber⟩
  · exact isNumber.lt_of_mem inside
  · rcases List.mem_cons.mp inside with rfl | behind
    · decide
    · exact isNumber.lt_of_mem behind

/-- Where there is no sign, the digits are a number of their own. -/
theorem hexNumber (isNumber : SignedNumber digits number) (unsigned : '+' ∉ digits) :
    HexNumber digits number := by
  rcases isNumber with isNumber | ⟨_, rfl, -⟩
  · exact isNumber
  · exact absurd List.mem_cons_self unsigned

end SignedNumber

end JitTrace.Number
