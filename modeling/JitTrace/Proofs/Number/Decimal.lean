import JitTrace.Proofs.Number.Signs
import Mathlib.Data.Nat.Digits.Defs

/-!
# Decimal numbers

What a row of decimal digits stands for. Zeros may stand in front, so a number has many
rows of digits, and the usual one is among them. The readers find this number and no other.
-/

namespace JitTrace.Number

/-- The characters are decimal digits, at least one, and this is their number. -/
def DecimalNumber (digits : List Char) (number : Nat) : Prop :=
  digits ≠ [] ∧ (∀ c ∈ digits, c.isDigit = true) ∧ number = Nat.ofDigitChars 10 digits 0

variable {digits : List Char} {number : Nat}

/-- The usual digits of a number. -/
theorem decimalNumber_toDigits (number : Nat) :
    DecimalNumber (Nat.toDigits 10 number) number :=
  ⟨Nat.toDigits_ne_nil, fun _ inside => Nat.isDigit_of_mem_toDigits (by decide) (by decide) inside,
    Nat.ofDigitChars_ten_toDigits.symm⟩

theorem notMem_toDigits {c : Char} (notDigit : c.isDigit = false) (number : Nat) :
    c ∉ Nat.toDigits 10 number := by
  intro inside
  rw [(decimalNumber_toDigits number).2.1 c inside] at notDigit
  contradiction

theorem digitValue?_ten (c : Char) :
    digitValue? 10 c = if c.isDigit then some (c.toNat - '0'.toNat) else none := by
  have ranged : (decide ('0' ≤ c) && decide (c ≤ '9')) = c.isDigit := rfl
  simp only [digitValue?, ranged]
  cases digit : c.isDigit with
  | true =>
    rw [← ranged, Bool.and_eq_true, decide_eq_true_eq, decide_eq_true_eq] at digit
    have upToNine : c.toNat ≤ 57 := UInt32.le_iff_toNat_le.mp digit.2
    have small : c.toNat - '0'.toNat < 10 := Nat.lt_succ_of_le (Nat.sub_le_of_le_add upToNine)
    simp only [if_true, Option.filter_some, small, decide_true]
  | false =>
    -- The letters have greater values.
    simp only [Bool.false_eq_true, if_false]
    split_ifs <;> simp

theorem naturalFrom?_ten {start : Nat} :
    naturalFrom? 10 start digits = some number ↔
      (∀ c ∈ digits, c.isDigit = true) ∧ number = Nat.ofDigitChars 10 digits start := by
  induction digits generalizing start with
  | nil => simpa [naturalFrom?] using eq_comm
  | cons c digits inductionHypothesis =>
    rw [naturalFrom?, digitValue?_ten, List.forall_mem_cons, Nat.ofDigitChars_cons]
    by_cases isDigit : c.isDigit = true
    · rw [if_pos isDigit]
      simp only [inductionHypothesis, isDigit, true_and, Nat.mul_comm start]
    · rw [if_neg isDigit]
      simp [isDigit]

theorem natural?_ten : natural? 10 digits = some number ↔ DecimalNumber digits number := by
  cases digits with
  | nil => simp [natural?, DecimalNumber]
  | cons c digits => simp only [natural?, naturalFrom?_ten, DecimalNumber, ne_eq, reduceCtorEq,
      not_false_eq_true, true_and]

theorem readIn_decimal : ReadIn 10 DecimalNumber :=
  fun _ _ => natural?_ten

/-- Digits without a sign are read as their number, when that is below the limit. -/
theorem unsigned?_ten {limit : Nat} (unsigned : digits.head? ≠ some '+') :
    unsigned? 10 limit digits = some number ↔ number < limit ∧ DecimalNumber digits number := by
  rw [readIn_decimal.unsigned?_eq_some, ReadIn.plussed_bare unsigned]

end JitTrace.Number
