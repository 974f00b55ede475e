import JitTrace.Number.Digits
import Mathlib.Data.Option.Basic

/-!
# Signs and markers of numbers

The digits of a number may stand behind a sign, and behind a marker that tells their base.
What such texts stand for is said here for any notation of natural numbers, and each reader of
bounded integers finds exactly that.
-/

namespace JitTrace.Number

/-- A notation of natural numbers is read in a base. -/
def ReadIn (base : Nat) (number : List Char → Nat → Prop) : Prop :=
  ∀ digits value, natural? base digits = some value ↔ number digits value

/-- Digits in front of which a plus sign may stand. -/
inductive Plussed (number : List Char → Nat → Prop) : List Char → Nat → Prop where
  | bare {digits : List Char} {value : Nat} (isNumber : number digits value) :
    Plussed number digits value
  | plus {digits : List Char} {value : Nat} (isNumber : number digits value) :
    Plussed number ('+' :: digits) value

/-- Digits in front of which either sign may stand. -/
inductive Signed (number : List Char → Nat → Prop) : List Char → Int → Prop where
  | plussed {cs : List Char} {value : Nat} (isNumber : Plussed number cs value) :
    Signed number cs value
  | minus {digits : List Char} {value : Nat} (isNumber : number digits value) :
    Signed number ('-' :: digits) (-value)

/-- A number of one kind, or one of another kind behind a hexadecimal marker. -/
inductive Marked {Value : Type} (plain marked : List Char → Value → Prop) :
    List Char → Value → Prop where
  | plain {cs : List Char} {value : Value} (isNumber : plain cs value) :
    Marked plain marked cs value
  | lower {digits : List Char} {value : Value} (isNumber : marked digits value) :
    Marked plain marked ('0' :: 'x' :: digits) value
  | upper {digits : List Char} {value : Value} (isNumber : marked digits value) :
    Marked plain marked ('0' :: 'X' :: digits) value

variable {base : Nat} {number : List Char → Nat → Prop} {cs digits : List Char}

/-- No number starts with what is no digit. -/
theorem natural?_cons_eq_none {c : Char} (notDigit : digitValue? base c = none) :
    natural? base (c :: digits) = none := by
  rw [natural?, naturalFrom?, notDigit]

@[simp] theorem digitValue?_plus : digitValue? base '+' = none := by
  simp [digitValue?]

@[simp] theorem digitValue?_minus : digitValue? base '-' = none := by
  simp [digitValue?]

theorem natural?_zero_cons_eq_none {c : Char} (notDigit : digitValue? base c = none) :
    natural? base ('0' :: c :: digits) = none := by
  rw [natural?, naturalFrom?]
  split
  · rw [naturalFrom?, notDigit]
  · rfl

namespace ReadIn

theorem not_cons (reads : ReadIn base number) {c : Char} (notDigit : digitValue? base c = none)
    {value : Nat} : ¬ number (c :: digits) value := by
  rw [← reads, natural?_cons_eq_none notDigit]
  exact fun isSome => nomatch isSome

theorem filter_eq_some (reads : ReadIn base number) {accepts : Nat → Bool} {value : Nat} :
    (natural? base digits).filter accepts = some value ↔
      number digits value ∧ accepts value = true := by
  rw [Option.filter_eq_some_iff, reads]

theorem plussed_plus (reads : ReadIn base number) {value : Nat} :
    Plussed number ('+' :: digits) value ↔ number digits value := by
  constructor
  · intro isNumber
    cases isNumber with
    | bare isNumber => exact absurd isNumber (reads.not_cons digitValue?_plus)
    | plus isNumber => exact isNumber
  · exact .plus

theorem plussed_bare (unsigned : cs.head? ≠ some '+') {value : Nat} :
    Plussed number cs value ↔ number cs value := by
  constructor
  · intro isNumber
    cases isNumber with
    | bare isNumber => exact isNumber
    | plus => exact absurd rfl unsigned
  · exact .bare

theorem signed_minus (reads : ReadIn base number) {value : Int} :
    Signed number ('-' :: digits) value ↔ ∃ magnitude : Nat, number digits magnitude ∧
      value = -magnitude := by
  constructor
  · intro isNumber
    cases isNumber with
    | plussed isNumber =>
      cases isNumber with
      | bare isNumber => exact absurd isNumber (reads.not_cons digitValue?_minus)
    | minus isNumber => exact ⟨_, isNumber, rfl⟩
  · rintro ⟨magnitude, isNumber, rfl⟩
    exact .minus isNumber

theorem signed_plussed (unsigned : cs.head? ≠ some '-') {value : Int} :
    Signed number cs value ↔ ∃ magnitude : Nat, Plussed number cs magnitude ∧
      value = magnitude := by
  constructor
  · intro isNumber
    cases isNumber with
    | plussed isNumber => exact ⟨_, isNumber, rfl⟩
    | minus => exact absurd rfl unsigned
  · rintro ⟨magnitude, isNumber, rfl⟩
    exact .plussed isNumber

/-- An unsigned integer is read from its digits and a plus sign in front of them. -/
theorem unsigned?_eq_some (reads : ReadIn base number) {limit value : Nat} :
    unsigned? base limit cs = some value ↔ value < limit ∧ Plussed number cs value := by
  unfold unsigned?
  split
  · rw [reads.filter_eq_some, reads.plussed_plus, decide_eq_true_eq, and_comm]
  · rename_i noSign
    have unsigned : cs.head? ≠ some '+' := fun signed =>
      have ⟨digits, isSigned⟩ := List.head?_eq_some_iff.mp signed
      noSign digits isSigned
    rw [reads.filter_eq_some, plussed_bare unsigned, decide_eq_true_eq, and_comm]

theorem word64?_eq_some (reads : ReadIn base number) {word : UInt64} :
    word64? base cs = some word ↔ Plussed number cs word.toNat := by
  simp only [word64?, Option.map_eq_some_iff, reads.unsigned?_eq_some]
  constructor
  · rintro ⟨value, ⟨fits, isNumber⟩, rfl⟩
    rwa [UInt64.toNat_ofNat_of_lt' fits]
  · exact fun isNumber => ⟨_, ⟨word.toNat_lt_size, isNumber⟩, UInt64.ofNat_toNat⟩

theorem word32?_eq_some (reads : ReadIn 10 number) {word : UInt32} :
    word32? cs = some word ↔ Plussed number cs word.toNat := by
  simp only [word32?, Option.map_eq_some_iff, reads.unsigned?_eq_some]
  constructor
  · rintro ⟨value, ⟨fits, isNumber⟩, rfl⟩
    rwa [UInt32.toNat_ofNat_of_lt' fits]
  · exact fun isNumber => ⟨_, ⟨word.toNat_lt_size, isNumber⟩, UInt32.ofNat_toNat⟩

/-- A signed integer is read from its digits and either sign in front of them. -/
theorem signed?_eq_some (reads : ReadIn base number) {limit : Nat} (positive : 0 < limit)
    {value : Int} : signed? base limit cs = some value ↔
      (-limit ≤ value ∧ value < limit) ∧ Signed number cs value := by
  by_cases negative : ∃ digits, cs = '-' :: digits
  · obtain ⟨digits, rfl⟩ := negative
    have negated : signed? base limit ('-' :: digits) =
        ((natural? base digits).filter (· ≤ limit)).map
          fun magnitude : Nat => -(magnitude : Int) := by
      rw [signed?]
      cases (natural? base digits).filter (· ≤ limit) <;> rfl
    rw [negated, Option.map_eq_some_iff, reads.signed_minus]
    simp only [reads.filter_eq_some, decide_eq_true_eq]
    constructor
    · rintro ⟨magnitude, ⟨isNumber, fits⟩, rfl⟩
      exact ⟨by omega, magnitude, isNumber, rfl⟩
    · rintro ⟨fits, magnitude, isNumber, rfl⟩
      exact ⟨magnitude, ⟨isNumber, by omega⟩, rfl⟩
  · have unsigned : cs.head? ≠ some '-' := fun signed =>
      negative (List.head?_eq_some_iff.mp signed)
    -- A plus sign is the same to both readers.
    have same : signed? base limit cs = (unsigned? base limit cs).map Int.ofNat := by
      unfold signed? unsigned?
      grind
    rw [same, Option.map_eq_some_iff, signed_plussed unsigned]
    simp only [reads.unsigned?_eq_some]
    constructor
    · rintro ⟨magnitude, ⟨fits, isNumber⟩, rfl⟩
      exact ⟨by grind, magnitude, isNumber, rfl⟩
    · rintro ⟨fits, magnitude, isNumber, rfl⟩
      exact ⟨magnitude, ⟨by omega, isNumber⟩, rfl⟩

theorem signed_unique (reads : ReadIn base number) {first second : Int}
    (isFirst : Signed number cs first) (isSecond : Signed number cs second) : first = second := by
  have read {value : Int} (within : value.natAbs ≤ first.natAbs + second.natAbs)
      (isNumber : Signed number cs value) :
      signed? base (first.natAbs + second.natAbs + 1) cs = some value :=
    (reads.signed?_eq_some (by omega)).mpr ⟨by omega, isNumber⟩
  exact Option.some.inj ((read (by omega) isFirst).symm.trans (read (by omega) isSecond))

theorem int64?_eq_some (reads : ReadIn base number) {value : Int64} :
    int64? base cs = some value ↔ Signed number cs value.toInt := by
  have least := value.le_toInt
  have greatest := value.toInt_lt
  have bounded {integer : Int} : signed? base 0x8000000000000000 cs = some integer ↔ _ :=
    reads.signed?_eq_some (by decide)
  simp only [int64?, Option.map_eq_some_iff, bounded]
  constructor
  · rintro ⟨integer, ⟨⟨above, below⟩, isNumber⟩, rfl⟩
    rwa [Int64.toInt_ofInt_of_le (by omega) (by omega)]
  · exact fun isNumber => ⟨_, ⟨⟨by omega, by omega⟩, isNumber⟩, Int64.ofInt_toInt value⟩

end ReadIn

theorem hexMarked?_eq_some : hexMarked? cs = some digits ↔
    cs = '0' :: 'x' :: digits ∨ cs = '0' :: 'X' :: digits := by
  unfold hexMarked?
  split <;> simp_all [eq_comm]

/-- No number of a base looks like a marked one. -/
theorem ReadIn.not_marked (reads : ReadIn base number) (isMarked : hexMarked? cs = some digits)
    {value : Int} : ¬ Signed number cs value := by
  have unmarked {c : Char} (notDigit : digitValue? base c = none) {magnitude : Nat} :
      ¬ Plussed number ('0' :: c :: digits) magnitude := by
    rw [plussed_bare (by simp), ← reads, natural?_zero_cons_eq_none notDigit]
    exact fun isSome => nomatch isSome
  rcases hexMarked?_eq_some.mp isMarked with rfl | rfl
  · rw [signed_plussed (by simp)]
    exact fun ⟨_, isNumber, _⟩ => unmarked (by simp [digitValue?]) isNumber
  · rw [signed_plussed (by simp)]
    exact fun ⟨_, isNumber, _⟩ => unmarked (by simp [digitValue?]) isNumber

section Marked

variable {Value : Type} {plain marked : List Char → Value → Prop} {value : Value}

theorem marked_iff_of_some (isMarked : hexMarked? cs = some digits)
    (unmixed : ¬ plain cs value) : Marked plain marked cs value ↔ marked digits value := by
  constructor
  · intro isNumber
    cases isNumber with
    | plain isNumber => exact absurd isNumber unmixed
    | lower isNumber => exact Option.some.inj isMarked ▸ isNumber
    | upper isNumber => exact Option.some.inj isMarked ▸ isNumber
  · rcases hexMarked?_eq_some.mp isMarked with rfl | rfl
    · exact .lower
    · exact .upper

theorem marked_iff_of_none (unmarked : hexMarked? cs = none) :
    Marked plain marked cs value ↔ plain cs value := by
  constructor
  · intro isNumber
    cases isNumber with
    | plain isNumber => exact isNumber
    | lower => contradiction
    | upper => contradiction
  · exact .plain

/-- Where no plain number looks like a marked one, the marker decides which reader is asked. -/
theorem marked_iff {Word : Type} {readPlain readMarked : List Char → Option Word} {word : Word}
    (readsPlain : readPlain cs = some word ↔ plain cs value)
    (readsMarked : ∀ digits, readMarked digits = some word ↔ marked digits value)
    (unmixed : ∀ digits, hexMarked? cs = some digits → ¬ plain cs value) :
    (match hexMarked? cs with
      | some digits => readMarked digits
      | none => readPlain cs) = some word ↔ Marked plain marked cs value := by
  cases isMarked : hexMarked? cs with
  | some digits => rw [readsMarked, marked_iff_of_some isMarked (unmixed digits isMarked)]
  | none => rw [readsPlain, marked_iff_of_none isMarked]

/-- What a text stands for depends on what its digits stand for. -/
theorem Marked.imp {Other : Type} {otherPlain otherMarked : List Char → Other → Prop}
    {other : Other} (isNumber : Marked plain marked cs value)
    (isPlain : plain cs value → otherPlain cs other)
    (isMarked : ∀ digits ⊆ cs, marked digits value → otherMarked digits other) :
    Marked otherPlain otherMarked cs other := by
  cases isNumber with
  | plain isNumber => exact .plain (isPlain isNumber)
  | lower isNumber => exact .lower (isMarked _ (by simp) isNumber)
  | upper isNumber => exact .upper (isMarked _ (by simp) isNumber)

theorem Marked.unique
    (uniquePlain : ∀ cs first second, plain cs first → plain cs second → first = second)
    (uniqueMarked : ∀ cs first second, marked cs first → marked cs second → first = second)
    (unmixed : ∀ cs digits value, hexMarked? cs = some digits → ¬ plain cs value)
    {first second : Value} (isFirst : Marked plain marked cs first)
    (isSecond : Marked plain marked cs second) : first = second := by
  cases isMarked : hexMarked? cs with
  | some digits =>
    rw [marked_iff_of_some isMarked (unmixed cs digits _ isMarked)] at isFirst isSecond
    exact uniqueMarked digits first second isFirst isSecond
  | none =>
    rw [marked_iff_of_none isMarked] at isFirst isSecond
    exact uniquePlain cs first second isFirst isSecond

end Marked

end JitTrace.Number
