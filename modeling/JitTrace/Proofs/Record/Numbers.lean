import JitTrace.Proofs.Number.Decimal
import JitTrace.Proofs.Number.Hexadecimal
import JitTrace.Proofs.Text.Cut
import JitTrace.Record.Integer

/-!
# What number fields accept

The documented form of a number is decimal digits, or hexadecimal ones behind a marker, and for
an integer a minus sign in front. All such texts are read as their number when it fits a word,
except for the least integer: its magnitude does not fit before the sign is applied. Where the
digits should begin the readers take one more sign, and without such signs they take nothing
but the documented form.
-/

namespace JitTrace.Record

open Number (DecimalNumber HexNumber Marked Plussed Signed readIn_decimal readIn_hexadecimal)

/-- The documented form of an integer. -/
inductive IntegerText : List Char → Int → Prop where
  | plain {cs : List Char} {magnitude : Nat}
    (isNumber : Marked DecimalNumber HexNumber cs magnitude) : IntegerText cs magnitude
  | negative {cs : List Char} {magnitude : Nat}
    (isNumber : Marked DecimalNumber HexNumber cs magnitude) : IntegerText ('-' :: cs) (-magnitude)

/-- What is accepted as an integer: behind the minus sign, or the marker, or both, the digits may
have a sign of their own. -/
inductive AcceptedInteger : List Char → Int64 → Prop where
  | plain {cs : List Char} {value : Int64} (unsigned : cs.head? ≠ some '-')
    (isNumber : Marked (Signed DecimalNumber) (Signed HexNumber) cs value.toInt) :
    AcceptedInteger cs value
  | negated {cs : List Char} {value : Int64}
    (isNumber : Marked (Signed DecimalNumber) (Signed HexNumber) cs value.toInt) :
    AcceptedInteger ('-' :: cs) (-value)

variable {cs : List Char} {value : Int64}

theorem magnitude?_eq_some : magnitude? cs = some value ↔
    Marked (Signed DecimalNumber) (Signed HexNumber) cs value.toInt :=
  Number.marked_iff readIn_decimal.int64?_eq_some (fun _ => readIn_hexadecimal.int64?_eq_some)
    fun _ isMarked => readIn_decimal.not_marked isMarked

/-- A minus sign in front is taken off before the magnitude is read. -/
theorem acceptedInteger_iff (cs : List Char) (value : Int64) : (match cs with
      | '-' :: rest => (magnitude? rest).map fun magnitude => -magnitude
      | _ => magnitude? cs) = some value ↔ AcceptedInteger cs value := by
  split
  · simp only [Option.map_eq_some_iff, magnitude?_eq_some]
    constructor
    · rintro ⟨magnitude, isNumber, rfl⟩
      exact .negated isNumber
    · intro accepted
      cases accepted with
      | plain unsigned => exact absurd rfl unsigned
      | negated isNumber => exact ⟨_, isNumber, rfl⟩
  · rename_i noSign
    rw [magnitude?_eq_some]
    constructor
    · refine .plain fun signed => ?_
      obtain ⟨rest, isSigned⟩ := List.head?_eq_some_iff.mp signed
      exact noSign rest isSigned
    · intro accepted
      cases accepted with
      | plain _ isNumber => exact isNumber
      | negated => exact absurd rfl (noSign _)

theorem readInt_eq_ok {raw : String} :
    readInt raw = .ok value ↔ AcceptedInteger (Text.trim raw.toList) value := by
  have accepted := acceptedInteger_iff (Text.trim raw.toList) value
  rw [readInt]
  split
  · rename_i found
    constructor
    · intro read
      exact accepted.mp (found.trans (congrArg some (Except.ok.inj read)))
    · intro isInteger
      exact congrArg Except.ok (Option.some.inj (found.symm.trans (accepted.mpr isInteger)))
  · rename_i notFound
    refine iff_of_false (fun read => nomatch read) fun isInteger => ?_
    have found := notFound.symm.trans (accepted.mpr isInteger)
    contradiction

theorem readAddress_eq_ok {raw : String} {address : UInt64} : readAddress raw = .ok address ↔
    Marked (Plussed DecimalNumber) (Plussed HexNumber) (Text.trim raw.toList) address.toNat := by
  have accepted := @Number.marked_iff (Text.trim raw.toList) _ (Plussed DecimalNumber)
    (Plussed HexNumber) address.toNat _ (Number.word64? 10) (Number.word64? 16) address
    readIn_decimal.word64?_eq_some (fun _ => readIn_hexadecimal.word64?_eq_some)
    fun _ isMarked isNumber => readIn_decimal.not_marked isMarked (.plussed isNumber)
  rw [readAddress]
  split
  · rename_i found
    constructor
    · intro read
      exact accepted.mp (found.trans (congrArg some (Except.ok.inj read)))
    · intro isAddress
      exact congrArg Except.ok (Option.some.inj (found.symm.trans (accepted.mpr isAddress)))
  · rename_i notFound
    refine iff_of_false (fun read => nomatch read) fun isAddress => ?_
    have found := notFound.symm.trans (accepted.mpr isAddress)
    contradiction

/-! ## Texts of the documented form -/

/-- Only the least integer has no opposite. -/
theorem toInt_neg_of_ne {value : Int64} (notLeast : value.toInt ≠ -2 ^ 63) :
    (-value).toInt = -value.toInt := by
  have least := value.le_toInt
  have greatest := value.toInt_lt
  rw [Int64.toInt_neg, Int.bmod_eq_of_le (by omega) (by omega)]

theorem toInt_neg_of_eq {value : Int64} (isLeast : value.toInt = -2 ^ 63) :
    (-value).toInt = -2 ^ 63 := by
  rw [Int64.toInt_neg, isLeast]
  rfl

section Documented

variable {magnitude : Nat}

/-- The documented digits are among those that are accepted. -/
theorem marked_signed (isNumber : Marked DecimalNumber HexNumber cs magnitude) :
    Marked (Signed DecimalNumber) (Signed HexNumber) cs (magnitude : Int) :=
  isNumber.imp (fun isNumber => .plussed (.bare isNumber))
    fun _ _ isNumber => .plussed (.bare isNumber)

theorem head?_ne_minus (isNumber : Marked DecimalNumber HexNumber cs magnitude) :
    cs.head? ≠ some '-' := by
  cases isNumber with
  | plain isNumber =>
    intro signed
    obtain ⟨rest, rfl⟩ := List.head?_eq_some_iff.mp signed
    exact readIn_decimal.not_cons Number.digitValue?_minus isNumber
  | lower => simp
  | upper => simp

/-- Documented digits stand for one number. -/
theorem marked_signed_iff (isNumber : Marked DecimalNumber HexNumber cs magnitude) (number : Int) :
    Marked (Signed DecimalNumber) (Signed HexNumber) cs number ↔ number = magnitude := by
  constructor
  · intro isOther
    refine Marked.unique ?_ ?_ ?_ isOther (marked_signed isNumber)
    · exact fun _ _ _ => readIn_decimal.signed_unique
    · exact fun _ _ _ => readIn_hexadecimal.signed_unique
    · exact fun _ _ _ isMarked => readIn_decimal.not_marked isMarked
  · rintro rfl
    exact marked_signed isNumber

/-- A documented text is read as its number, unless that does not fit or is the least one. -/
theorem acceptedInteger_iff_of_documented {number : Int} (documented : IntegerText cs number) :
    AcceptedInteger cs value ↔ value.toInt = number ∧ number ≠ -2 ^ 63 := by
  cases documented with
  | @plain cs magnitude isNumber =>
    have natural : (magnitude : Int) ≠ -2 ^ 63 := by omega
    rw [and_iff_left natural, ← marked_signed_iff isNumber]
    constructor
    · intro accepted
      cases accepted with
      | plain _ isNumber => exact isNumber
      | negated => exact absurd rfl (head?_ne_minus isNumber)
    · exact .plain (head?_ne_minus isNumber)
  | @negative rest magnitude isNumber =>
    have negated : AcceptedInteger ('-' :: rest) value ↔ (-value).toInt = magnitude := by
      rw [← marked_signed_iff isNumber]
      constructor
      · intro accepted
        cases accepted with
        | plain unsigned => exact absurd rfl unsigned
        | negated isNumber => rwa [Int64.neg_neg]
      · intro isNumber
        exact Int64.neg_neg (a := value) ▸ .negated isNumber
    rw [negated]
    by_cases isLeast : value.toInt = -2 ^ 63
    · rw [toInt_neg_of_eq isLeast, isLeast]
      omega
    · rw [toInt_neg_of_ne isLeast]
      omega

end Documented

/-! ## Texts without a second sign -/

/-- Digits without a minus sign are a natural number. -/
theorem exists_of_noMinus (noMinus : '-' ∉ cs) {number : Int}
    (isNumber : Marked (Signed DecimalNumber) (Signed HexNumber) cs number) :
    ∃ magnitude : Nat, Marked (Plussed DecimalNumber) (Plussed HexNumber) cs magnitude ∧
      number = magnitude := by
  have natural {notion : List Char → Nat → Prop} {digits : List Char} {number : Int}
      (inside : digits ⊆ cs) (isNumber : Signed notion digits number) :
      ∃ magnitude : Nat, Plussed notion digits magnitude ∧ number = magnitude := by
    cases isNumber with
    | plussed isNumber => exact ⟨_, isNumber, rfl⟩
    | minus => exact absurd (inside List.mem_cons_self) noMinus
  cases isNumber with
  | plain isNumber =>
    obtain ⟨magnitude, isNumber, same⟩ := natural (List.Subset.refl _) isNumber
    exact ⟨magnitude, .plain isNumber, same⟩
  | lower isNumber =>
    obtain ⟨magnitude, isNumber, same⟩ := natural (by simp) isNumber
    exact ⟨magnitude, .lower isNumber, same⟩
  | upper isNumber =>
    obtain ⟨magnitude, isNumber, same⟩ := natural (by simp) isNumber
    exact ⟨magnitude, .upper isNumber, same⟩

/-- Without a plus sign they are documented digits. -/
theorem marked_of_noPlus (noPlus : '+' ∉ cs) {magnitude : Nat}
    (isNumber : Marked (Plussed DecimalNumber) (Plussed HexNumber) cs magnitude) :
    Marked DecimalNumber HexNumber cs magnitude := by
  have bare {notion : List Char → Nat → Prop} {digits : List Char} (inside : digits ⊆ cs)
      (isNumber : Plussed notion digits magnitude) : notion digits magnitude := by
    cases isNumber with
    | bare isNumber => exact isNumber
    | plus => exact absurd (inside List.mem_cons_self) noPlus
  exact isNumber.imp (bare (List.Subset.refl _)) fun _ inside => bare inside

/-- A text that is accepted has the documented form, unless a second sign stands in it. -/
theorem AcceptedInteger.documented (accepted : AcceptedInteger cs value) (noPlus : '+' ∉ cs)
    (noMinus : '-' ∉ cs.tail) : IntegerText cs value.toInt := by
  cases accepted with
  | plain unsigned isNumber =>
    have unsigned : '-' ∉ cs := by
      cases cs with
      | nil => simp
      | cons c cs => grind
    obtain ⟨magnitude, isNumber, same⟩ := exists_of_noMinus unsigned isNumber
    exact same ▸ .plain (marked_of_noPlus noPlus isNumber)
  | @negated rest opposite isNumber =>
    obtain ⟨magnitude, isNumber, same⟩ := exists_of_noMinus noMinus isNumber
    rw [toInt_neg_of_ne (by omega), same]
    exact .negative (marked_of_noPlus (fun inside => noPlus (.tail _ inside)) isNumber)

/-! ## Readers -/

/-- What an integer field is read as. -/
structure ReadsInteger (raw : String) : Prop where
  accepts : ∀ value, readInt raw = .ok value ↔ AcceptedInteger (Text.trim raw.toList) value
  /-- A documented text is read as its number if that fits, and the least integer is refused. -/
  documented : ∀ number, IntegerText (Text.trim raw.toList) number → ∀ value,
    (readInt raw = .ok value ↔ value.toInt = number ∧ number ≠ -2 ^ 63)
  /-- A second sign apart, nothing else is read. -/
  unsigned : '+' ∉ Text.trim raw.toList → '-' ∉ (Text.trim raw.toList).tail → ∀ value,
    readInt raw = .ok value → IntegerText (Text.trim raw.toList) value.toInt
  /-- A second minus sign apart, what is read behind the first one has an opposite. -/
  opposite : ∀ rest, Text.trim raw.toList = '-' :: rest → '-' ∉ rest → ∀ magnitude,
    magnitude? rest = some magnitude → (-magnitude).toInt = -magnitude.toInt

/-- What an address field is read as. -/
structure ReadsAddress (raw : String) : Prop where
  accepts : ∀ address, readAddress raw = .ok address ↔
    Marked (Plussed DecimalNumber) (Plussed HexNumber) (Text.trim raw.toList) address.toNat
  /-- A documented text is read as its number if that fits. -/
  documented : ∀ number, Marked DecimalNumber HexNumber (Text.trim raw.toList) number →
    ∀ address, (readAddress raw = .ok address ↔ address.toNat = number)
  /-- A plus sign apart, nothing else is read. -/
  unsigned : '+' ∉ Text.trim raw.toList → ∀ address, readAddress raw = .ok address →
    Marked DecimalNumber HexNumber (Text.trim raw.toList) address.toNat

theorem readsInteger (raw : String) : ReadsInteger raw where
  accepts _ := readInt_eq_ok
  documented number isText value := by
    rw [readInt_eq_ok, acceptedInteger_iff_of_documented isText]
  unsigned noPlus noMinus value read := (readInt_eq_ok.mp read).documented noPlus noMinus
  opposite rest _ noMinus magnitude read := by
    obtain ⟨natural, -, same⟩ := exists_of_noMinus noMinus (magnitude?_eq_some.mp read)
    exact toInt_neg_of_ne (by omega)

theorem readsAddress (raw : String) : ReadsAddress raw where
  accepts _ := readAddress_eq_ok
  documented number isText address := by
    rw [readAddress_eq_ok]
    constructor
    · intro isAddress
      have same := (marked_signed_iff isText address.toNat).mp
        (isAddress.imp .plussed fun _ _ => .plussed)
      exact Int.ofNat.inj same
    · rintro rfl
      exact isText.imp .bare fun _ _ => .bare
  unsigned noPlus address read := marked_of_noPlus noPlus (readAddress_eq_ok.mp read)

/-- The usual text of an integer is the digits of its magnitude, behind a minus sign where it is
negative. Nothing of it is blank. -/
theorem exists_digits_toString (number : Int) :
    ∃ digits, DecimalNumber digits number.natAbs ∧ Text.trim (toString number).toList =
      if number < 0 then '-' :: digits else digits := by
  have visible {c : Char} (isDigit : c.isDigit = true) : Text.isBlank c = false := by
    have digit : Number.digitValue? 10 c = some (c.toNat - '0'.toNat) := by
      rw [Number.digitValue?_ten, if_pos isDigit]
    exact Number.of_low_codes (fun c => c.isDigit = true → Text.isBlank c = false) (by decide)
      (Number.lt_of_digitValue? digit) isDigit
  have clear (magnitude : Nat) : ∀ c ∈ Nat.toDigits 10 magnitude, Text.isBlank c = false :=
    fun c inside => visible ((Number.decimalNumber_toDigits magnitude).2.1 c inside)
  refine ⟨_, Number.decimalNumber_toDigits number.natAbs, ?_⟩
  cases number with
  | ofNat magnitude =>
    have text : (toString (Int.ofNat magnitude)).toList = Nat.toDigits 10 magnitude :=
      Nat.toList_repr
    rw [text, Text.trim_of_clear (clear magnitude), if_neg (by simp)]
    rfl
  | negSucc magnitude =>
    have text : (toString (Int.negSucc magnitude)).toList =
        '-' :: Nat.toDigits 10 (magnitude + 1) := by
      simp [toString, Int.repr, Nat.toList_repr]
    rw [text, Text.trim_of_clear (List.forall_mem_cons.mpr ⟨by decide, clear (magnitude + 1)⟩),
      if_pos (Int.negSucc_lt_zero magnitude)]
    rfl

/-- The usual text of an integer is a documented one. -/
theorem integerText_toString (number : Int) :
    IntegerText (Text.trim (toString number).toList) number := by
  obtain ⟨digits, isNumber, text⟩ := exists_digits_toString number
  rw [text]
  split
  · rename_i negative
    have opposite : IntegerText ('-' :: digits) (-(number.natAbs : Int)) :=
      .negative (.plain isNumber)
    rwa [Int.ofNat_natAbs_of_nonpos negative.le, Int.neg_neg] at opposite
  · rename_i positive
    have same : IntegerText digits (number.natAbs : Int) := .plain (.plain isNumber)
    rwa [Int.natAbs_of_nonneg (Int.not_lt.mp positive)] at same

/-- The usual text of an integer that fits is read back. -/
theorem signed?_toString {limit : Nat} (positive : 0 < limit) {number : Int}
    (fits : -limit ≤ number ∧ number < limit) :
    Number.signed? 10 limit (Text.trim (toString number).toList) = some number := by
  obtain ⟨digits, isNumber, text⟩ := exists_digits_toString number
  rw [readIn_decimal.signed?_eq_some positive, and_iff_right fits, text]
  split
  · rename_i negative
    have opposite := Signed.minus isNumber
    rwa [Int.ofNat_natAbs_of_nonpos negative.le, Int.neg_neg] at opposite
  · rename_i notNegative
    have same := Signed.plussed (.bare isNumber)
    rwa [Int.natAbs_of_nonneg (Int.not_lt.mp notNegative)] at same

/-- Number fields are read as their texts say, but for one more sign that they may have and for
the least integer. The usual text of every other integer is read back. -/
theorem number_fields_read (raw : String) : ReadsInteger raw ∧ ReadsAddress raw ∧
    ∀ number : Int64, readInt (toString number.toInt) = .ok number ↔ number ≠ Int64.minValue := by
  refine ⟨readsInteger raw, readsAddress raw, fun number => ?_⟩
  rw [(readsInteger _).documented _ (integerText_toString number.toInt), and_iff_right rfl,
    ← Int64.toInt_minValue, ne_eq, Int64.toInt_inj]

/-- The least integer is refused, and signs are taken that no documented text has. -/
theorem number_fields_misread :
    (IntegerText "-9223372036854775808".toList (-2 ^ 63) ∧
      readInt "-9223372036854775808" = .error (.parse (.integer "-9223372036854775808"))) ∧
    (readInt "--5" = .ok 5 ∧ ¬ ∃ number, IntegerText "--5".toList number) ∧
    (readAddress "+5" = .ok 5 ∧
      ¬ ∃ number, Marked DecimalNumber HexNumber "+5".toList number) := by
  refine ⟨⟨?_, rfl⟩, ⟨rfl, ?_⟩, ⟨rfl, ?_⟩⟩
  · exact integerText_toString (-2 ^ 63)
  · rintro ⟨number, isText⟩
    generalize written : "--5".toList = cs at isText
    cases isText with
    | plain isNumber => exact head?_ne_minus isNumber (written ▸ rfl)
    | negative isNumber => exact head?_ne_minus isNumber ((List.cons.inj written).2 ▸ rfl)
  · rintro ⟨number, isNumber⟩
    generalize written : "+5".toList = cs at isNumber
    cases isNumber with
    | plain isNumber =>
      exact readIn_decimal.not_cons Number.digitValue?_plus (written ▸ isNumber)
    | lower => exact absurd (List.cons.inj written).1 (by decide)
    | upper => exact absurd (List.cons.inj written).1 (by decide)

end JitTrace.Record
