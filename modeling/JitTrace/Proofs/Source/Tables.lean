import JitTrace.Proofs.Outcome
import JitTrace.Proofs.Record.Numbers
import JitTrace.Proofs.Source.Groups
import JitTrace.Proofs.Source.Position
import JitTrace.Proofs.Text.Cut

/-!
# What the tables of a source mapping accept

A table is read from the groups that are scattered in its text, one entry for each group
and in the order of the groups. It is refused when a group's number does not fit, and when
a text that is not empty holds no group at all; anything between the groups is accepted.
-/

namespace JitTrace

namespace PositionText

open Number (DecimalNumber HexNumber)
open Outcome (bind_eq_ok mapM_eq_ok)

/-! ### Numbers -/

/-- The digits are a decimal number below `2 ^ 64`. -/
def Numeral (digits : List Char) (value : Nat) : Prop :=
  value < UInt64.size ∧ DecimalNumber digits value

variable {what : String}

theorem number_eq_ok {digits : List Char} {value : Nat} (run : Run Text.isDecimalDigit digits) :
    number what digits = .ok value ↔ Numeral digits value := by
  have unsigned : digits.head? ≠ some '+' := by
    intro signed
    have isDigit := run.2 '+' (List.mem_of_head? signed)
    exact absurd isDigit (by decide)
  rw [Numeral, ← Number.unsigned?_ten unsigned, number]
  split <;> rename_i read <;> simp [read]

theorem optionalNumber_eq_ok {third : Option (List Char)} {value : Option Nat}
    (runs : ∀ digits ∈ third, Run Text.isDecimalDigit digits) :
    optionalNumber what third = .ok value ↔ Option.Rel Numeral third value := by
  cases third with
  | none => cases value <;> simp [optionalNumber]
  | some digits =>
    have read (number : Nat) := @number_eq_ok what digits number (runs digits rfl)
    cases value with
    | none => cases isRead : number what digits <;> simp [optionalNumber, isRead, Except.map]
    | some value =>
      rw [Option.rel_some_some, ← read]
      cases isRead : number what digits <;> simp [optionalNumber, isRead, Except.map]

/-! ### Entries -/

/-- The numbers of the group are those of the position. -/
def DenotesPosition (group : Group) (entry : PositionEntry) : Prop :=
  Numeral group.first entry.codeOffset.toNat ∧ Numeral group.second entry.scriptOffset.toNat ∧
    Option.Rel Numeral group.third entry.inliningId

/-- The numbers of the group are those of the inlined call. -/
def DenotesCall (group : Group) (call : InliningPosition) : Prop :=
  Numeral group.first call.functionIndex ∧ Numeral group.second call.scriptOffset.toNat ∧
    Option.Rel Numeral group.third call.parent

/-- The marked number is the address. -/
def DenotesFunction (number : List Char) (address : UInt64) : Prop :=
  ∃ digits, number = '0' :: 'x' :: digits ∧ HexNumber digits address.toNat

/-- A word is given by its number. -/
theorem numeral_toNat {digits : List Char} {word : UInt64} :
    Numeral digits word.toNat ↔ ∃ value, Numeral digits value ∧ .ofNat value = word := by
  constructor
  · exact fun numeral => ⟨_, numeral, UInt64.ofNat_toNat⟩
  · rintro ⟨value, numeral, rfl⟩
    rwa [UInt64.toNat_ofNat_of_lt' numeral.1]

theorem position_eq_ok {group : Group} {entry : PositionEntry} (proper : group.Proper) :
    position group = .ok entry ↔ DenotesPosition group entry := by
  obtain ⟨codeOffset, scriptOffset, inliningId⟩ := entry
  simp only [position, bind_eq_ok, number_eq_ok proper.first, number_eq_ok proper.second,
    optionalNumber_eq_ok proper.third, pure, Except.pure, Except.ok.injEq,
    PositionEntry.mk.injEq, DenotesPosition, numeral_toNat]
  grind

theorem inlinedCall_eq_ok {group : Group} {call : InliningPosition} (proper : group.Proper) :
    inlinedCall group = .ok call ↔ DenotesCall group call := by
  obtain ⟨functionIndex, scriptOffset, parent⟩ := call
  simp only [inlinedCall, bind_eq_ok, number_eq_ok proper.first, number_eq_ok proper.second,
    optionalNumber_eq_ok proper.third, pure, Except.pure, Except.ok.injEq,
    InliningPosition.mk.injEq, DenotesCall, numeral_toNat]
  grind

/-- Hexadecimal digits are neither blanks nor signs. -/
theorem clear_of_isHexDigit {c : Char} (isDigit : isHexDigit c = true) :
    Text.isBlank c = false ∧ c ≠ '+' := by
  obtain ⟨value, found⟩ := Option.isSome_iff_exists.mp isDigit
  exact Number.of_low_codes
    (fun c => isHexDigit c = true → Text.isBlank c = false ∧ c ≠ '+') (by decide)
    (Number.lt_of_digitValue? found) isDigit

theorem readAddress_eq_ok {number front : List Char} {address : UInt64}
    (isWritten : FunctionText number front) :
    Record.readAddress (String.ofList number) = .ok address ↔ DenotesFunction number address := by
  obtain ⟨digits, run, rfl, -⟩ := isWritten
  have clear : ∀ c ∈ '0' :: 'x' :: digits, Text.isBlank c = false := by
    simp only [List.forall_mem_cons]
    exact ⟨by decide, by decide, fun c inside => (clear_of_isHexDigit (run.2 c inside)).1⟩
  have unsigned : digits.head? ≠ some '+' := fun signed =>
    (clear_of_isHexDigit (run.2 '+' (List.mem_of_head? signed))).2 rfl
  have same : DenotesFunction ('0' :: 'x' :: digits) address ↔ HexNumber digits address.toNat := by
    simp [DenotesFunction]
  rw [same, Record.readAddress_eq_ok, String.toList_ofList, Text.trim_of_clear clear]
  constructor
  · intro isNumber
    cases isNumber with
    | plain isNumber =>
      exact absurd (.plussed isNumber) (Number.readIn_decimal.not_marked rfl)
    | lower isNumber => exact (Number.ReadIn.plussed_bare unsigned).mp isNumber
  · exact fun isNumber => .lower (.bare isNumber)

/-! ### Tables -/

/-- The entries are those of the groups that are scattered in the text, one for each group
and in their order; only an empty text has none. -/
def HoldsTable {Found Entry : Type} (written : Found → List Char → Prop)
    (denotes : Found → Entry → Prop) (encoded : String) (entries : List Entry) : Prop :=
  ∃ found, Scattered written encoded.toList found ∧ List.Forall₂ denotes found entries ∧
    (found = [] → encoded = "")

/-- What is scattered in a text is written there. -/
theorem Scattered.exists_written {Found : Type} {written : Found → List Char → Prop}
    {cs : List Char} {found : List Found} (scattered : Scattered written cs found) :
    ∀ group ∈ found, ∃ front, written group front := by
  induction scattered with
  | ends => simp
  | skip _ _ inductionHypothesis => exact inductionHypothesis
  | take longest _ inductionHypothesis =>
    obtain ⟨front, isWritten, -⟩ := longest.stands
    exact List.forall_mem_cons.mpr ⟨⟨front, isWritten⟩, inductionHypothesis⟩

theorem requireGroups_eq_ok {Entry : Type} {encoded : String} {entries table : List Entry} :
    requireGroups what encoded entries = .ok table ↔
      table = entries ∧ (entries = [] → encoded = "") := by
  rw [requireGroups]
  split
  · rename_i refused
    simp only [Bool.and_eq_true, List.isEmpty_iff, Bool.not_eq_true', String.isEmpty_eq_false_iff]
      at refused
    simp [refused]
  · rename_i accepted
    simp only [Bool.and_eq_true, List.isEmpty_iff, Bool.not_eq_true', String.isEmpty_eq_false_iff,
      not_and, not_not] at accepted
    simpa [eq_comm] using fun _ => accepted

/-- Reading the groups of a text one by one, and refusing to find none, finds the table
that the text holds. -/
theorem Reads.table_eq_ok {Found Entry : Type} {marker : Char}
    {read? : List Char → Option (Found × List Char)} {written : Found → List Char → Prop}
    (reads : Reads read? marker written) {readEntry : Found → Except Fault Entry}
    {denotes : Found → Entry → Prop}
    (readEntry_eq_ok : ∀ {group front entry}, written group front →
      (readEntry group = .ok entry ↔ denotes group entry))
    {encoded : String} {table : List Entry} :
    ((groups read? encoded.toList).mapM readEntry >>= requireGroups what encoded) = .ok table ↔
      HoldsTable written denotes encoded table := by
  have scattered := reads.groups_eq_iff.mp (rfl : groups read? encoded.toList = _)
  have denoted (group : Found) (inside : group ∈ groups read? encoded.toList) (entry : Entry) :
      readEntry group = .ok entry ↔ denotes group entry := by
    obtain ⟨front, isWritten⟩ := scattered.exists_written group inside
    exact readEntry_eq_ok isWritten
  simp only [bind_eq_ok, mapM_eq_ok denoted, requireGroups_eq_ok]
  constructor
  · rintro ⟨entries, each, rfl, nonempty⟩
    refine ⟨_, scattered, each, fun none => nonempty ?_⟩
    rw [none] at each
    exact List.forall₂_nil_left_iff.mp each
  · rintro ⟨found, isScattered, each, nonempty⟩
    obtain rfl := reads.groups_eq_iff.mpr isScattered
    refine ⟨table, each, rfl, fun none => nonempty ?_⟩
    rw [none] at each
    exact List.forall₂_nil_right_iff.mp each

theorem reads_position : Reads (group? 'C') 'C' (GroupText 'C') :=
  reads_group (by decide) (by decide)

theorem reads_inlinedCall : Reads (group? 'F') 'F' (GroupText 'F') :=
  reads_group (by decide) (by decide)

theorem positions_eq_ok {encoded : String} {sorted : List PositionEntry} :
    positions encoded = .ok sorted ↔ ∃ entries,
      HoldsTable (GroupText 'C') DenotesPosition encoded entries ∧ SortedFrom entries sorted := by
  rw [positions, ← bind_assoc, bind_eq_ok]
  refine exists_congr fun entries => and_congr
    (reads_position.table_eq_ok fun isWritten => position_eq_ok isWritten.1) ?_
  have bySorting := SortedFrom.mergeSort entries
  constructor
  · intro isSorted
    cases isSorted
    exact bySorting
  · exact fun isSorted => congrArg _ (bySorting.unique isSorted)

theorem inlinedCalls_eq_ok {encoded : String} {calls : List InliningPosition} :
    inlinedCalls encoded = .ok calls ↔
      HoldsTable (GroupText 'F') DenotesCall encoded calls :=
  reads_inlinedCall.table_eq_ok fun isWritten => inlinedCall_eq_ok isWritten.1

theorem inlinedFunctions_eq_ok {encoded : String} {functions : List UInt64} :
    inlinedFunctions encoded = .ok functions ↔
      HoldsTable FunctionText DenotesFunction encoded functions :=
  reads_function.table_eq_ok readAddress_eq_ok

/-- The tables that are read are those that the texts hold, the positions sorted; every
other text is refused. -/
theorem tables_eq_ok (encoded : String) :
    (∀ sorted, positions encoded = .ok sorted ↔ ∃ entries,
      HoldsTable (GroupText 'C') DenotesPosition encoded entries ∧ SortedFrom entries sorted) ∧
    (∀ calls, inlinedCalls encoded = .ok calls ↔
      HoldsTable (GroupText 'F') DenotesCall encoded calls) ∧
    ∀ functions, inlinedFunctions encoded = .ok functions ↔
      HoldsTable FunctionText DenotesFunction encoded functions :=
  ⟨fun _ => positions_eq_ok, fun _ => inlinedCalls_eq_ok, fun _ => inlinedFunctions_eq_ok⟩

/-- A table of inlined calls whose second group is damaged is read without it, so the third
group is the call with the id 1, although the text is no sequence of groups. -/
theorem inlinedCalls_damaged :
    inlinedCalls "F0O5F1F2O9I0" = .ok [⟨0, 5, none⟩, ⟨2, 9, some 0⟩] ∧
      ¬∃ written fronts, List.Forall₂ (GroupText 'F') written fronts ∧
        "F0O5F1F2O9I0".toList = fronts.flatten := by
  refine ⟨rfl, ?_⟩
  rintro ⟨written, fronts, each, whole⟩
  -- The groups written would be those found, but those are shorter than the text.
  have found := reads_inlinedCall.groups_flatten each
  rw [← whole] at found
  obtain rfl : [⟨['0'], ['5'], none⟩, ⟨['2'], ['9'], some ['0']⟩] = written :=
    Eq.trans (by decide +kernel) found
  obtain ⟨first, fronts, isFirst, behind, rfl⟩ := List.forall₂_cons_left_iff.mp each
  obtain ⟨second, fronts, isSecond, ends, rfl⟩ := List.forall₂_cons_left_iff.mp behind
  obtain rfl := List.forall₂_nil_left_iff.mp ends
  rw [isFirst.2, isSecond.2] at whole
  exact absurd whole (by decide)

end PositionText

end JitTrace
