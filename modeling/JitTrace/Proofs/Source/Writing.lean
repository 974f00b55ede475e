import JitTrace.Proofs.Source.Tables

/-!
# Writing the tables of a source mapping

The groups of a table are written one behind the other, with nothing that separates them.
They are read back all the same: a number ends at the letter behind it, and the letter
tells whether the group goes on. Positions come back sorted, and are found by offset as
the last one logged at the greatest offset that is not above.
-/

namespace JitTrace

namespace PositionText

open Number (HexNumber)

/-- The group of these numbers, in decimal. -/
def Group.ofNumbers (first second : Nat) (third : Option Nat) : Group where
  first := Nat.toDigits 10 first
  second := Nat.toDigits 10 second
  third := third.map (Nat.toDigits 10)

/-- The group of a position. -/
def positionGroup (entry : PositionEntry) : Group :=
  .ofNumbers entry.codeOffset.toNat entry.scriptOffset.toNat entry.inliningId

/-- The group of an inlined call. -/
def callGroup (call : InliningPosition) : Group :=
  .ofNumbers call.functionIndex call.scriptOffset.toNat call.parent

/-- The text of a position table. -/
def positionText (entries : List PositionEntry) : String :=
  String.ofList (entries.flatMap fun entry => (positionGroup entry).text 'C')

/-- The text of a table of inlined calls. -/
def callText (calls : List InliningPosition) : String :=
  String.ofList (calls.flatMap fun call => (callGroup call).text 'F')

/-- The text of a table of inlined functions whose addresses have these digits. -/
def functionText (spellings : List (List Char)) : String :=
  String.ofList (spellings.flatMap fun digits => 'S' :: '0' :: 'x' :: digits)

/-! ### Numbers -/

theorem run_toDigits (value : Nat) : Run Text.isDecimalDigit (Nat.toDigits 10 value) := by
  refine ⟨Nat.toDigits_ne_nil, fun c inside => ?_⟩
  have isDigit := Nat.isDigit_of_mem_toDigits (by decide) (by decide) inside
  have low : c.toNat < 128 := by
    simp only [Char.isDigit, Bool.and_eq_true, decide_eq_true_eq] at isDigit
    exact Nat.lt_of_le_of_lt (UInt32.le_iff_toNat_le.mp isDigit.2) (by decide)
  exact Number.of_low_codes (fun c => c.isDigit = true → Text.isDecimalDigit c = true)
    (by decide) low isDigit

theorem numeral_toDigits {value : Nat} (fits : value < UInt64.size) :
    Numeral (Nat.toDigits 10 value) value :=
  ⟨fits, Number.decimalNumber_toDigits value⟩

theorem rel_toDigits {value : Option Nat} (fits : ∀ number ∈ value, number < UInt64.size) :
    Option.Rel Numeral (value.map (Nat.toDigits 10)) value := by
  cases value with
  | none => exact .none
  | some number => exact .some (numeral_toDigits (fits number rfl))

theorem run_of_hexNumber {digits : List Char} {value : Nat} (isNumber : HexNumber digits value) :
    Run isHexDigit digits := by
  obtain ⟨nonempty, values, each, -⟩ := isNumber
  refine ⟨nonempty, ?_⟩
  clear nonempty
  induction each with
  | nil => simp
  | cons isDigit _ inductionHypothesis =>
    refine List.forall_mem_cons.mpr ⟨?_, inductionHypothesis⟩
    rw [isHexDigit, Number.digitValue?_eq_some.mpr isDigit]
    rfl

/-! ### Tables -/

theorem Group.proper_ofNumbers (first second : Nat) (third : Option Nat) :
    (ofNumbers first second third).Proper where
  first := run_toDigits first
  second := run_toDigits second
  third := by
    rintro _ isThird
    obtain ⟨number, -, rfl⟩ := Option.map_eq_some_iff.mp isThird
    exact run_toDigits number

/-- A text of groups without gaps holds the table of what they denote. -/
theorem Reads.holdsTable {Found Entry : Type} {marker : Char}
    {read? : List Char → Option (Found × List Char)} {written : Found → List Char → Prop}
    (reads : Reads read? marker written) {denotes : Found → Entry → Prop} {found : List Found}
    {fronts : List (List Char)} {entries : List Entry}
    (each : List.Forall₂ written found fronts) (denoted : List.Forall₂ denotes found entries) :
    HoldsTable written denotes (String.ofList fronts.flatten) entries := by
  refine ⟨found, ?_, denoted, ?_⟩
  · rw [String.toList_ofList]
    exact reads.groups_eq_iff.mp (reads.groups_flatten each)
  · rintro rfl
    rw [List.forall₂_nil_left_iff.mp each]
    rfl

/-- The same for entries of which each has a group of its own. -/
theorem Reads.holdsTable_groups {Entry : Type} {marker : Char}
    (reads : Reads (group? marker) marker (GroupText marker)) {group : Entry → Group}
    {denotes : Group → Entry → Prop} {entries : List Entry}
    (proper : ∀ entry, (group entry).Proper)
    (denoted : ∀ entry ∈ entries, denotes (group entry) entry) :
    HoldsTable (GroupText marker) denotes
      (String.ofList (entries.flatMap fun entry => (group entry).text marker)) entries := by
  have each : List.Forall₂ (GroupText marker) (entries.map group)
      (entries.map fun entry => (group entry).text marker) := by
    rw [List.forall₂_map_left_iff, List.forall₂_map_right_iff, List.forall₂_same]
    exact fun entry _ => ⟨proper entry, rfl⟩
  refine reads.holdsTable each ?_
  rw [List.forall₂_map_left_iff, List.forall₂_same]
  exact denoted

theorem holdsTable_positionText {entries : List PositionEntry}
    (ids : ∀ entry ∈ entries, ∀ id ∈ entry.inliningId, id < UInt64.size) :
    HoldsTable (GroupText 'C') DenotesPosition (positionText entries) entries :=
  reads_position.holdsTable_groups (fun _ => Group.proper_ofNumbers _ _ _) fun entry inside =>
    ⟨numeral_toDigits (UInt64.toNat_lt_size _), numeral_toDigits (UInt64.toNat_lt_size _),
      rel_toDigits (ids entry inside)⟩

theorem holdsTable_callText {calls : List InliningPosition}
    (indices : ∀ call ∈ calls, call.functionIndex < UInt64.size ∧
      ∀ parent ∈ call.parent, parent < UInt64.size) :
    HoldsTable (GroupText 'F') DenotesCall (callText calls) calls :=
  reads_inlinedCall.holdsTable_groups (fun _ => Group.proper_ofNumbers _ _ _) fun call inside =>
    ⟨numeral_toDigits (indices call inside).1, numeral_toDigits (UInt64.toNat_lt_size _),
      rel_toDigits (indices call inside).2⟩

theorem holdsTable_functionText {spellings : List (List Char)} {functions : List UInt64}
    (spelled : List.Forall₂ (fun digits address => HexNumber digits address.toNat) spellings
      functions) :
    HoldsTable FunctionText DenotesFunction (functionText spellings) functions := by
  have runs : ∀ digits ∈ spellings, Run isHexDigit digits := by
    induction spelled with
    | nil => simp
    | cons isNumber _ inductionHypothesis =>
      exact List.forall_mem_cons.mpr ⟨run_of_hexNumber isNumber, inductionHypothesis⟩
  have each : List.Forall₂ FunctionText (spellings.map ('0' :: 'x' :: ·))
      (spellings.map ('S' :: '0' :: 'x' :: ·)) := by
    rw [List.forall₂_map_left_iff, List.forall₂_map_right_iff, List.forall₂_same]
    exact fun digits inside => ⟨digits, runs digits inside, rfl, rfl⟩
  refine reads_function.holdsTable each ?_
  rw [List.forall₂_map_left_iff]
  exact spelled.imp fun digits address isNumber => ⟨digits, rfl, isNumber⟩

/-- What is written of a table is read back, and positions are sorted for being looked up. -/
theorem tables_written {entries : List PositionEntry} {calls : List InliningPosition}
    {spellings : List (List Char)} {functions : List UInt64}
    (ids : ∀ entry ∈ entries, ∀ id ∈ entry.inliningId, id < UInt64.size)
    (indices : ∀ call ∈ calls, call.functionIndex < UInt64.size ∧
      ∀ parent ∈ call.parent, parent < UInt64.size)
    (spelled : List.Forall₂ (fun digits address => HexNumber digits address.toNat) spellings
      functions) :
    (∃ sorted, positions (positionText entries) = .ok sorted ∧ SortedFrom entries sorted ∧
      ∀ info : SourceInfo, info.positions = sorted → ∀ offset,
        (info.positionAt? offset = none ↔ ∀ entry ∈ entries, offset < entry.codeOffset) ∧
        ∀ last, info.positionAt? offset = some last ↔ LastUpTo entries offset last) ∧
    inlinedCalls (callText calls) = .ok calls ∧
    inlinedFunctions (functionText spellings) = .ok functions := by
  have sortedFrom := SortedFrom.mergeSort entries
  refine ⟨⟨_, positions_eq_ok.mpr ⟨entries, holdsTable_positionText ids, sortedFrom⟩, sortedFrom,
    fun info isSorted offset => ?_⟩,
    inlinedCalls_eq_ok.mpr (holdsTable_callText indices),
    inlinedFunctions_eq_ok.mpr (holdsTable_functionText spelled)⟩
  have ascending := sortedFrom.ascending
  rw [← isSorted] at ascending sortedFrom
  refine ⟨?_, fun last => ?_⟩
  · simp only [SourceInfo.positionAt?_eq_none ascending, sortedFrom.mem_iff]
  · rw [SourceInfo.positionAt?_eq_some ascending, sortedFrom.lastUpTo_iff]

/-- Of two positions at one offset the later one is found. -/
theorem tables_written_tied :
    ∃ sorted, positions "C8O20I0C0O10C8O15" = .ok sorted ∧
      (∀ info : SourceInfo, info.positions = sorted → info.positionAt? 9 = some ⟨8, 15, none⟩) ∧
      inlinedCalls "F0O5F1O9I0" = .ok [⟨0, 5, none⟩, ⟨1, 9, some 0⟩] ∧
      inlinedFunctions "S0x10S0x0Ab" = .ok [0x10, 0xab] := by
  have spelled : List.Forall₂ (fun digits (address : UInt64) => HexNumber digits address.toNat)
      [['1', '0'], ['0', 'A', 'b']] [0x10, 0xab] :=
    .cons (Number.natural?_eq_some.mp (by decide)) (.cons (Number.natural?_eq_some.mp (by decide))
      .nil)
  obtain ⟨⟨sorted, read, -, finds⟩, calls, functions⟩ := @tables_written
    [⟨8, 20, some 0⟩, ⟨0, 10, none⟩, ⟨8, 15, none⟩] [⟨0, 5, none⟩, ⟨1, 9, some 0⟩] _ _
    (by decide) (by decide) spelled
  refine ⟨sorted, read, fun info isSorted => ((finds info isSorted 9).2 _).mpr ?_, calls, functions⟩
  exact ⟨by decide, by decide, by decide⟩

end PositionText

end JitTrace
