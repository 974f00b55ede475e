import JitTrace.Proofs.Record.Faults
import JitTrace.Proofs.Record.Numbers
import JitTrace.Version.Enumerations
import Mathlib.Data.List.Nodup
import Mathlib.Data.Prod.Lex

/-!
# Encodings and the versions that they are for

Where the bounds of an enumeration descend and the last one admits every version, the first
bound that admits a version is the greatest one that it has reached. Versions with no bound
between them are then read alike. What an encoding says of a value is read back as that value,
when no name and no number stands for two of them.
-/

namespace JitTrace

/-! ## The order of versions -/

namespace Version

/-- The numbers of a version. The first one in which two versions differ decides which is
older. -/
def key (version : Version) : Nat ×ₗ Nat ×ₗ Nat :=
  toLex (version.major.toNat, toLex (version.minor.toNat, version.build.toNat))

theorem key_le_key {older newer : Version} : older.key ≤ newer.key ↔
    older.major < newer.major ∨ older.major = newer.major ∧
      (older.minor < newer.minor ∨ older.minor = newer.minor ∧ older.build ≤ newer.build) := by
  simp only [key, Prod.Lex.toLex_le_toLex, UInt32.lt_iff_toNat_lt, UInt32.le_iff_toNat_le,
    UInt32.toNat_inj]

theorem isAtLeast_iff {version bound : Version} :
    version.isAtLeast bound = true ↔ bound.key ≤ version.key := by
  rw [isAtLeast, key_le_key]
  by_cases major : version.major = bound.major
  · by_cases minor : version.minor = bound.minor
    · simp [major, minor]
    · simp [major, minor, Ne.symm minor]
  · simp [major, Ne.symm major]

end Version

namespace VersionBound

/-- The numbers from which on a bound admits versions. The bound that admits all of them is below
every other one. -/
def key : VersionBound → WithBot (Nat ×ₗ Nat ×ₗ Nat)
  | .atLeast version => version.key
  | .any => ⊥

theorem admits_iff {bound : VersionBound} {version : Version} :
    bound.admits version = true ↔ bound.key ≤ version.key := by
  cases bound with
  | atLeast lower => rw [admits, Version.isAtLeast_iff, key, WithBot.coe_le_coe]
  | any => simp [admits, key]

end VersionBound

/-! ## The encoding in force -/

namespace VersionedEnum

variable {Value : Type} {enumeration : VersionedEnum Value} {version : Version}
  {encoding : Encoding Value}

/-- The versions from which on an encoding is in force. -/
def bounds (enumeration : VersionedEnum Value) : List Version :=
  enumeration.encodings.filterMap fun encoding =>
    match encoding.bound with
    | .atLeast version => some version
    | .any => none

/-- The bounds descend, and behind them comes the one that admits every version. -/
structure NewestFirst (enumeration : VersionedEnum Value) : Prop where
  descending : enumeration.bounds.Pairwise fun newer older => older.key < newer.key
  closed : enumeration.encodings.map (·.bound) = enumeration.bounds.map .atLeast ++ [.any]

/-- The bound of the encoding is the greatest one that the version has reached. -/
structure Governs (enumeration : VersionedEnum Value) (version : Version)
    (encoding : Encoding Value) : Prop where
  listed : encoding ∈ enumeration.encodings
  reached : encoding.bound.key ≤ version.key
  greatest : ∀ other ∈ enumeration.encodings, other.bound.key ≤ version.key →
    other.bound.key ≤ encoding.bound.key

theorem mem_bounds {bound : Version} : bound ∈ enumeration.bounds ↔
    ∃ encoding ∈ enumeration.encodings, encoding.bound = .atLeast bound := by
  simp only [bounds, List.mem_filterMap]
  refine exists_congr fun encoding => and_congr_right fun _ => ?_
  cases encoding.bound <;> simp

namespace NewestFirst

variable (newestFirst : enumeration.NewestFirst)
include newestFirst

theorem pairwise_encodings :
    enumeration.encodings.Pairwise fun newer older => older.bound.key < newer.bound.key := by
  have bounded : (enumeration.encodings.map (·.bound)).Pairwise
      fun newer older => older.key < newer.key := by
    rw [newestFirst.closed, List.pairwise_append, List.pairwise_map]
    refine ⟨newestFirst.descending.imp WithBot.coe_lt_coe.mpr, List.pairwise_singleton _ _, ?_⟩
    intro newer inside older isLast
    obtain ⟨bound, -, rfl⟩ := List.mem_map.mp inside
    obtain rfl := List.mem_singleton.mp isLast
    exact WithBot.bot_lt_coe bound.key
  exact List.pairwise_map.mp bounded

theorem total : enumeration.Total := by
  rw [Total, newestFirst.closed]
  simp

/-- The first encoding that admits a version governs it. -/
theorem governs_of_encodingFor (found : enumeration.encodingFor version = .ok encoding) :
    enumeration.Governs version encoding := by
  have first : enumeration.encodings.find? (·.bound.admits version) = some encoding := by
    rw [encodingFor] at found
    split at found
    · rename_i same
      rw [same, Except.ok.inj found]
    · cases found
  obtain ⟨admitted, front, back, split, refused⟩ := List.find?_eq_some_iff_append.mp first
  have ordered := newestFirst.pairwise_encodings
  rw [split, List.pairwise_append, List.pairwise_cons] at ordered
  obtain ⟨-, ⟨behind, -⟩, -⟩ := ordered
  refine ⟨List.mem_of_find?_eq_some first, VersionBound.admits_iff.mp admitted, ?_⟩
  intro other listed reached
  rw [split, List.mem_append, List.mem_cons] at listed
  rcases listed with inFront | rfl | inBack
  · have passed := refused other inFront
    rw [VersionBound.admits_iff.mpr reached] at passed
    cases passed
  · exact le_rfl
  · exact (behind other inBack).le

/-- It is the only one. -/
theorem encodingFor_eq_ok :
    enumeration.encodingFor version = .ok encoding ↔ enumeration.Governs version encoding := by
  refine ⟨newestFirst.governs_of_encodingFor, fun governs => ?_⟩
  obtain ⟨first, found⟩ := newestFirst.total.exists_encodingFor version
  have governing := newestFirst.governs_of_encodingFor found
  have same : encoding.bound.key = first.bound.key :=
    (governing.greatest encoding governs.listed governs.reached).antisymm
      (governs.greatest first governing.listed governing.reached)
  have distinct : (enumeration.encodings.map (·.bound.key)).Nodup :=
    List.pairwise_map.mpr (newestFirst.pairwise_encodings.imp fun older => older.ne')
  rw [found, List.inj_on_of_nodup_map distinct governs.listed governing.listed same]

/-- Where a version has reached no bound, the encoding for all versions is in force. -/
theorem bound_eq_any_iff (found : enumeration.encodingFor version = .ok encoding) :
    encoding.bound = .any ↔ ∀ bound ∈ enumeration.bounds, version.key < bound.key := by
  have governs := newestFirst.governs_of_encodingFor found
  constructor
  · intro isAny bound inside
    obtain ⟨other, listed, isBound⟩ := mem_bounds.mp inside
    refine lt_of_not_ge fun reached => ?_
    have below := governs.greatest other listed
      (by rw [isBound]; exact WithBot.coe_le_coe.mpr reached)
    rw [isBound, isAny] at below
    exact WithBot.not_coe_le_bot _ below
  · intro unreached
    cases isBound : encoding.bound with
    | any => rfl
    | atLeast bound =>
      have reached := governs.reached
      rw [isBound] at reached
      exact absurd (WithBot.coe_le_coe.mp reached)
        (not_le_of_gt (unreached bound (mem_bounds.mpr ⟨encoding, governs.listed, isBound⟩)))

/-- Versions with no bound between them have the same encoding. -/
theorem encodingFor_later (found : enumeration.encodingFor version = .ok encoding)
    {later : Version} (isLater : version.key ≤ later.key)
    (unchanged : ∀ bound ∈ enumeration.bounds,
      ¬(version.key < bound.key ∧ bound.key ≤ later.key)) :
    enumeration.encodingFor later = .ok encoding := by
  have governs := newestFirst.governs_of_encodingFor found
  rw [newestFirst.encodingFor_eq_ok]
  refine ⟨governs.listed, governs.reached.trans (WithBot.coe_le_coe.mpr isLater), ?_⟩
  intro other listed reached
  refine governs.greatest other listed ?_
  cases isBound : other.bound with
  | any => exact bot_le
  | atLeast bound =>
    rw [isBound] at reached
    have inside := mem_bounds.mpr ⟨other, listed, isBound⟩
    exact WithBot.coe_le_coe.mpr (le_of_not_gt fun passed =>
      unchanged bound inside ⟨passed, WithBot.coe_le_coe.mp reached⟩)

end NewestFirst

/-! ## Reading and writing values -/

/-- An item is found by a key that no other one has. -/
theorem find?_eq_some_of_nodup {Item Key : Type} [BEq Key] [LawfulBEq Key] {key : Item → Key}
    {items : List Item} (distinct : (items.map key).Nodup) {item : Item} (inside : item ∈ items) :
    (items.find? fun other => key other == key item) = some item := by
  have present : (items.find? fun other => key other == key item).isSome :=
    List.find?_isSome.mpr ⟨item, inside, beq_self_eq_true (key item)⟩
  obtain ⟨first, found⟩ := Option.isSome_iff_exists.mp present
  have same := List.find?_some found
  rw [beq_iff_eq] at same
  rw [found, List.inj_on_of_nodup_map distinct (List.mem_of_find?_eq_some found) inside same]

section InForce

variable (found : enumeration.encodingFor version = .ok encoding) {shown : String}
  {isMeant : EncodedValue Value → Bool} {encoded : EncodedValue Value}
include found

theorem decodeWith_eq : enumeration.decodeWith version shown isMeant =
    match encoding.values.find? isMeant with
    | some encoded => .ok encoded.value
    | none => .error (.unknownEnumValue enumeration.name shown version) := by
  cases meant : encoding.values.find? isMeant <;> simp [decodeWith, found, meant]

theorem decodeWith_of_find? (meant : encoding.values.find? isMeant = some encoded) :
    enumeration.decodeWith version shown isMeant = .ok encoded.value := by
  rw [decodeWith_eq found, meant]

theorem decodeWith_unknown (unknown : ∀ encoded ∈ encoding.values, isMeant encoded = false) :
    enumeration.decodeWith version shown isMeant =
      .error (.unknownEnumValue enumeration.name shown version) := by
  have none : encoding.values.find? isMeant = none :=
    List.find?_eq_none.mpr fun encoded inside => by simp [unknown encoded inside]
  rw [decodeWith_eq found, none]

theorem toOption_decodeWith : (enumeration.decodeWith version shown isMeant).toOption =
    (encoding.values.find? isMeant).map (·.value) := by
  rw [decodeWith_eq found]
  cases encoding.values.find? isMeant <;> rfl

variable [BEq Value] {value : Value}

theorem encode_of_find? (isEncoded : (encoding.values.find? (·.value == value)) = some encoded) :
    enumeration.encode value version = .ok encoded := by
  rw [encode, found]
  simp only [isEncoded]

theorem encode_unknown (unknown : ∀ encoded ∈ encoding.values, (encoded.value == value) = false) :
    enumeration.encode value version = .error (.unknownEnumValue enumeration.name
      ("<no encoding in " ++ encoding.bound.text ++ ">") version) := by
  have none : (encoding.values.find? (·.value == value)) = none :=
    List.find?_eq_none.mpr fun encoded inside => by simp [unknown encoded inside]
  rw [encode, found]
  simp only [none]

end InForce

/-- What is read as an integer where names and numbers are told apart. -/
def numeral? (raw : String) : Option Int :=
  Number.signed? 10 0x8000000000000000 (Text.trim raw.toList)

/-- Two versions read and write all values in the same way. -/
structure Alike (enumeration : VersionedEnum Value) (first second : Version) : Prop where
  encodingFor : enumeration.encodingFor first = enumeration.encodingFor second
  decodeOrdinal : ∀ ordinal, (enumeration.decodeOrdinal ordinal first).toOption =
    (enumeration.decodeOrdinal ordinal second).toOption
  decodeName : ∀ name, (enumeration.decodeName name first).toOption =
    (enumeration.decodeName name second).toOption
  decode : ∀ raw, (enumeration.decode raw first).toOption =
    (enumeration.decode raw second).toOption

theorem alike_of_encodingFor {first second : Version}
    (onFirst : enumeration.encodingFor first = .ok encoding)
    (onSecond : enumeration.encodingFor second = .ok encoding) :
    enumeration.Alike first second where
  encodingFor := onFirst.trans onSecond.symm
  decodeOrdinal _ := (toOption_decodeWith onFirst).trans (toOption_decodeWith onSecond).symm
  decodeName _ := (toOption_decodeWith onFirst).trans (toOption_decodeWith onSecond).symm
  decode raw := by
    rw [decode, decode]
    split <;> exact (toOption_decodeWith onFirst).trans (toOption_decodeWith onSecond).symm

/-- No name, no number and no value occurs twice. -/
structure Unambiguous [BEq Value] (values : List (EncodedValue Value)) : Prop where
  names : (values.map (·.name)).Nodup
  ordinals : (values.map (·.ordinal)).Nodup
  values : values.Pairwise fun first second => (first.value == second.value) = false

/-- How a version writes a value, and what it reads in what is written. -/
structure WritesAs [BEq Value] (enumeration : VersionedEnum Value) (version : Version)
    (value : Value) (encoded : EncodedValue Value) : Prop where
  same : (encoded.value == value) = true
  nameOf : enumeration.nameOf value version = .ok encoded.name
  ordinalOf : enumeration.ordinalOf value version = .ok encoded.ordinal
  decodeName : enumeration.decodeName encoded.name version = .ok encoded.value
  decodeOrdinal : enumeration.decodeOrdinal encoded.ordinal version = .ok encoded.value
  decode_ordinal : -2 ^ 63 ≤ encoded.ordinal → encoded.ordinal < 2 ^ 63 →
    enumeration.decode (toString encoded.ordinal) version = .ok encoded.value
  decode_name : numeral? encoded.name = none →
    enumeration.decode encoded.name version = .ok encoded.value

section Unambiguous

variable [BEq Value] (found : enumeration.encodingFor version = .ok encoding)
  (unambiguous : Unambiguous encoding.values) {value : Value} {encoded : EncodedValue Value}
include found unambiguous

theorem writesAs_of_find?
    (first : (encoding.values.find? (·.value == value)) = some encoded) :
    enumeration.WritesAs version value encoded := by
  have inside := List.mem_of_find?_eq_some first
  have same := List.find?_some first
  have written := encode_of_find? found first
  have named := find?_eq_some_of_nodup unambiguous.names inside
  have numbered := find?_eq_some_of_nodup unambiguous.ordinals inside
  exact
    { same := same
      nameOf := by
        rw [VersionedEnum.nameOf, written]
        rfl
      ordinalOf := by
        rw [VersionedEnum.ordinalOf, written]
        rfl
      decodeName := decodeWith_of_find? found named
      decodeOrdinal := decodeWith_of_find? found numbered
      decode_ordinal := fun above below => by
        rw [VersionedEnum.decode, Record.signed?_toString (by decide) ⟨above, below⟩]
        exact decodeWith_of_find? found numbered
      decode_name := fun isName => by
        rw [VersionedEnum.decode, ← numeral?, isName]
        exact decodeWith_of_find? found named }

theorem exists_writesAs (isEncoded : ∃ encoded ∈ encoding.values, (encoded.value == value) = true) :
    ∃ encoded ∈ encoding.values, enumeration.WritesAs version value encoded := by
  obtain ⟨encoded, first⟩ := Option.isSome_iff_exists.mp (List.find?_isSome.mpr isEncoded)
  exact ⟨encoded, List.mem_of_find?_eq_some first, writesAs_of_find? found unambiguous first⟩

/-- A value that equals itself is written as the encoding has it. -/
theorem writesAs_of_mem (inside : encoded ∈ encoding.values)
    (reflexive : (encoded.value == encoded.value) = true) :
    enumeration.WritesAs version encoded.value encoded := by
  obtain ⟨front, back, split⟩ := List.append_of_mem inside
  have distinct := unambiguous.values
  rw [split, List.pairwise_append] at distinct
  refine writesAs_of_find? found unambiguous (List.find?_eq_some_iff_append.mpr
    ⟨reflexive, front, back, split, fun other inFront => ?_⟩)
  rw [distinct.2.2 other inFront encoded List.mem_cons_self, Bool.not_false]

end Unambiguous

/-- An encoding decides how a version reads and writes values. -/
structure Decides [BEq Value] (enumeration : VersionedEnum Value) (version : Version)
    (encoding : Encoding Value) : Prop where
  /-- Its bound is the greatest one that the version has reached, and no other encoding's is. -/
  governs : ∀ other, enumeration.Governs version other ↔ other = encoding
  /-- It is the one for all versions where the version has reached no bound. -/
  catchAll : encoding.bound = .any ↔ ∀ bound ∈ enumeration.bounds, version.key < bound.key
  /-- A later version with no bound in between reads and writes in the same way. -/
  alike : ∀ later : Version, version.key ≤ later.key →
    (∀ bound ∈ enumeration.bounds, ¬(version.key < bound.key ∧ bound.key ≤ later.key)) →
    enumeration.Alike version later
  /-- What is written for a value is read back as that value. -/
  values : Unambiguous encoding.values → ∀ value,
    (∃ encoded ∈ encoding.values, (encoded.value == value) = true) →
      ∃ encoded ∈ encoding.values, enumeration.WritesAs version value encoded
  /-- What is read as a value is written for that value. -/
  written : Unambiguous encoding.values → ∀ encoded ∈ encoding.values,
    (encoded.value == encoded.value) = true →
      enumeration.WritesAs version encoded.value encoded
  unknownValue : ∀ value, (∀ encoded ∈ encoding.values, (encoded.value == value) = false) →
    ∃ shown, enumeration.nameOf value version =
        .error (.unknownEnumValue enumeration.name shown version) ∧
      enumeration.ordinalOf value version =
        .error (.unknownEnumValue enumeration.name shown version)
  unknownName : ∀ name, (∀ encoded ∈ encoding.values, encoded.name ≠ name) →
    enumeration.decodeName name version =
      .error (.unknownEnumValue enumeration.name name version)
  unknownOrdinal : ∀ ordinal, (∀ encoded ∈ encoding.values, encoded.ordinal ≠ ordinal) →
    enumeration.decodeOrdinal ordinal version =
      .error (.unknownEnumValue enumeration.name (toString ordinal) version)
  /-- A field is neither the number nor the name of a value. -/
  unknownField : ∀ raw,
    (∀ ordinal, numeral? raw = some ordinal → ∀ encoded ∈ encoding.values,
      encoded.ordinal ≠ ordinal) →
    (numeral? raw = none → ∀ encoded ∈ encoding.values, encoded.name ≠ raw) →
      ∃ shown, enumeration.decode raw version =
        .error (.unknownEnumValue enumeration.name shown version)

section Unknown

variable (found : enumeration.encodingFor version = .ok encoding)
include found

theorem decodeName_unknown {name : String}
    (unknown : ∀ encoded ∈ encoding.values, encoded.name ≠ name) :
    enumeration.decodeName name version =
      .error (.unknownEnumValue enumeration.name name version) :=
  decodeWith_unknown found fun encoded inside => beq_eq_false_iff_ne.mpr (unknown encoded inside)

theorem decodeOrdinal_unknown {ordinal : Int}
    (unknown : ∀ encoded ∈ encoding.values, encoded.ordinal ≠ ordinal) :
    enumeration.decodeOrdinal ordinal version =
      .error (.unknownEnumValue enumeration.name (toString ordinal) version) :=
  decodeWith_unknown found fun encoded inside => beq_eq_false_iff_ne.mpr (unknown encoded inside)

end Unknown

/-- Every version has an encoding that decides how it reads and writes values. -/
theorem newest_encoding_decides [BEq Value] (enumeration : VersionedEnum Value)
    (newestFirst : enumeration.NewestFirst) (version : Version) :
    ∃ encoding, enumeration.encodingFor version = .ok encoding ∧
      enumeration.Decides version encoding := by
  obtain ⟨encoding, found⟩ := newestFirst.total.exists_encodingFor version
  refine ⟨encoding, found, ?_⟩
  exact
    { governs := fun other => by
        rw [← newestFirst.encodingFor_eq_ok, found, Except.ok.injEq, eq_comm]
      catchAll := newestFirst.bound_eq_any_iff found
      alike := fun later isLater unchanged =>
        alike_of_encodingFor found (newestFirst.encodingFor_later found isLater unchanged)
      values := fun unambiguous _ => exists_writesAs found unambiguous
      written := fun unambiguous _ => writesAs_of_mem found unambiguous
      unknownValue := fun value unknown => by
        rw [nameOf, ordinalOf, encode_unknown found unknown]
        exact ⟨_, rfl, rfl⟩
      unknownName := fun _ => decodeName_unknown found
      unknownOrdinal := fun _ => decodeOrdinal_unknown found
      unknownField := fun raw notNumber notName => by
        rw [decode, ← numeral?]
        cases isNumber : numeral? raw with
        | some ordinal => exact ⟨_, decodeOrdinal_unknown found (notNumber ordinal isNumber)⟩
        | none => exact ⟨_, decodeName_unknown found (notName isNumber)⟩ }

/-- The enumerations of the log are listed as they have to be. -/
theorem newestFirst_encodings :
    DeoptimizeKind.encodings.NewestFirst ∧ CodeKind.encodings.NewestFirst ∧
      IcState.encodings.NewestFirst ∧ VmState.encodings.NewestFirst ∧
      FunctionState.encodings.NewestFirst :=
  ⟨⟨by decide +kernel, by decide⟩, ⟨by decide +kernel, by decide⟩, ⟨by decide +kernel, by decide⟩,
    ⟨by decide +kernel, by decide⟩, ⟨by decide +kernel, by decide⟩⟩

/-- The kinds of deopts were numbered anew in version 9.6, and are read in that way up to version
10.1. -/
theorem newest_encoding_decides_deopts :
    DeoptimizeKind.encodings.NewestFirst ∧
      ∃ encoding, DeoptimizeKind.encodings.encodingFor ⟨9, 8, 0⟩ = .ok encoding ∧
        encoding.bound = .atLeast ⟨9, 6, 0⟩ ∧ Unambiguous encoding.values ∧
        DeoptimizeKind.encodings.Decides ⟨9, 8, 0⟩ encoding := by
  obtain ⟨newestFirst, -⟩ := newestFirst_encodings
  obtain ⟨encoding, found, decides⟩ :=
    newest_encoding_decides DeoptimizeKind.encodings newestFirst ⟨9, 8, 0⟩
  cases found
  exact ⟨newestFirst, _, rfl, rfl, ⟨by decide, by decide, by decide⟩, decides⟩

end VersionedEnum

end JitTrace
