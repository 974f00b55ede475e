import JitTrace.Source.PositionText
import Mathlib.Data.List.Forall2
import Mathlib.Data.List.TakeDrop

/-!
# The groups of a position text

What stands in a position text, said without its readers: going from left to right, the
longest group that starts at a place is taken, and a character at which none starts is
passed over. Groups that follow one another without a gap are found as they were written,
but whatever stands between groups leaves no trace.
-/

namespace JitTrace.PositionText

/-! ### Scattered groups -/

section Scanning

variable {Found : Type}

/-- Nothing that is written in this way stands at the front of a text. -/
def StartsNothing (written : Found → List Char → Prop) (cs : List Char) : Prop :=
  ∀ found front rest, written found front → cs ≠ front ++ rest

/-- At the front of a text stands what is written for `found`, and nothing longer that is
written for anything. -/
structure Longest (written : Found → List Char → Prop) (cs : List Char) (found : Found)
    (rest : List Char) : Prop where
  stands : ∃ front, written found front ∧ cs = front ++ rest
  longest : ∀ other front behind, written other front → cs = front ++ behind →
    rest.length ≤ behind.length

/-- What stands in a text, from left to right, with anything in between. -/
inductive Scattered (written : Found → List Char → Prop) : List Char → List Found → Prop
  | ends : Scattered written [] []
  | skip {c : Char} {cs : List Char} {found : List Found}
    (nothing : StartsNothing written (c :: cs)) (behind : Scattered written cs found) :
    Scattered written (c :: cs) found
  | take {cs rest : List Char} {first : Found} {found : List Found}
    (longest : Longest written cs first rest) (behind : Scattered written rest found) :
    Scattered written cs (first :: found)

/-- A reader finds at the front of a text the longest of what is written in some way, all
of which starts with the same marker. -/
structure Reads (read? : List Char → Option (Found × List Char)) (marker : Char)
    (written : Found → List Char → Prop) : Prop where
  marked : ∀ {found front}, written found front → front.head? = some marker
  /-- What is read stands there. -/
  stands : ∀ {cs found rest}, read? cs = some (found, rest) →
    ∃ front, written found front ∧ cs = front ++ rest
  /-- No less is read than what stands there. -/
  reaches : ∀ {found front} rest, written found front →
    ∃ longest behind, read? (front ++ rest) = some (longest, behind) ∧ behind.length ≤ rest.length
  /-- What stands in front of another marker, or at the end, is read as it is. -/
  exact : ∀ {found front rest}, written found front → (∀ c ∈ rest.head?, c = marker) →
    read? (front ++ rest) = some (found, rest)

namespace Reads

variable {read? : List Char → Option (Found × List Char)} {marker : Char}
  {written : Found → List Char → Prop} (reads : Reads read? marker written)
include reads

theorem eq_none_iff {cs : List Char} : read? cs = none ↔ StartsNothing written cs := by
  constructor
  · rintro nothing found front rest isWritten rfl
    obtain ⟨_, _, something, -⟩ := reads.reaches rest isWritten
    exact absurd (nothing.symm.trans something) (by simp)
  · intro nothing
    refine Option.eq_none_iff_forall_ne_some.mpr fun ⟨found, rest⟩ something => ?_
    obtain ⟨front, isWritten, isFront⟩ := reads.stands something
    exact nothing found front rest isWritten isFront

/-- A text on its own is read as what it is written for, so it is written for one thing. -/
theorem alone {found : Found} {front : List Char} (isWritten : written found front) :
    read? front = some (found, []) := by
  have nothingBehind : ∀ c ∈ ([] : List Char).head?, c = marker := by simp
  simpa using reads.exact isWritten nothingBehind

theorem eq_some_iff {cs rest : List Char} {found : Found} :
    read? cs = some (found, rest) ↔ Longest written cs found rest := by
  constructor
  · intro something
    refine ⟨reads.stands something, fun other front behind isWritten isFront => ?_⟩
    obtain ⟨_, left, same, reached⟩ := reads.reaches behind isWritten
    rw [← isFront, something, Option.some.injEq, Prod.mk.injEq] at same
    exact same.2 ▸ reached
  · rintro ⟨⟨front, isWritten, rfl⟩, longest⟩
    obtain ⟨other, left, something, reached⟩ := reads.reaches rest isWritten
    obtain ⟨otherFront, otherWritten, same⟩ := reads.stands something
    have even : rest.length = left.length :=
      Nat.le_antisymm (longest other otherFront left otherWritten same) reached
    obtain ⟨rfl, rfl⟩ := List.append_inj' same even
    obtain rfl : found = other := by
      simpa using (reads.alone isWritten).symm.trans (reads.alone otherWritten)
    exact something

/-- What stands at the front of a text takes up some of it. -/
theorem length_lt {cs rest : List Char} {found : Found} (longest : Longest written cs found rest) :
    rest.length < cs.length := by
  obtain ⟨⟨front, isWritten, rfl⟩, -⟩ := longest
  have nonempty : front ≠ [] := fun empty => by simpa [empty] using reads.marked isWritten
  have := List.length_pos_of_ne_nil nonempty
  rw [List.length_append]
  omega

theorem scattered_scan {fuel : Nat} {cs : List Char} (enough : cs.length ≤ fuel) :
    Scattered written cs (scan read? fuel cs) := by
  induction fuel generalizing cs with
  | zero => exact List.length_eq_zero_iff.mp (Nat.le_zero.mp enough) ▸ .ends
  | succ fuel inductionHypothesis =>
    cases cs with
    | nil => exact .ends
    | cons c cs =>
      rw [scan]
      cases something : read? (c :: cs) with
      | none =>
        exact .skip (reads.eq_none_iff.mp something)
          (inductionHypothesis (Nat.le_of_succ_le_succ enough))
      | some pair =>
        have longest := reads.eq_some_iff.mp something
        exact .take longest (inductionHypothesis
          (Nat.le_of_lt_succ (Nat.lt_of_lt_of_le (reads.length_lt longest) enough)))

theorem scan_of_scattered {cs : List Char} {found : List Found}
    (scattered : Scattered written cs found) {fuel : Nat} (enough : cs.length ≤ fuel) :
    scan read? fuel cs = found := by
  induction scattered generalizing fuel with
  | ends => cases fuel <;> rfl
  | skip nothing _ inductionHypothesis =>
    obtain ⟨fuel, rfl⟩ := Nat.exists_eq_add_of_le' (Nat.one_le_of_lt enough)
    rw [scan, reads.eq_none_iff.mpr nothing]
    exact inductionHypothesis (Nat.le_of_succ_le_succ enough)
  | @take cs rest first found longest _ inductionHypothesis =>
    have shorter := reads.length_lt longest
    have fits : rest.length < fuel := Nat.lt_of_lt_of_le shorter enough
    obtain ⟨fuel, rfl⟩ := Nat.exists_eq_add_of_le' (Nat.one_le_of_lt fits)
    obtain ⟨c, cs, rfl⟩ := List.exists_cons_of_length_pos (Nat.zero_lt_of_lt shorter)
    rw [scan, reads.eq_some_iff.mpr longest]
    exact congrArg (first :: ·) (inductionHypothesis (Nat.le_of_lt_succ fits))

/-- The groups that are found in a text are those that are scattered in it. -/
theorem groups_eq_iff {cs : List Char} {found : List Found} :
    groups read? cs = found ↔ Scattered written cs found := by
  constructor
  · rintro rfl
    exact reads.scattered_scan (Nat.le_refl _)
  · exact fun scattered => reads.scan_of_scattered scattered (Nat.le_refl _)

/-- What is written without gaps is found as it was written. -/
theorem groups_flatten {found : List Found} {fronts : List (List Char)}
    (each : List.Forall₂ written found fronts) : groups read? fronts.flatten = found := by
  rw [reads.groups_eq_iff]
  induction each with
  | nil => exact .ends
  | @cons first front found fronts isWritten others inductionHypothesis =>
    refine .take (reads.eq_some_iff.mp (reads.exact isWritten ?_)) inductionHypothesis
    cases others with
    | nil => simp
    | cons nextWritten _ => simp [List.head?_append, reads.marked nextWritten]

end Reads

end Scanning

/-! ### The written form of a group -/

/-- At least one character, all of a kind. -/
def Run (isMember : Char → Bool) (cs : List Char) : Prop :=
  cs ≠ [] ∧ ∀ c ∈ cs, isMember c = true

/-- The text of a group. -/
def Group.text (marker : Char) (group : Group) : List Char :=
  marker :: (group.first ++ 'O' :: (group.second ++ group.third.elim [] ('I' :: ·)))

/-- The numbers of a group are rows of decimal digits. -/
structure Group.Proper (group : Group) : Prop where
  first : Run Text.isDecimalDigit group.first
  second : Run Text.isDecimalDigit group.second
  third : ∀ digits ∈ group.third, Run Text.isDecimalDigit digits

/-- The text is the group's, and the group is a proper one. -/
def GroupText (marker : Char) (group : Group) (front : List Char) : Prop :=
  group.Proper ∧ front = group.text marker

/-- The text is `S` and a marked hexadecimal number. -/
def FunctionText (number front : List Char) : Prop :=
  ∃ digits, Run isHexDigit digits ∧ number = '0' :: 'x' :: digits ∧ front = 'S' :: number

section Reading

variable {isMember : Char → Bool} {front cs rest : List Char}

theorem run?_stands (found : run? isMember cs = some (front, rest)) :
    Run isMember front ∧ cs = front ++ rest := by
  rw [run?, List.span_eq_takeWhile_dropWhile] at found
  split at found
  · contradiction
  · rename_i members behind nonempty split
    rw [Prod.mk.injEq] at split
    obtain ⟨rfl, rfl⟩ := split
    cases found
    exact ⟨⟨nonempty, List.all_eq_true.mp List.all_takeWhile⟩,
      List.takeWhile_append_dropWhile.symm⟩

/-- Where nothing continues a run there is nothing to take. -/
theorem takeWhile_of_ends (ends : ∀ c ∈ rest.head?, isMember c = false) :
    rest.takeWhile isMember = [] ∧ rest.dropWhile isMember = rest := by
  cases rest with
  | nil => exact ⟨rfl, rfl⟩
  | cons c rest => simp [ends c rfl]

/-- A run is read with all that continues it. -/
theorem run?_append (run : Run isMember front) :
    run? isMember (front ++ rest) =
      some (front ++ rest.takeWhile isMember, rest.dropWhile isMember) := by
  obtain ⟨c, others, rfl⟩ := List.exists_cons_of_ne_nil run.1
  rw [run?, List.span_eq_takeWhile_dropWhile, List.takeWhile_append_of_pos run.2,
    List.dropWhile_append_of_pos run.2]
  rfl

theorem third?_stands (cs : List Char) :
    cs = (third? cs).1.elim [] ('I' :: ·) ++ (third? cs).2 ∧
      ∀ digits ∈ (third? cs).1, Run Text.isDecimalDigit digits := by
  unfold third?
  split
  · split
    · rename_i found
      obtain ⟨run, rfl⟩ := run?_stands found
      exact ⟨rfl, fun digits here => Option.some.inj here ▸ run⟩
    · exact ⟨rfl, by simp⟩
  · exact ⟨rfl, by simp⟩

theorem third?_append {digits : List Char} (run : Run Text.isDecimalDigit digits) :
    third? ('I' :: (digits ++ rest)) =
      (some (digits ++ rest.takeWhile Text.isDecimalDigit),
        rest.dropWhile Text.isDecimalDigit) := by
  simp only [third?, run?_append run]

theorem third?_of_ends (ends : ∀ c ∈ rest.head?, c ≠ 'I') : third? rest = (none, rest) := by
  rw [third?]
  rintro behind rfl
  exact ends 'I' rfl rfl

theorem length_third?_le (cs : List Char) : (third? cs).2.length ≤ cs.length := by
  have whole := congrArg List.length (third?_stands cs).1
  rw [List.length_append] at whole
  omega

theorem group?_stands {marker : Char} {group : Group}
    (found : group? marker cs = some (group, rest)) :
    ∃ front, GroupText marker group front ∧ cs = front ++ rest := by
  unfold group? at found
  split at found
  · contradiction
  split_ifs at found with isMarked
  rename_i c behindMarker
  obtain rfl : c = marker := by simpa using isMarked
  split at found
  · rename_i first behindFirst foundFirst
    split at found
    · rename_i second behindSecond foundSecond
      obtain ⟨firstRun, rfl⟩ := run?_stands foundFirst
      obtain ⟨secondRun, rfl⟩ := run?_stands foundSecond
      obtain ⟨standsThird, thirdRun⟩ := third?_stands behindSecond
      rw [Option.some.injEq, Prod.mk.injEq] at found
      obtain ⟨rfl, rfl⟩ := found
      refine ⟨_, ⟨⟨firstRun, secondRun, thirdRun⟩, rfl⟩, ?_⟩
      simp only [Group.text, List.cons_append, List.append_assoc, ← standsThird]
    · contradiction
  · contradiction

/-- The second number of a group is read with all that continues it, and so is a third. -/
theorem group?_append {marker : Char} {first second : List Char}
    (firstRun : Run Text.isDecimalDigit first) (secondRun : Run Text.isDecimalDigit second)
    (rest : List Char) :
    group? marker (marker :: (first ++ 'O' :: (second ++ rest))) =
      some (⟨first, second ++ rest.takeWhile Text.isDecimalDigit,
        (third? (rest.dropWhile Text.isDecimalDigit)).1⟩,
        (third? (rest.dropWhile Text.isDecimalDigit)).2) := by
  have letter : Text.isDecimalDigit 'O' = false := by decide
  simp [group?, run?_append firstRun, run?_append secondRun, letter]

/-- The reader of a group finds the longest group, whatever its marker is, as long as it
does not continue a group in front. -/
theorem reads_group {marker : Char} (noDigit : Text.isDecimalDigit marker = false)
    (noThird : marker ≠ 'I') : Reads (group? marker) marker (GroupText marker) where
  marked := by
    rintro group _ ⟨-, rfl⟩
    rfl
  stands := group?_stands
  reaches := by
    rintro ⟨first, second, third⟩ _ rest ⟨⟨firstRun, secondRun, thirdRun⟩, rfl⟩
    simp only [Group.text, List.cons_append, List.append_assoc]
    refine ⟨_, _, group?_append firstRun secondRun _, ?_⟩
    cases third with
    | none =>
      exact Nat.le_trans (length_third?_le _) (List.dropWhile_sublist _).length_le
    | some digits =>
      have letter : Text.isDecimalDigit 'I' = false := by decide
      simp only [Option.elim_some, List.cons_append, List.dropWhile_cons, letter,
        Bool.false_eq_true, if_false, third?_append (thirdRun digits rfl)]
      exact (List.dropWhile_sublist _).length_le
  exact := by
    rintro ⟨first, second, third⟩ _ rest ⟨⟨firstRun, secondRun, thirdRun⟩, rfl⟩ ends
    have endsDigits : ∀ c ∈ rest.head?, Text.isDecimalDigit c = false :=
      fun c here => ends c here ▸ noDigit
    obtain ⟨nothing, everything⟩ := takeWhile_of_ends endsDigits
    simp only [Group.text, List.cons_append, List.append_assoc, group?_append firstRun secondRun]
    cases third with
    | none =>
      have endsThird : third? rest = (none, rest) :=
        third?_of_ends fun c here => ends c here ▸ noThird
      simp [nothing, everything, endsThird]
    | some digits =>
      have letter : Text.isDecimalDigit 'I' = false := by decide
      simp [letter, third?_append (thirdRun digits rfl), nothing, everything]

/-- A hexadecimal digit continues a function address, but `S` does not. -/
theorem reads_function : Reads function? 'S' FunctionText where
  marked := by
    rintro number _ ⟨digits, -, -, rfl⟩
    rfl
  stands := by
    intro cs number rest found
    unfold function? at found
    split at found
    · obtain ⟨⟨digits, behind⟩, isRun, same⟩ := Option.map_eq_some_iff.mp found
      obtain ⟨run, rfl⟩ := run?_stands isRun
      cases same
      exact ⟨_, ⟨digits, run, rfl, rfl⟩, rfl⟩
    · contradiction
  reaches := by
    rintro number _ rest ⟨digits, run, rfl, rfl⟩
    simp only [List.cons_append, function?, run?_append run, Option.map_some]
    exact ⟨_, _, rfl, (List.dropWhile_sublist _).length_le⟩
  exact := by
    rintro number _ rest ⟨digits, run, rfl, rfl⟩ ends
    have endsDigits : ∀ c ∈ rest.head?, isHexDigit c = false :=
      fun c here => ends c here ▸ by decide
    obtain ⟨nothing, everything⟩ := takeWhile_of_ends endsDigits
    simp [function?, run?_append run, nothing, everything]

end Reading

end JitTrace.PositionText
