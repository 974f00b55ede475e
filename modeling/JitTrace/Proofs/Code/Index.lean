import JitTrace.Code.Map
import JitTrace.Proofs.SplayTree.Contents
import Mathlib.Order.Compare

/-!
# Address indices

Splay trees over addresses, as the code map uses them: what their operations answer
and leave, in terms of the entries they hold and the order of addresses.
-/

namespace JitTrace.AddressIndex

open SplayTree (Valid found? inserted removed nearest?)

variable {entries : List (UInt64 × CodeId)}

/-- The entries are in the order of their addresses. -/
abbrev Ascending (entries : List (UInt64 × CodeId)) : Prop :=
  entries.Pairwise fun first second => first.1 < second.1

theorem ascending_of_valid {index : AddressIndex} (valid : Valid index) :
    Ascending index.toList :=
  valid.ascending.imp Std.compare_eq_lt.mp

/-- At most one entry has an address. -/
theorem Ascending.eq_of_start (ascending : Ascending entries) {first second : UInt64 × CodeId}
    (inFirst : first ∈ entries) (inSecond : second ∈ entries) (same : first.1 = second.1) :
    first = second := by
  obtain ⟨before, after, rfl⟩ := List.append_of_mem inFirst
  obtain ⟨-, onward, across⟩ := List.pairwise_append.mp ascending
  rcases List.mem_append.mp inSecond with inBefore | inRest
  · exact absurd same.symm (UInt64.ne_of_lt (across second inBefore first (by simp)))
  · rcases List.mem_cons.mp inRest with rfl | inAfter
    · rfl
    · exact absurd same (UInt64.ne_of_lt ((List.pairwise_cons.mp onward).1 second inAfter))

theorem mem_removed {entry : UInt64 × CodeId} {address : UInt64} :
    entry ∈ removed address entries ↔ entry ∈ entries ∧ entry.1 ≠ address := by
  simp only [removed, List.mem_filter, bne_iff_ne, ne_eq, Std.compare_eq_iff_eq]
  exact and_congr_right fun _ => not_congr eq_comm

/-- Inserting an address without entry adds one entry. -/
theorem mem_inserted {entry : UInt64 × CodeId} {address : UInt64} {id : CodeId}
    (absent : ∀ other ∈ entries, other.1 ≠ address) :
    entry ∈ inserted address id entries ↔ entry ∈ entries ∨ entry = (address, id) := by
  have nowhere : found? address entries = none := by
    rw [found?, List.find?_eq_none]
    intro other inside
    rw [beq_iff_eq, Std.compare_eq_iff_eq]
    exact (absent other inside).symm
  simp only [inserted, nowhere, Option.isSome_none, Bool.false_eq_true, if_false, List.mem_append,
    List.mem_cons, List.mem_filter, beq_iff_eq, Std.compare_eq_gt, Std.compare_eq_lt]
  constructor
  · tauto
  · rintro (inside | rfl)
    · rcases UInt64.lt_or_lt_of_ne (absent entry inside) with less | more
      · exact .inl ⟨inside, less⟩
      · exact .inr (.inr ⟨inside, more⟩)
    · exact .inr (.inl rfl)

/-- Inserting adds the new entry at most. -/
theorem of_mem_inserted {address : UInt64} {id : CodeId} {entry : UInt64 × CodeId}
    (inside : entry ∈ inserted address id entries) :
    entry ∈ entries ∨ entry = (address, id) := by
  rw [inserted] at inside
  split at inside
  · exact .inl inside
  · simp only [List.mem_append, List.mem_cons, List.mem_filter] at inside
    tauto

/-- The entry found for an address is the one there. -/
theorem found?_eq_some (ascending : Ascending entries) {address : UInt64}
    {entry : UInt64 × CodeId} :
    found? address entries = some entry ↔ entry ∈ entries ∧ entry.1 = address := by
  rw [found?]
  constructor
  · intro found
    have holds := List.find?_some found
    rw [beq_iff_eq, Std.compare_eq_iff_eq] at holds
    exact ⟨List.mem_of_find?_eq_some found, holds.symm⟩
  · rintro ⟨inside, rfl⟩
    have present : (entries.find? fun other => compare entry.1 other.1 == .eq).isSome :=
      List.find?_isSome.mpr ⟨entry, inside, by simp⟩
    obtain ⟨other, found⟩ := Option.isSome_iff_exists.mp present
    have holds := List.find?_some found
    rw [beq_iff_eq, Std.compare_eq_iff_eq] at holds
    rw [found, ascending.eq_of_start (List.mem_of_find?_eq_some found) inside holds.symm]

/-- Inserting an address that has an entry adds nothing. -/
theorem inserted_of_mem (ascending : Ascending entries) {address : UInt64} {present : CodeId}
    (taken : (address, present) ∈ entries) (id : CodeId) :
    inserted address id entries = entries := by
  have found := (found?_eq_some ascending).mpr ⟨taken, rfl⟩
  rw [inserted, found, Option.isSome_some, if_pos rfl]

/-- No entry lies at or below an address for which no nearest one is found. -/
theorem lt_of_nearest?_none {address : UInt64}
    (nothing : nearest? address (·.isLE) .left entries = none) :
    ∀ entry ∈ entries, address < entry.1 := by
  simp only [nearest?, Side.orient, List.head?_reverse, List.getLast?_eq_none_iff,
    List.filter_eq_nil_iff] at nothing
  intro entry inside
  have above := nothing entry inside
  rwa [Std.isLE_compare, UInt64.not_le] at above

/-- The nearest entry at or below an address is the last one there. -/
theorem nearest?_eq_some (ascending : Ascending entries) {address : UInt64}
    {entry : UInt64 × CodeId} (found : nearest? address (·.isLE) .left entries = some entry) :
    entry ∈ entries ∧ entry.1 ≤ address ∧
      ∀ other ∈ entries, other.1 ≤ address → other = entry ∨ other.1 < entry.1 := by
  simp only [nearest?, Side.orient, List.head?_reverse] at found
  obtain ⟨before, shape⟩ := List.getLast?_eq_some_iff.mp found
  have inside : entry ∈ entries.filter fun other => (compare other.1 address).isLE := by
    simp [shape]
  have sorted : Ascending (before ++ [entry]) := shape ▸ ascending.filter _
  refine ⟨(List.mem_filter.mp inside).1, Std.isLE_compare.mp (List.mem_filter.mp inside).2, ?_⟩
  intro other otherInside below
  have listed : other ∈ before ++ [entry] := by
    rw [← shape]
    exact List.mem_filter.mpr ⟨otherInside, Std.isLE_compare.mpr below⟩
  rcases List.mem_append.mp listed with isBefore | isLast
  · exact .inr ((List.pairwise_append.mp sorted).2.2 other isBefore entry (by simp))
  · exact .inl (by simpa using isLast)

/-- The nearest entry at or below an address is the one that starts last there. -/
theorem nearest?_eq_some_iff (ascending : Ascending entries) {address : UInt64}
    {entry : UInt64 × CodeId} :
    nearest? address (·.isLE) .left entries = some entry ↔
      entry ∈ entries ∧ entry.1 ≤ address ∧
        ∀ other ∈ entries, other.1 ≤ address → other.1 ≤ entry.1 := by
  constructor
  · intro found
    obtain ⟨inside, below, others⟩ := nearest?_eq_some ascending found
    refine ⟨inside, below, fun other otherInside otherBelow => ?_⟩
    rcases others other otherInside otherBelow with rfl | less
    · exact UInt64.le_refl _
    · exact UInt64.le_of_lt less
  · rintro ⟨inside, below, last⟩
    cases found : nearest? address (·.isLE) .left entries with
    | none => exact absurd below (UInt64.not_le.mpr (lt_of_nearest?_none found entry inside))
    | some other =>
      obtain ⟨otherInside, otherBelow, others⟩ := nearest?_eq_some ascending found
      rcases others entry inside below with rfl | less
      · rfl
      · exact absurd less (UInt64.not_lt.mpr (last other otherInside otherBelow))

end JitTrace.AddressIndex
