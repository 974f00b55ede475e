import JitTrace.Source.Position
import Mathlib.Data.List.Basic
import Mathlib.Order.Basic

/-!
# Looking positions up

A position table is sorted by code offset, and positions at one offset stay in the order
in which they were logged. The position of an offset is then the last one logged among
those at the greatest offset that is not above it.
-/

namespace JitTrace

/-- The entries in the order of their code offsets; entries at one offset are in the same
order as before. -/
structure SortedFrom (entries sorted : List PositionEntry) : Prop where
  ascending : sorted.Pairwise (·.codeOffset ≤ ·.codeOffset)
  stable : ∀ offset, sorted.filter (·.codeOffset == offset) =
    entries.filter (·.codeOffset == offset)

/-- Among the entries that are not above an offset, this one has the greatest offset, and
it is the last one there. -/
structure LastUpTo (entries : List PositionEntry) (offset : UInt64) (last : PositionEntry) :
    Prop where
  upTo : last.codeOffset ≤ offset
  greatest : ∀ entry ∈ entries, entry.codeOffset ≤ offset → entry.codeOffset ≤ last.codeOffset
  last : (entries.filter (·.codeOffset == last.codeOffset)).getLast? = some last

namespace SortedFrom

variable {entries sorted : List PositionEntry}

theorem mem_iff (sortedFrom : SortedFrom entries sorted) {entry : PositionEntry} :
    entry ∈ sorted ↔ entry ∈ entries := by
  have same := congrArg (entry ∈ ·) (sortedFrom.stable entry.codeOffset)
  simpa using same

theorem lastUpTo_iff (sortedFrom : SortedFrom entries sorted) {offset : UInt64}
    {last : PositionEntry} : LastUpTo sorted offset last ↔ LastUpTo entries offset last := by
  constructor
  · rintro ⟨upTo, greatest, isLast⟩
    exact ⟨upTo, fun entry inside => greatest entry (sortedFrom.mem_iff.mpr inside),
      sortedFrom.stable _ ▸ isLast⟩
  · rintro ⟨upTo, greatest, isLast⟩
    exact ⟨upTo, fun entry inside => greatest entry (sortedFrom.mem_iff.mp inside),
      sortedFrom.stable _ ▸ isLast⟩

/-- Sorting leaves the entries at each offset in their order. -/
theorem mergeSort (entries : List PositionEntry) :
    SortedFrom entries
      (entries.mergeSort fun left right => left.codeOffset ≤ right.codeOffset) := by
  have transitive (first second third : PositionEntry) :
      decide (first.codeOffset ≤ second.codeOffset) = true →
      decide (second.codeOffset ≤ third.codeOffset) = true →
      decide (first.codeOffset ≤ third.codeOffset) = true := by
    simpa only [decide_eq_true_eq] using UInt64.le_trans
  have total (first second : PositionEntry) : (decide (first.codeOffset ≤ second.codeOffset) ||
      decide (second.codeOffset ≤ first.codeOffset)) = true := by
    simpa using UInt64.le_total first.codeOffset second.codeOffset
  refine ⟨(List.pairwise_mergeSort transitive total entries).imp of_decide_eq_true,
    fun offset => ?_⟩
  -- The entries at one offset are in order, whatever their order is, so sorting keeps it.
  have atOffset : (entries.filter (·.codeOffset == offset)).Pairwise
      fun left right => decide (left.codeOffset ≤ right.codeOffset) = true := by
    refine List.pairwise_of_forall_mem_list fun left isLeft right isRight => ?_
    simp only [List.mem_filter, beq_iff_eq] at isLeft isRight
    simp [isLeft.2, isRight.2]
  have kept := List.sublist_mergeSort transitive total atOffset List.filter_sublist
  have part := kept.filter (·.codeOffset == offset)
  simp only [List.filter_filter, Bool.and_self] at part
  exact (part.eq_of_length ((List.mergeSort_perm entries _).filter _).length_eq.symm).symm

/-- A list in order is the only way to sort it. -/
theorem eq_of_ascending (sortedFrom : SortedFrom entries sorted)
    (ascending : entries.Pairwise (·.codeOffset ≤ ·.codeOffset)) : sorted = entries := by
  induction sorted generalizing entries with
  | nil => exact (List.eq_nil_iff_forall_not_mem.mpr fun entry inside => by
      simpa using sortedFrom.mem_iff.mpr inside).symm
  | cons first sorted inductionHypothesis =>
    obtain ⟨leads, sortedAscending⟩ := List.pairwise_cons.mp sortedFrom.ascending
    obtain ⟨front, entries, rfl⟩ : ∃ front others, entries = front :: others :=
      List.exists_cons_of_ne_nil (List.ne_nil_of_mem (sortedFrom.mem_iff.mp List.mem_cons_self))
    obtain ⟨frontLeads, entriesAscending⟩ := List.pairwise_cons.mp ascending
    have sameOffset : front.codeOffset = first.codeOffset := by
      refine UInt64.le_antisymm ?_ ?_
      · rcases List.mem_cons.mp (sortedFrom.mem_iff.mp List.mem_cons_self) with rfl | later
        · exact UInt64.le_refl _
        · exact frontLeads first later
      · rcases List.mem_cons.mp (sortedFrom.mem_iff.mpr List.mem_cons_self) with rfl | later
        · exact UInt64.le_refl _
        · exact leads front later
    have heads := sortedFrom.stable first.codeOffset
    simp only [List.filter_cons, sameOffset, beq_self_eq_true, if_true, List.cons.injEq] at heads
    obtain ⟨rfl, sameTails⟩ := heads
    refine congrArg (first :: ·) (inductionHypothesis ⟨sortedAscending, fun offset => ?_⟩
      entriesAscending)
    have whole := sortedFrom.stable offset
    by_cases here : first.codeOffset = offset
    · exact here ▸ sameTails
    · simpa [List.filter_cons, here] using whole

/-- There is one way to sort. -/
theorem unique {other : List PositionEntry} (first : SortedFrom entries sorted)
    (second : SortedFrom entries other) : sorted = other :=
  eq_of_ascending ⟨first.ascending, fun offset => (first.stable offset).trans
    (second.stable offset).symm⟩ second.ascending

end SortedFrom

theorem LastUpTo.unique {entries : List PositionEntry} {offset : UInt64}
    {first second : PositionEntry} (left : LastUpTo entries offset first)
    (right : LastUpTo entries offset second) : first = second := by
  have inside {last : PositionEntry} (isLast : LastUpTo entries offset last) : last ∈ entries :=
    List.mem_of_mem_filter (List.mem_of_getLast? isLast.last)
  have same : first.codeOffset = second.codeOffset :=
    UInt64.le_antisymm (right.greatest first (inside left) left.upTo)
      (left.greatest second (inside right) right.upTo)
  have last := left.last
  rw [same, right.last] at last
  exact (Option.some.inj last).symm

namespace SourceInfo

variable {info : SourceInfo} {offset : UInt64}
  (ascending : info.positions.Pairwise (·.codeOffset ≤ ·.codeOffset))
include ascending

/-- The search passes over all entries that are not above the offset. -/
theorem positionAt?_eq_getLast? :
    info.positionAt? offset = (info.positions.filter (·.codeOffset ≤ offset)).getLast? := by
  rw [positionAt?]
  congr 1
  generalize info.positions = positions at ascending
  induction positions with
  | nil => rfl
  | cons first others inductionHypothesis =>
    obtain ⟨leads, othersAscending⟩ := List.pairwise_cons.mp ascending
    by_cases upTo : first.codeOffset ≤ offset
    · simp [upTo, inductionHypothesis othersAscending]
    · have above : ∀ entry ∈ others, ¬entry.codeOffset ≤ offset :=
        fun entry inside below => upTo (UInt64.le_trans (leads entry inside) below)
      simpa [List.takeWhile_cons, List.filter_cons, upTo] using above

theorem positionAt?_eq_none :
    info.positionAt? offset = none ↔ ∀ entry ∈ info.positions, offset < entry.codeOffset := by
  simp [positionAt?_eq_getLast? ascending]

theorem lastUpTo_of_positionAt? {last : PositionEntry}
    (found : info.positionAt? offset = some last) : LastUpTo info.positions offset last := by
  rw [positionAt?_eq_getLast? ascending, List.getLast?_eq_some_iff] at found
  obtain ⟨others, isLast⟩ := found
  have notAbove : last ∈ info.positions.filter (·.codeOffset ≤ offset) := by simp [isLast]
  have upTo : last.codeOffset ≤ offset := by simpa using (List.mem_filter.mp notAbove).2
  have leads := ascending.filter (·.codeOffset ≤ offset)
  rw [isLast, List.pairwise_append] at leads
  refine ⟨upTo, fun entry inside below => ?_, ?_⟩
  · have among : entry ∈ others ++ [last] := isLast ▸ List.mem_filter.mpr ⟨inside, by simpa⟩
    rcases List.mem_append.mp among with earlier | here
    · exact leads.2.2 entry earlier last List.mem_cons_self
    · exact List.mem_singleton.mp here ▸ UInt64.le_refl _
  · have part : info.positions.filter (·.codeOffset == last.codeOffset) =
        (others ++ [last]).filter (·.codeOffset == last.codeOffset) := by
      rw [← isLast, List.filter_filter]
      refine List.filter_congr fun entry _ => ?_
      by_cases here : entry.codeOffset = last.codeOffset
      · simp [here, upTo]
      · simp [here]
    simp [part, List.filter_append]

/-- The position of an offset is the last one at the greatest offset that is not above. -/
theorem positionAt?_eq_some {last : PositionEntry} :
    info.positionAt? offset = some last ↔ LastUpTo info.positions offset last := by
  refine ⟨lastUpTo_of_positionAt? ascending, fun isLast => ?_⟩
  cases found : info.positionAt? offset with
  | none =>
    have inside := List.mem_of_mem_filter (List.mem_of_getLast? isLast.last)
    have above := (positionAt?_eq_none ascending).mp found last inside
    exact absurd isLast.upTo (UInt64.not_le.mpr above)
  | some other => rw [(lastUpTo_of_positionAt? ascending found).unique isLast]

end SourceInfo

end JitTrace
