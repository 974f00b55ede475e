import JitTrace.Proofs.Code.Index

/-!
# Evicting generated code

Generated code never overlaps. What is in the way of new code is found by walking
down from its end, and the walk may stop at the first entry that starts no later
than the new code because every entry below that one ends before it.
-/

namespace JitTrace.CodeMap

open SplayTree (Valid found? inserted removed nearest?)

/-- Where the range of an entry ends. -/
def stopOf (arena : Array CodeEntry) (entry : UInt64 × CodeId) : UInt64 :=
  rangeEnd entry.1 (arena.getD entry.2.index default).size

/-- No range ends behind the start of the next. -/
def Apart (arena : Array CodeEntry) (entries : List (UInt64 × CodeId)) : Prop :=
  ∀ first ∈ entries, ∀ second ∈ entries, first.1 < second.1 → stopOf arena first ≤ second.1

/-- The range of an entry shares an address with `[start, stop)`, or lies strictly
inside it. -/
def Overlaps (arena : Array CodeEntry) (start stop : UInt64) (entry : UInt64 × CodeId) : Prop :=
  entry.1 < stop ∧ start < stopOf arena entry

/-- A range does not end before it starts. -/
theorem le_rangeEnd (start size : UInt64) : start ≤ rangeEnd start size := by
  have bound := start.toNat_lt
  rw [UInt64.le_iff_toNat_le, rangeEnd, Number.toNat_saturatingAdd]
  omega

variable {arena : Array CodeEntry} {index : AddressIndex}

/-- Entries that lie apart still do when some are dropped. -/
theorem Apart.of_subset {entries fewer : List (UInt64 × CodeId)} (apart : Apart arena entries)
    (within : ∀ entry ∈ fewer, entry ∈ entries) : Apart arena fewer :=
  fun first inFirst second inSecond =>
    apart first (within first inFirst) second (within second inSecond)

/-- Going below an entry leaves fewer entries ahead. -/
theorem length_filter_below_lt {entries : List (UInt64 × CodeId)} {address : UInt64}
    {entry : UInt64 × CodeId} (inside : entry ∈ entries) (below : entry.1 ≤ address)
    (positive : entry.1 ≠ 0) :
    (entries.filter fun other => other.1 ≤ entry.1 - 1).length <
      (entries.filter fun other => other.1 ≤ address).length := by
  have narrower : (entries.filter fun other => other.1 ≤ entry.1 - 1) =
      (entries.filter fun other => other.1 ≤ address).filter fun other =>
        other.1 ≤ entry.1 - 1 := by
    rw [List.filter_filter]
    refine List.filter_congr fun other _ => ?_
    grind
  rw [narrower, List.length_filter_lt_length_iff_exists]
  refine ⟨entry, List.mem_filter.mpr ⟨inside, by simpa using below⟩, ?_⟩
  grind

/-- The start of an entry, if its range is in the way. -/
def startIfCovered (arena : Array CodeEntry) (start stop : UInt64) (entry : UInt64 × CodeId) :
    List UInt64 :=
  if entry.1 < stop && start < stopOf arena entry then [entry.1] else []

theorem mem_startIfCovered {start stop covered : UInt64} {entry : UInt64 × CodeId} :
    covered ∈ startIfCovered arena start stop entry ↔
      entry.1 = covered ∧ Overlaps arena start stop entry := by
  by_cases covers : entry.1 < stop ∧ start < stopOf arena entry
  · simp [startIfCovered, Overlaps, covers, eq_comm]
  · simp [startIfCovered, Overlaps, covers]

/-- One step of the walk looks at the last entry at or below the address. -/
theorem exists_coveredStarts_succ (arena : Array CodeEntry) (start stop : UInt64) (steps : Nat)
    (address : UInt64) (valid : Valid index) :
    ∃ searched, Valid searched ∧ searched.toList = index.toList ∧
      coveredStarts arena start stop (steps + 1) address index =
        match nearest? address (·.isLE) .left index.toList with
        | none => ([], searched)
        | some entry =>
          let here := startIfCovered arena start stop entry
          let further := coveredStarts arena start stop steps (entry.1 - 1) searched
          if entry.1 ≤ start ∨ entry.1 = 0 then (here, searched)
          else (here ++ further.1, further.2) := by
  obtain ⟨handle?, searched, searches, searchedValid, same, found⟩ :=
    valid.exists_nearest address (·.isLE) .left rfl rfl
  change index.greatestAtMost address = _ at searches
  refine ⟨searched, searchedValid, same, ?_⟩
  simp only [coveredStarts, searches, found]
  cases nearest? address (·.isLE) .left index.toList with
  | none => rfl
  | some entry => simp [startIfCovered, stopOf]

/-- The walk only rearranges the index. -/
theorem valid_coveredStarts (arena : Array CodeEntry) (start stop : UInt64) (steps : Nat)
    (address : UInt64) (valid : Valid index) :
    Valid (coveredStarts arena start stop steps address index).2 ∧
      (coveredStarts arena start stop steps address index).2.toList = index.toList := by
  induction steps generalizing address index with
  | zero => exact ⟨valid, rfl⟩
  | succ steps inductionHypothesis =>
    obtain ⟨searched, searchedValid, same, walked⟩ :=
      exists_coveredStarts_succ arena start stop steps address valid
    rw [walked]
    split
    · exact ⟨searchedValid, same⟩
    · rename_i entry _
      dsimp only
      split
      · exact ⟨searchedValid, same⟩
      · obtain ⟨afterValid, afterSame⟩ := inductionHypothesis (entry.1 - 1) searchedValid
        exact ⟨afterValid, afterSame.trans same⟩

/-- Whatever the walk finds overlaps the range. -/
theorem overlaps_of_mem_coveredStarts (start stop : UInt64) {steps : Nat} {address : UInt64}
    (valid : Valid index) {covered : UInt64}
    (found : covered ∈ (coveredStarts arena start stop steps address index).1) :
    ∃ entry ∈ index.toList, entry.1 = covered ∧ entry.1 ≤ address ∧
      Overlaps arena start stop entry := by
  induction steps generalizing address index with
  | zero => exact absurd found List.not_mem_nil
  | succ steps inductionHypothesis =>
    obtain ⟨searched, searchedValid, same, walked⟩ :=
      exists_coveredStarts_succ arena start stop steps address valid
    rw [walked] at found
    cases nearest : nearest? address (·.isLE) .left index.toList with
    | none => simp [nearest] at found
    | some entry =>
      obtain ⟨inside, below, -⟩ :=
        AddressIndex.nearest?_eq_some (AddressIndex.ascending_of_valid valid) nearest
      have here (isHere : covered ∈ startIfCovered arena start stop entry) :
          ∃ entry ∈ index.toList, entry.1 = covered ∧ entry.1 ≤ address ∧
            Overlaps arena start stop entry :=
        have ⟨starts, overlaps⟩ := mem_startIfCovered.mp isHere
        ⟨entry, inside, starts, below, overlaps⟩
      by_cases last : entry.1 ≤ start ∨ entry.1 = 0
      · exact here (by simpa only [nearest, if_pos last] using found)
      · rw [nearest] at found
        simp only [if_neg last, List.mem_append] at found
        rcases found with isHere | isBelow
        · exact here isHere
        · obtain ⟨other, otherInside, starts, otherBelow, overlaps⟩ :=
            inductionHypothesis searchedValid isBelow
          exact ⟨other, same ▸ otherInside, starts, by grind, overlaps⟩

/-- Among entries that lie apart, the walk misses none of those that overlap the range. -/
theorem mem_coveredStarts_of_overlaps (start stop : UInt64) {steps : Nat} {address : UInt64}
    (valid : Valid index) (apart : Apart arena index.toList)
    (enough : (index.toList.filter fun entry => entry.1 ≤ address).length < steps)
    {entry : UInt64 × CodeId} (inside : entry ∈ index.toList) (below : entry.1 ≤ address)
    (overlaps : Overlaps arena start stop entry) :
    entry.1 ∈ (coveredStarts arena start stop steps address index).1 := by
  induction steps generalizing address index with
  | zero => omega
  | succ steps inductionHypothesis =>
    obtain ⟨searched, searchedValid, same, walked⟩ :=
      exists_coveredStarts_succ arena start stop steps address valid
    rw [walked]
    cases nearest : nearest? address (·.isLE) .left index.toList with
    | none =>
      exact absurd below (UInt64.not_le.mpr (AddressIndex.lt_of_nearest?_none nearest _ inside))
    | some nearestEntry =>
      obtain ⟨nearestInside, nearestBelow, others⟩ :=
        AddressIndex.nearest?_eq_some (AddressIndex.ascending_of_valid valid) nearest
      have here : entry = nearestEntry →
          entry.1 ∈ startIfCovered arena start stop nearestEntry := by
        rintro rfl
        exact mem_startIfCovered.mpr ⟨rfl, overlaps⟩
      by_cases last : nearestEntry.1 ≤ start ∨ nearestEntry.1 = 0
      · simp only [if_pos last]
        refine here ((others entry inside below).resolve_right fun less => ?_)
        -- An entry further down ends no later than this one starts.
        have ends := apart entry inside _ nearestInside less
        have begins := overlaps.2
        grind
      · simp only [if_neg last, List.mem_append]
        refine (others entry inside below).imp here fun less => ?_
        have onward := length_filter_below_lt nearestInside nearestBelow
          fun zero => last (.inr zero)
        rw [← same] at apart onward enough inside
        exact inductionHypothesis searchedValid apart
          (Nat.lt_of_lt_of_le onward (Nat.le_of_lt_succ enough)) inside (by grind)

/-- Removing addresses one after the other leaves the other entries. -/
theorem valid_foldl_remove (addresses : List UInt64) (valid : Valid index) :
    Valid (addresses.foldl (fun index address => (index.remove address).2) index) ∧
      ∀ entry,
        entry ∈ (addresses.foldl (fun index address => (index.remove address).2) index).toList ↔
          entry ∈ index.toList ∧ entry.1 ∉ addresses := by
  induction addresses generalizing index with
  | nil => simpa using valid
  | cons address addresses inductionHypothesis =>
    obtain ⟨after, removes, afterValid, contents⟩ := valid.exists_remove address
    obtain ⟨lastValid, mem_last⟩ := inductionHypothesis afterValid
    simp only [List.foldl_cons, removes]
    refine ⟨lastValid, fun entry => ?_⟩
    rw [mem_last, contents, AddressIndex.mem_removed, List.mem_cons]
    tauto

variable {map : CodeMap}

/-- Eviction drops no entry but those that overlap the range. When entries lie apart, it drops
those that overlap a range that is not empty. -/
theorem exists_evictCovered (start stop : UInt64) (valid : Valid map.dynamics) :
    ∃ dynamics, map.evictCovered start stop = { map with dynamics } ∧ Valid dynamics ∧
      (∀ entry ∈ dynamics.toList, entry ∈ map.dynamics.toList) ∧
      (∀ entry ∈ map.dynamics.toList, ¬Overlaps map.arena start stop entry →
        entry ∈ dynamics.toList) ∧
      (Apart map.arena map.dynamics.toList → ∀ entry, entry ∈ dynamics.toList ↔
        entry ∈ map.dynamics.toList ∧
          ¬(start < stop ∧ Overlaps map.arena start stop entry)) := by
  by_cases nothing : stop ≤ start
  · refine ⟨map.dynamics, by simp [evictCovered, nothing], valid, fun _ inside => inside,
      fun _ inside _ => inside, fun _ entry => ?_⟩
    grind
  · have ascending := AddressIndex.ascending_of_valid valid
    obtain ⟨searchedValid, same⟩ := valid_coveredStarts map.arena start stop
      (map.dynamics.size + 1) (stop - 1) valid
    obtain ⟨afterValid, mem_after⟩ := valid_foldl_remove
      (coveredStarts map.arena start stop (map.dynamics.size + 1) (stop - 1) map.dynamics).1
      searchedValid
    rw [same] at mem_after
    have spares : ∀ entry ∈ map.dynamics.toList, ¬Overlaps map.arena start stop entry →
        entry.1 ∉ (coveredStarts map.arena start stop (map.dynamics.size + 1) (stop - 1)
          map.dynamics).1 := by
      intro entry inside spared found
      obtain ⟨other, otherInside, sameStart, -, overlaps⟩ :=
        overlaps_of_mem_coveredStarts start stop valid found
      exact spared (ascending.eq_of_start otherInside inside sameStart ▸ overlaps)
    refine ⟨_, by simp only [evictCovered, nothing, if_false], afterValid,
      fun entry inside => ((mem_after entry).mp inside).1,
      fun entry inside spared => (mem_after entry).mpr ⟨inside, spares entry inside spared⟩,
      fun apart entry => ?_⟩
    have enough : (map.dynamics.toList.filter fun entry => entry.1 ≤ stop - 1).length <
        map.dynamics.size + 1 := by
      rw [valid.size_eq]
      exact Nat.lt_succ_of_le (List.length_filter_le ..)
    rw [mem_after]
    refine and_congr_right fun inside => ⟨fun kept ⟨_, overlaps⟩ => kept ?_, fun spared => ?_⟩
    · have before := overlaps.1
      exact mem_coveredStarts_of_overlaps start stop valid apart enough inside (by grind) overlaps
    · exact spares entry inside fun overlaps => spared ⟨UInt64.not_le.mp nothing, overlaps⟩

/-- Placing code evicts what is in its way and takes the place of what starts there. -/
theorem exists_placeCode_evicting (start size : UInt64) (id : CodeId) (valid : Valid map.dynamics) :
    ∃ evicted placed, map.evictCovered start (rangeEnd start size) =
        { map with dynamics := evicted } ∧
      map.placeCode start size id = { map with dynamics := placed } ∧ Valid placed ∧
      ∀ entry, entry ∈ placed.toList ↔
        (entry ∈ evicted.toList ∧ entry.1 ≠ start) ∨ entry = (start, id) := by
  obtain ⟨evicted, evicts, evictedValid, -⟩ :=
    exists_evictCovered start (rangeEnd start size) valid
  obtain ⟨cleared, removes, clearedValid, clearedIs⟩ := evictedValid.exists_remove start
  obtain ⟨placed, inserts, placedValid, placedIs⟩ := clearedValid.exists_insert start id
  have absent : ∀ other ∈ cleared.toList, other.1 ≠ start := by
    intro other inside
    rw [clearedIs, AddressIndex.mem_removed] at inside
    exact inside.2
  refine ⟨evicted, placed, evicts, by simp [placeCode, evicts, removes, inserts], placedValid,
    fun entry => ?_⟩
  rw [placedIs, AddressIndex.mem_inserted absent, clearedIs, AddressIndex.mem_removed]

/-- Placing code leaves, besides it, entries that were there before. When they lie apart,
it drops those that it overlaps and the one that starts where it does. -/
theorem exists_placeCode (start size : UInt64) (id : CodeId) (valid : Valid map.dynamics) :
    ∃ dynamics, map.placeCode start size id = { map with dynamics } ∧ Valid dynamics ∧
      (∀ entry ∈ dynamics.toList, entry = (start, id) ∨ entry ∈ map.dynamics.toList) ∧
      (Apart map.arena map.dynamics.toList → ∀ entry, entry ∈ dynamics.toList ↔
        entry = (start, id) ∨ entry ∈ map.dynamics.toList ∧ entry.1 ≠ start ∧
          ¬(start < rangeEnd start size ∧
            Overlaps map.arena start (rangeEnd start size) entry)) := by
  obtain ⟨evicted, placed, evicts, places, placedValid, mem_placed⟩ :=
    exists_placeCode_evicting start size id valid
  obtain ⟨_, alsoEvicts, -, fewer, -, mem_evicted⟩ :=
    exists_evictCovered start (rangeEnd start size) valid
  obtain rfl : evicted = _ := congrArg CodeMap.dynamics (evicts.symm.trans alsoEvicts)
  refine ⟨placed, places, placedValid, fun entry inside => ?_, fun apart entry => ?_⟩
  · rcases (mem_placed entry).mp inside with ⟨old, -⟩ | new
    · exact .inr (fewer entry old)
    · exact .inl new
  · rw [mem_placed, mem_evicted apart]
    tauto

/-- Placed code starts where it was placed. -/
theorem mem_placeCode (start size : UInt64) (id : CodeId) (valid : Valid map.dynamics) :
    (start, id) ∈ (map.placeCode start size id).dynamics.toList := by
  obtain ⟨_, placed, -, places, -, mem_placed⟩ := exists_placeCode_evicting start size id valid
  rw [places]
  exact (mem_placed _).mpr (.inr rfl)

/-- Placing code spares what starts elsewhere and does not overlap it, whether or not entries
lie apart. -/
theorem mem_placeCode_of_spared {start size : UInt64} {id : CodeId} (valid : Valid map.dynamics)
    {entry : UInt64 × CodeId} (inside : entry ∈ map.dynamics.toList) (elsewhere : entry.1 ≠ start)
    (spared : ¬Overlaps map.arena start (rangeEnd start size) entry) :
    entry ∈ (map.placeCode start size id).dynamics.toList := by
  obtain ⟨evicted, placed, evicts, places, -, mem_placed⟩ :=
    exists_placeCode_evicting start size id valid
  obtain ⟨_, alsoEvicts, -, -, spares, -⟩ :=
    exists_evictCovered start (rangeEnd start size) valid
  obtain rfl : evicted = _ := congrArg CodeMap.dynamics (evicts.symm.trans alsoEvicts)
  rw [places]
  exact (mem_placed _).mpr (.inl ⟨spares entry inside spared, elsewhere⟩)

/-- No range of the entries holds an address other than as its start. -/
def Clear (arena : Array CodeEntry) (entries : List (UInt64 × CodeId)) (address : UInt64) : Prop :=
  ∀ entry ∈ entries, ¬(entry.1 < address ∧ address < stopOf arena entry)

/-- Placed code lies apart from what is left. Code without range evicts nothing, so it
must not be placed inside another range. -/
theorem Apart.of_placed {entries placed : List (UInt64 × CodeId)} {start : UInt64} {id : CodeId}
    (apart : Apart arena entries)
    (mem_placed : ∀ entry, entry ∈ placed ↔ entry = (start, id) ∨
      entry ∈ entries ∧ entry.1 ≠ start ∧ ¬(start < stopOf arena (start, id) ∧
        Overlaps arena start (stopOf arena (start, id)) entry))
    (clear : stopOf arena (start, id) ≤ start → Clear arena entries start) :
    Apart arena placed := by
  intro first inFirst second inSecond less
  rw [mem_placed] at inFirst inSecond
  rcases inFirst with rfl | ⟨inFirst, -, firstSpared⟩ <;>
    rcases inSecond with rfl | ⟨inSecond, -, secondSpared⟩
  · exact absurd less (UInt64.lt_irrefl _)
  · have ends : second.1 ≤ stopOf arena second := le_rangeEnd ..
    simp only [Overlaps] at secondSpared
    grind
  · by_cases empty : stopOf arena (start, id) ≤ start
    · exact UInt64.not_lt.mp fun inside => clear empty first inFirst ⟨less, inside⟩
    · simp only [Overlaps] at firstSpared
      grind
  · exact apart first inFirst second inSecond less

end JitTrace.CodeMap
