import JitTrace.Proofs.Code.Indexed

/-!
# Shared functions among the code

A shared function has no range, so no lookup finds it and it evicts nothing. It is an
entry of the index all the same, and a lookup asks no entry but the one that starts last
at or below the address. Where the function starts inside the range of other code, the
rest of that range is lost to lookups.
-/

namespace JitTrace.CodeMap

open SplayTree (Valid nearest?)

/-- A range without size ends where it starts. -/
theorem rangeEnd_zero (start : UInt64) : rangeEnd start 0 = start := by
  simp [rangeEnd, Number.saturatingAdd]

/-- What is left of a lookup once an entry without range starts at `start`: code that
starts below it is not seen there and above. -/
def unlessHidden (start address : UInt64) (located? : Option Located) : Option Located :=
  located?.filter fun located => !(located.start < start && start ≤ address)

section Placing

variable {map : CodeMap} {start : UInt64}

/-- Storing an entry changes nothing that an index of stored entries locates. -/
theorem locatedIn_push {arena : Array CodeEntry} (new : CodeEntry)
    {entries : List (UInt64 × CodeId)} (ascending : AddressIndex.Ascending entries)
    (stored : ∀ entry ∈ entries, entry.2.index < arena.size) (address : UInt64) :
    locatedIn (arena.push new) entries address = locatedIn arena entries address := by
  rw [locatedIn, locatedIn]
  cases nearest : nearest? address (·.isLE) .left entries with
  | none => rfl
  | some entry =>
    have inside := (AddressIndex.nearest?_eq_some ascending nearest).1
    simp only [Option.bind_some, stopOf_push new (stored entry inside)]

/-- A shared function is entered where it starts and evicts nothing. -/
theorem Indexed.exists_addSharedFunction (indexed : Indexed map) (name : String)
    (fresh : ∀ id, (start, id) ∉ map.dynamics.toList) :
    ∃ dynamics, (map.addCode start (.sharedFunction name)).2 =
        { map with arena := map.arena.push (.sharedFunction name), dynamics } ∧
      Valid dynamics ∧ ∀ entry, entry ∈ dynamics.toList ↔
        entry ∈ map.dynamics.toList ∨ entry = (start, ⟨map.arena.size⟩) := by
  obtain ⟨cleared, removes, clearedValid, clearedIs⟩ := indexed.dynamics.exists_remove start
  obtain ⟨placed, inserts, placedValid, placedIs⟩ :=
    clearedValid.exists_insert start (⟨map.arena.size⟩ : CodeId)
  have nothingThere : ∀ entry, entry ∈ cleared.toList ↔ entry ∈ map.dynamics.toList := by
    intro entry
    rw [clearedIs, AddressIndex.mem_removed, and_iff_left_iff_imp]
    rintro inside rfl
    exact fresh entry.2 inside
  refine ⟨placed, ?_, placedValid, fun entry => ?_⟩
  · simp [CodeMap.addCode, CodeMap.addDetached, CodeMap.placeCode, evictCovered,
      CodeEntry.sharedFunction, rangeEnd_zero, removes, inserts]
  · rw [placedIs, AddressIndex.mem_inserted, nothingThere]
    rintro other inside rfl
    exact fresh other.2 ((nothingThere other).mp inside)

/-- An entry without range hides the code that starts below it. -/
theorem locatedIn_of_mem_iff {arena : Array CodeEntry} {entries more : List (UInt64 × CodeId)}
    {id : CodeId} (ascending : AddressIndex.Ascending entries)
    (moreAscending : AddressIndex.Ascending more)
    (mem_more : ∀ entry, entry ∈ more ↔ entry ∈ entries ∨ entry = (start, id))
    (empty : stopOf arena (start, id) = start) (address : UInt64) :
    locatedIn arena more address =
      unlessHidden start address (locatedIn arena entries address) := by
  have asksFunction (starts : start ≤ address)
      (last : ∀ entry ∈ entries, entry.1 ≤ address → entry.1 < start) :
      locatedIn arena more address = none := by
    have nearest : nearest? address (·.isLE) .left more = some (start, id) := by
      rw [AddressIndex.nearest?_eq_some_iff moreAscending]
      refine ⟨(mem_more _).mpr (.inr rfl), starts, fun other inside below => ?_⟩
      rcases (mem_more other).mp inside with old | rfl
      · exact UInt64.le_of_lt (last other old below)
      · exact UInt64.le_refl _
    simp [locatedIn, nearest, empty, starts]
  cases nearest : nearest? address (·.isLE) .left entries with
  | none =>
    have above := AddressIndex.lt_of_nearest?_none nearest
    have nothing : locatedIn arena entries address = none := by simp [locatedIn, nearest]
    rw [nothing]
    by_cases starts : start ≤ address
    · exact asksFunction starts fun entry inside below =>
        absurd below (UInt64.not_le.mpr (above entry inside))
    · cases nearestMore : nearest? address (·.isLE) .left more with
      | none => simp [locatedIn, nearestMore, unlessHidden]
      | some other =>
        obtain ⟨inside, below, -⟩ := AddressIndex.nearest?_eq_some moreAscending nearestMore
        rcases (mem_more other).mp inside with old | rfl
        · exact absurd below (UInt64.not_le.mpr (above other old))
        · exact absurd below starts
  | some entry =>
    obtain ⟨inside, below, last⟩ := (AddressIndex.nearest?_eq_some_iff ascending).mp nearest
    by_cases hidden : entry.1 < start ∧ start ≤ address
    · rw [asksFunction hidden.2 fun other otherInside otherBelow =>
        UInt64.lt_of_le_of_lt (last other otherInside otherBelow) hidden.1]
      simp only [unlessHidden, locatedIn, nearest, Option.bind_some]
      split <;> simp [Option.filter, hidden]
    · have same : nearest? address (·.isLE) .left more = some entry := by
        rw [AddressIndex.nearest?_eq_some_iff moreAscending]
        refine ⟨(mem_more entry).mpr (.inl inside), below, fun other otherInside otherBelow => ?_⟩
        rcases (mem_more other).mp otherInside with old | rfl
        · exact last other old otherBelow
        · exact UInt64.not_lt.mp fun less => hidden ⟨less, otherBelow⟩
      have visible : (entry.1 < start && start ≤ address) = false := by simpa using hidden
      simp only [unlessHidden, locatedIn, nearest, same, Option.bind_some]
      split <;> simp [Option.filter, visible]

end Placing

/-- A shared function that is entered where no generated code starts hides, from its start
on, the generated code that starts below it, and changes no other lookup. -/
theorem lookups_addSharedFunction (operations : List Operation) (start : UInt64) (name : String)
    (fresh : ∀ id, (start, id) ∉ (run operations).dynamics.toList) (address : UInt64) :
    let before := run operations
    let after := (before.addCode start (.sharedFunction name)).2
    let seen := if before.isMarked address then id else unlessHidden start address
    after.lookup? address = seen (before.lookup? address) ∧
      (after.findAddress address).1 = seen (before.findAddress address).1 := by
  intro before after seen
  have indexed : Indexed before := indexed_run operations
  have afterIndexed : Indexed after := indexed.addCode start (.sharedFunction name)
  rw [afterIndexed.findAddress_eq_lookup?, indexed.findAddress_eq_lookup?, and_self]
  obtain ⟨dynamics, adds, valid, contents⟩ := indexed.exists_addSharedFunction name fresh
  have ascending := AddressIndex.ascending_of_valid indexed.dynamics
  have samePages : after.isMarked address = before.isMarked address := by
    rw [show after = _ from adds]
    rfl
  cases marked : before.isMarked address with
  | true =>
    rw [indexed.lookup?_marked marked, afterIndexed.lookup?_marked (samePages.trans marked),
      show after = _ from adds]
    simp only [seen, marked, if_true, id,
      locatedIn_push _ (AddressIndex.ascending_of_valid indexed.statics) indexed.staticsStored,
      locatedIn_push _ (AddressIndex.ascending_of_valid indexed.libraries)
        indexed.librariesStored]
  | false =>
    rw [indexed.lookup?_unmarked marked, afterIndexed.lookup?_unmarked (samePages.trans marked),
      show after = _ from adds]
    have empty : stopOf (before.arena.push (.sharedFunction name)) (start, ⟨before.arena.size⟩) =
        start := by
      rw [stopOf_push_self]
      exact rangeEnd_zero start
    rw [locatedIn_of_mem_iff ascending (AddressIndex.ascending_of_valid valid) contents empty,
      locatedIn_push _ ascending indexed.dynamicsStored]
    simp [seen, marked]

/-- Code of 0x100 bytes. -/
def lonePiece : List Operation :=
  [.addCode 0x1000 (.dynamic 0x100 "f" "JS")]

theorem not_mem_lonePiece {start : UInt64} (other : start ≠ 0x1000) (id : CodeId) :
    (start, id) ∉ (run lonePiece).dynamics.toList := by
  have listed : (run lonePiece).dynamics.toList = [(0x1000, ⟨0⟩)] := by decide +kernel
  simp [listed, other]

/-- A function that starts behind the code hides nothing of it. -/
theorem lookups_addSharedFunction_behind :
    (∀ id, (0x1100, id) ∉ (run lonePiece).dynamics.toList) ∧
      ((((run lonePiece).addCode 0x1100 (.sharedFunction "g")).2).lookup? 0x10c0 =
        some ⟨⟨0⟩, 0x1000, 0xc0⟩) := by
  have fresh : ∀ id, (0x1100, id) ∉ (run lonePiece).dynamics.toList :=
    not_mem_lonePiece (by decide)
  refine ⟨fresh, ?_⟩
  rw [(lookups_addSharedFunction lonePiece 0x1100 "g" fresh 0x10c0).1]
  decide +kernel

/-- A function that starts in the middle of the code hides the second half of it. -/
theorem lonePiece_hidden_by_sharedFunction :
    (∀ id, (0x1080, id) ∉ (run lonePiece).dynamics.toList) ∧
      (run lonePiece).lookup? 0x10c0 = some ⟨⟨0⟩, 0x1000, 0xc0⟩ ∧
      ((((run lonePiece).addCode 0x1080 (.sharedFunction "g")).2).lookup? 0x10c0 = none) ∧
      ((((run lonePiece).addCode 0x1080 (.sharedFunction "g")).2).findAddress 0x10c0).1 = none := by
  exact ⟨not_mem_lonePiece (by decide), by decide +kernel, by decide +kernel, by decide +kernel⟩

end JitTrace.CodeMap
