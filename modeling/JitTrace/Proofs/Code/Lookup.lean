import JitTrace.Proofs.Code.Relocation

/-!
# Lookups that rearrange

A lookup splays the indices that it asks, and may give the code that it finds the distinct
form of its name. In every code map that can be built, however its code overlaps, it
answers as the lookup that changes nothing, and changes nothing else that can be seen.
-/

namespace JitTrace.CodeMap

/-- The code maps that can be built: by operations, by storing entries that no address
leads to, and by changing stored entries in any way. -/
inductive Built : CodeMap → Prop
  | empty : Built .empty
  | perform {map : CodeMap} (operation : Operation) : Built map → Built (operation.perform map)
  | addDetached {map : CodeMap} (entry : CodeEntry) : Built map → Built (map.addDetached entry).2
  | modifyEntry {map : CodeMap} (id : CodeId) (change : CodeEntry → CodeEntry) :
    Built map → Built (map.modifyEntry id change)

variable {map : CodeMap}

theorem Built.indexed (built : Built map) : Indexed map := by
  induction built with
  | empty => exact indexed_empty
  | perform operation _ indexed => exact indexed.perform operation
  | addDetached entry _ indexed => exact indexed.addDetached entry
  | modifyEntry id change _ indexed => exact indexed.modifyEntry id change

theorem built_run (operations : List Operation) : Built (run operations) :=
  List.foldlRecOn operations Operation.perform .empty fun _ built operation _ =>
    built.perform operation

/-- The entry is generated code with a name, and the lookup of an address is the first one
to find it. -/
structure FirstFound (map : CodeMap) (address : UInt64) (id : CodeId) : Prop where
  unmarked : map.isMarked address = false
  found : ∃ start, map.lookup? address = some ⟨id, start, address - start⟩ ∧
    (start, id) ∈ map.dynamics.toList
  unnumbered : (map.entry id).numbered = false
  named : (map.entry id).name ≠ ""

/-- What an index locates is one of its entries. -/
theorem mem_of_locatedIn {arena : Array CodeEntry} {entries : List (UInt64 × CodeId)}
    (ascending : AddressIndex.Ascending entries) {address : UInt64} {located : Located}
    (found : locatedIn arena entries address = some located) :
    (located.start, located.id) ∈ entries ∧ located.offset = address - located.start := by
  obtain ⟨entry, nearest, holds⟩ := Option.bind_eq_some_iff.mp found
  split at holds
  · cases holds
    exact ⟨(AddressIndex.nearest?_eq_some ascending nearest).1, rfl⟩
  · contradiction

/-- Code that has been found before, or has no name, is found as it is. -/
theorem numberName_settled {id : CodeId}
    (settled : ¬((map.entry id).numbered = false ∧ (map.entry id).name ≠ "")) :
    map.numberName id = map := by
  rw [numberName, if_pos]
  simpa [Decidable.or_iff_not_imp_left] using settled

/-- Code that is found for the first time takes a name from the supply. -/
theorem names_numberName {id : CodeId} (unnumbered : (map.entry id).numbered = false)
    (named : (map.entry id).name ≠ "") :
    (map.numberName id).names = (map.names.next (map.entry id).name).2 := by
  rw [numberName, if_neg]
  simp [unnumbered, named]

theorem size_numberName (map : CodeMap) (id : CodeId) :
    (map.numberName id).arena.size = map.arena.size := by
  rcases numberName_cases map id with same | ⟨_, _, numbered⟩
  · rw [same]
  · rw [numbered]
    exact Array.size_modify

/-- The entries after the name of one of them has been numbered. -/
theorem entry_numberName {id : CodeId} (stored : id.index < map.arena.size) (other : CodeId) :
    (map.numberName id).entry other =
      if other = id ∧ (map.entry id).numbered = false ∧ (map.entry id).name ≠ "" then
        { map.entry id with
          name := (map.names.next (map.entry id).name).1
          numbered := true }
      else map.entry other := by
  by_cases fresh : (map.entry id).numbered = false ∧ (map.entry id).name ≠ ""
  · rw [numberName, if_neg (by simpa using fresh)]
    change (map.modifyEntry id _).entry other = _
    rw [entry_modifyEntry]
    simp only [stored, fresh, and_true, ne_eq, not_false_eq_true]
    rfl
  · rw [numberName_settled fresh, if_neg fun renamed => fresh renamed.2]

namespace Indexed

/-- What a lookup locates off the pages of the libraries is live generated code. -/
theorem live_of_lookup? (indexed : Indexed map) {address : UInt64}
    (unmarked : map.isMarked address = false) {located : Located}
    (found : map.lookup? address = some located) :
    (located.start, located.id) ∈ map.dynamics.toList ∧
      located.offset = address - located.start := by
  rw [indexed.lookup?_unmarked unmarked] at found
  exact mem_of_locatedIn (AddressIndex.ascending_of_valid indexed.dynamics) found

/-- A lookup is the first one to find the code that it locates, if that has a name and no
number. -/
theorem firstFound_iff (indexed : Indexed map) {address : UInt64}
    (unmarked : map.isMarked address = false) {located : Located}
    (found : map.lookup? address = some located) (id : CodeId) :
    FirstFound map address id ↔
      id = located.id ∧ (map.entry located.id).numbered = false ∧
        (map.entry located.id).name ≠ "" := by
  obtain ⟨live, offset⟩ := indexed.live_of_lookup? unmarked found
  obtain ⟨foundId, start, distance⟩ := located
  constructor
  · rintro ⟨-, ⟨other, same, -⟩, unnumbered, named⟩
    rw [found, Option.some.injEq, Located.mk.injEq] at same
    obtain ⟨rfl, -, -⟩ := same
    exact ⟨rfl, unnumbered, named⟩
  · rintro ⟨rfl, unnumbered, named⟩
    exact ⟨unmarked, ⟨start, offset ▸ found, live⟩, unnumbered, named⟩

end Indexed

/-- The indices of two maps hold the same, the pages lead to the same, and there are as many
entries. -/
structure SameIndices (before after : CodeMap) : Prop where
  dynamics : after.dynamics.toList = before.dynamics.toList
  statics : after.statics.toList = before.statics.toList
  libraries : after.libraries.toList = before.libraries.toList
  pages : after.pages = before.pages
  size : after.arena.size = before.arena.size

theorem SameIndices.of_alike {after : CodeMap} (alike : Alike map after) :
    SameIndices map after :=
  ⟨alike.dynamics.toList_eq, alike.statics.toList_eq, alike.libraries.toList_eq, alike.pages,
    congrArg Array.size alike.arena⟩

theorem SameIndices.numberName {before : CodeMap} (same : SameIndices before map) (id : CodeId) :
    SameIndices before (map.numberName id) := by
  rcases numberName_cases map id with unchanged | ⟨name, names, numbered⟩
  · rwa [unchanged]
  · rw [numbered]
    exact ⟨same.dynamics, same.statics, same.libraries, same.pages,
      Array.size_modify.trans same.size⟩

/-- A lookup answers as the one that changes nothing. It leaves the contents of the indices,
the pages and all entries alone, but for generated code that is found for the first
time and gets the distinct form of its name. -/
theorem findAddress_of_built (built : Built map) (address : UInt64) :
    (map.findAddress address).1 = map.lookup? address ∧
    SameIndices map (map.findAddress address).2 ∧
    (∀ id, FirstFound map address id → (map.findAddress address).2.entry id =
      { map.entry id with name := (map.names.next (map.entry id).name).1, numbered := true }) ∧
    ∀ id, ¬FirstFound map address id → (map.findAddress address).2.entry id = map.entry id := by
  have indexed := built.indexed
  obtain ⟨searched, alike, finds⟩ := indexed.exists_findAddress address
  have entries := alike.entry_eq
  rw [finds]
  cases marked : map.isMarked address with
  | true =>
    refine ⟨rfl, .of_alike alike, fun id first => ?_, fun id _ => congrFun entries id⟩
    exact absurd (marked.symm.trans first.unmarked) (by decide)
  | false =>
    cases found : map.lookup? address with
    | none =>
      refine ⟨rfl, .of_alike alike, fun id first => ?_, fun id _ => congrFun entries id⟩
      obtain ⟨start, located, -⟩ := first.found
      exact absurd (found.symm.trans located) (by simp)
    | some located =>
      have stored : located.id.index < searched.arena.size := by
        rw [alike.arena]
        exact indexed.dynamicsStored _ (indexed.live_of_lookup? marked found).1
      have renamed := entry_numberName stored
      rw [entries, alike.names] at renamed
      have first := indexed.firstFound_iff marked found
      refine ⟨rfl, (SameIndices.of_alike alike).numberName located.id, fun id isFirst => ?_,
        fun id notFirst => ?_⟩
      · obtain ⟨rfl, settled⟩ := (first id).mp isFirst
        exact (renamed located.id).trans (if_pos ⟨rfl, settled⟩)
      · exact (renamed id).trans (if_neg fun settled => notFirst ((first id).mpr settled))

theorem built_movedMap : Built movedMap :=
  .perform (.moveCode 0x1000 0x1010) (.perform (.addCode 0x1028 _) (.perform (.addCode 0x1000 _)
    .empty))

/-- The code that was moved keeps its name when it is found, and is known to have it. -/
theorem findAddress_movedMap :
    Built movedMap ∧ (movedMap.findAddress 0x1018).1 = some ⟨⟨0⟩, 0x1010, 0x8⟩ ∧
      FirstFound movedMap 0x1018 ⟨0⟩ ∧
      ((movedMap.findAddress 0x1018).2.entry ⟨0⟩).numbered = true := by
  have located : movedMap.lookup? 0x1018 = some ⟨⟨0⟩, 0x1010, 0x8⟩ := by decide +kernel
  have first : FirstFound movedMap 0x1018 ⟨0⟩ :=
    ⟨by decide +kernel, ⟨0x1010, located, by decide +kernel⟩, by decide +kernel, by decide +kernel⟩
  obtain ⟨answer, -, renamed, -⟩ := findAddress_of_built built_movedMap 0x1018
  refine ⟨built_movedMap, answer.trans located, first, ?_⟩
  rw [renamed _ first]

end JitTrace.CodeMap
