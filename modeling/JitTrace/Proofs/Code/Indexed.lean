import JitTrace.Proofs.Code.Eviction

/-!
# Code maps of any history

Code without range may be placed inside the range of other code, and then ranges need no
longer lie apart. What remains true of a code map after any operations is that its
indices are in order and lead to stored entries. That is enough to say what a lookup
answers: it asks for the entry that starts last at or below the address, and for no
other.
-/

namespace JitTrace

open SplayTree (Valid found? nearest?)

/-- The second index holds no entry that the first one does not hold. -/
structure AddressIndex.Fewer (before after : AddressIndex) : Prop where
  valid : Valid after
  subset : ∀ entry ∈ after.toList, entry ∈ before.toList

theorem AddressIndex.Fewer.of_same {before after : AddressIndex} (valid : Valid after)
    (same : after.toList = before.toList) : Fewer before after :=
  ⟨valid, fun _ inside => same ▸ inside⟩

namespace CodeMap

/-- An operation on a code map. -/
inductive Operation where
  | addLibrary (start : UInt64) (entry : CodeEntry)
  | addStaticCode (start : UInt64) (entry : CodeEntry)
  | addCode (start : UInt64) (entry : CodeEntry)
  | moveCode (source target : UInt64)
  | deleteCode (start : UInt64)
  | retainDynamic {State : Type} (keep : State → UInt64 → CodeId → CodeEntry → Bool × State)
    (state : State)
  | findAddress (address : UInt64)
  | dynamicAt (start : UInt64)

/-- The code map after an operation. -/
def Operation.perform (map : CodeMap) : Operation → CodeMap
  | .addLibrary start entry => (map.addLibrary start entry).2
  | .addStaticCode start entry => (map.addStaticCode start entry).2
  | .addCode start entry => (map.addCode start entry).2
  | .moveCode source target => (map.moveCode source target).2
  | .deleteCode start => (map.deleteCode start).2
  | .retainDynamic keep state => (map.retainDynamicWith keep state).2.2
  | .findAddress address => (map.findAddress address).2
  | .dynamicAt start => (map.dynamicAt start).2

/-- The code map after operations in a row. -/
def run (operations : List Operation) : CodeMap :=
  operations.foldl Operation.perform .empty

/-- What is true of every code map, whatever has been placed where. -/
structure Indexed (map : CodeMap) : Prop where
  dynamics : Valid map.dynamics
  statics : Valid map.statics
  libraries : Valid map.libraries
  dynamicsStored : ∀ entry ∈ map.dynamics.toList, entry.2.index < map.arena.size
  staticsStored : ∀ entry ∈ map.statics.toList, entry.2.index < map.arena.size
  librariesStored : ∀ entry ∈ map.libraries.toList, entry.2.index < map.arena.size

theorem indexed_empty : Indexed .empty where
  dynamics := SplayTree.valid_empty
  statics := SplayTree.valid_empty
  libraries := SplayTree.valid_empty
  dynamicsStored _ inside := absurd inside List.not_mem_nil
  staticsStored _ inside := absurd inside List.not_mem_nil
  librariesStored _ inside := absurd inside List.not_mem_nil

variable {map : CodeMap}

/-! ## Entries and indices -/

/-- Storing another entry changes no range. -/
theorem stopOf_push {arena : Array CodeEntry} (new : CodeEntry) {entry : UInt64 × CodeId}
    (stored : entry.2.index < arena.size) : stopOf (arena.push new) entry = stopOf arena entry := by
  have same : (arena.push new).getD entry.2.index default = arena.getD entry.2.index default := by
    simp [Array.getD_eq_getD_getElem?, Array.getElem?_push, Nat.ne_of_lt stored]
  rw [stopOf, same, stopOf]

/-- The range of an entry that has just been stored. -/
theorem stopOf_push_self (arena : Array CodeEntry) (new : CodeEntry) (start : UInt64) :
    stopOf (arena.push new) (start, ⟨arena.size⟩) = rangeEnd start new.size := by
  simp [stopOf, Array.getD_eq_getD_getElem?]

/-- The entries after one of them has been changed. -/
theorem entry_modifyEntry (map : CodeMap) (id : CodeId) (change : CodeEntry → CodeEntry)
    (other : CodeId) :
    (map.modifyEntry id change).entry other =
      if other = id ∧ id.index < map.arena.size then change (map.entry id)
      else map.entry other := by
  obtain ⟨index⟩ := id
  obtain ⟨reader⟩ := other
  simp only [CodeMap.entry, modifyEntry, Array.getD_eq_getD_getElem?, Array.getElem?_modify,
    CodeId.mk.injEq]
  by_cases same : index = reader
  · subst same
    by_cases inside : index < map.arena.size <;> simp [inside]
  · simp [same, Ne.symm same]

/-- Numbering a name changes at most one entry and the supply of names. -/
theorem numberName_cases (map : CodeMap) (id : CodeId) :
    map.numberName id = map ∨ ∃ name names, map.numberName id =
      { map.modifyEntry id fun entry => { entry with name, numbered := true } with names } := by
  simp only [numberName]
  split
  · exact .inl rfl
  · exact .inr ⟨_, _, rfl⟩

/-- Numbering a name changes no range. -/
theorem stopOf_numberName (map : CodeMap) (id : CodeId) (entry : UInt64 × CodeId) :
    stopOf (map.numberName id).arena entry = stopOf map.arena entry := by
  rcases numberName_cases map id with same | ⟨name, names, numbered⟩
  · rw [same]
  · have sizes : ((map.numberName id).entry entry.2).size = (map.entry entry.2).size := by
      rw [numbered]
      change ((map.modifyEntry id _).entry entry.2).size = _
      rw [entry_modifyEntry]
      split
      · simp [*]
      · rfl
    exact congrArg (rangeEnd entry.1) sizes

/-- What a lookup in an index makes of the entry nearest to the address. -/
def locatedIn (arena : Array CodeEntry) (entries : List (UInt64 × CodeId)) (address : UInt64) :
    Option Located :=
  (nearest? address (·.isLE) .left entries).bind fun entry =>
    if entry.1 ≤ address ∧ address < stopOf arena entry then
      some ⟨entry.2, entry.1, address - entry.1⟩
    else none

/-- A lookup in an index depends on its entries alone and leaves them. -/
theorem exists_findIn (arena : Array CodeEntry) {index : AddressIndex} (valid : Valid index)
    (address : UInt64) :
    ∃ after, findIn arena index address = (locatedIn arena index.toList address, after) ∧
      Valid after ∧ after.toList = index.toList := by
  obtain ⟨handle?, after, finds, afterValid, same, found⟩ :=
    valid.exists_nearest address (·.isLE) .left rfl rfl
  change index.greatestAtMost address = _ at finds
  refine ⟨after, ?_, afterValid, same⟩
  have located : handle?.bind (locate? arena after address) =
      (handle?.bind after.pair?).bind fun entry =>
        if entry.1 ≤ address ∧ address < stopOf arena entry then
          some ⟨entry.2, entry.1, address - entry.1⟩
        else none := by
    rw [Option.bind_assoc]
    congr 1
    funext handle
    cases pair : after.pair? handle <;> simp [locate?, pair, stopOf]
  simp only [findIn, finds, located, found, locatedIn]

/-- A lookup that leaves an index alone locates the same. -/
theorem peekIn?_eq (arena : Array CodeEntry) {index : AddressIndex} (valid : Valid index)
    (address : UInt64) : peekIn? arena index address = locatedIn arena index.toList address := by
  rw [peekIn?, locatedIn, ← valid.peekAtMost?_eq, Option.bind_assoc]
  congr 1
  funext handle
  cases pair : index.pair? handle <;> simp [locate?, pair, stopOf]

/-! ## Operations -/

/-- An index after an entry that has just been stored has been inserted. -/
theorem valid_insert_pushed {arena : Array CodeEntry} {index : AddressIndex} (valid : Valid index)
    (stored : ∀ entry ∈ index.toList, entry.2.index < arena.size) (start : UInt64)
    (new : CodeEntry) :
    Valid (index.insert start ⟨arena.size⟩).2 ∧
      ∀ entry ∈ (index.insert start ⟨arena.size⟩).2.toList,
        entry.2.index < (arena.push new).size := by
  obtain ⟨after, inserts, afterValid, contents⟩ := valid.exists_insert start ⟨arena.size⟩
  rw [inserts, Array.size_push]
  refine ⟨afterValid, fun entry inside => ?_⟩
  rw [contents] at inside
  rcases AddressIndex.of_mem_inserted inside with old | rfl
  · exact Nat.lt_succ_of_lt (stored entry old)
  · exact Nat.lt_succ_self _

/-- The second map leads to no code to which the first one does not lead, and all code
keeps its range. -/
structure Trimmed (before after : CodeMap) : Prop where
  dynamics : AddressIndex.Fewer before.dynamics after.dynamics
  statics : AddressIndex.Fewer before.statics after.statics
  libraries : AddressIndex.Fewer before.libraries after.libraries
  size : after.arena.size = before.arena.size
  stops : ∀ entry, stopOf after.arena entry = stopOf before.arena entry

/-- Numbering a name leaves the indices alone. -/
theorem Trimmed.numberName {before : CodeMap} (trimmed : Trimmed before map) (id : CodeId) :
    Trimmed before (map.numberName id) := by
  have ranges := stopOf_numberName map id
  rcases numberName_cases map id with same | ⟨name, names, numbered⟩
  · rwa [same]
  · rw [numbered] at ranges ⊢
    exact ⟨trimmed.dynamics, trimmed.statics, trimmed.libraries,
      Array.size_modify.trans trimmed.size, fun entry => (ranges entry).trans (trimmed.stops entry)⟩

namespace Indexed

theorem trim (indexed : Indexed map) {after : CodeMap} (trimmed : Trimmed map after) :
    Indexed after where
  dynamics := trimmed.dynamics.valid
  statics := trimmed.statics.valid
  libraries := trimmed.libraries.valid
  dynamicsStored entry inside :=
    trimmed.size ▸ indexed.dynamicsStored entry (trimmed.dynamics.subset entry inside)
  staticsStored entry inside :=
    trimmed.size ▸ indexed.staticsStored entry (trimmed.statics.subset entry inside)
  librariesStored entry inside :=
    trimmed.size ▸ indexed.librariesStored entry (trimmed.libraries.subset entry inside)

/-- Dropping generated code. -/
theorem trimmed_drop (indexed : Indexed map) {dynamics : AddressIndex}
    (fewer : AddressIndex.Fewer map.dynamics dynamics) : Trimmed map { map with dynamics } :=
  ⟨fewer, .of_same indexed.statics rfl, .of_same indexed.libraries rfl, rfl, fun _ => rfl⟩

theorem trimmed_deleteCode (indexed : Indexed map) (start : UInt64) :
    Trimmed map (map.deleteCode start).2 := by
  obtain ⟨after, removes, valid, contents⟩ := indexed.dynamics.exists_remove start
  have dropped := indexed.trimmed_drop ⟨valid, fun entry inside => by
    rw [contents, AddressIndex.mem_removed] at inside
    exact inside.1⟩
  simpa [CodeMap.deleteCode, removes] using dropped

theorem trimmed_retainDynamicWith {State : Type} (indexed : Indexed map)
    (keep : State → UInt64 → CodeId → CodeEntry → Bool × State) (state : State) :
    Trimmed map (map.retainDynamicWith keep state).2.2 := by
  obtain ⟨after, retains, valid, contents⟩ := indexed.dynamics.exists_retainWith
    (fun state start id => ((keep state start id (map.entry id)).1, id,
      (keep state start id (map.entry id)).2)) state
  have dropped := indexed.trimmed_drop ⟨valid, fun entry inside => by
    rw [contents] at inside
    exact (SplayTree.retained_sublist _ (fun _ _ _ => rfl) state _).subset inside⟩
  simpa [CodeMap.retainDynamicWith, retains] using dropped

theorem trimmed_dynamicAt (indexed : Indexed map) (start : UInt64) :
    Trimmed map (map.dynamicAt start).2 := by
  obtain ⟨after, gets, valid, same⟩ := indexed.dynamics.exists_get start
  have kept := indexed.trimmed_drop (.of_same valid same)
  simpa [CodeMap.dynamicAt, gets] using kept

/-- A lookup rearranges indices and numbers a name at most. -/
theorem trimmed_findAddress (indexed : Indexed map) (address : UInt64) :
    Trimmed map (map.findAddress address).2 := by
  obtain ⟨statics, findsStatics, staticsValid, staticsSame⟩ :=
    exists_findIn map.arena indexed.statics address
  obtain ⟨libraries, findsLibraries, librariesValid, librariesSame⟩ :=
    exists_findIn map.arena indexed.libraries address
  obtain ⟨dynamics, findsDynamics, dynamicsValid, dynamicsSame⟩ :=
    exists_findIn map.arena indexed.dynamics address
  have searched := indexed.trimmed_drop (.of_same dynamicsValid dynamicsSame)
  unfold CodeMap.findAddress
  split
  · rw [findsStatics, findsLibraries]
    cases locatedIn map.arena map.statics.toList address with
    | some located =>
      exact ⟨.of_same indexed.dynamics rfl, .of_same staticsValid staticsSame,
        .of_same indexed.libraries rfl, rfl, fun _ => rfl⟩
    | none =>
      exact ⟨.of_same indexed.dynamics rfl, .of_same staticsValid staticsSame,
        .of_same librariesValid librariesSame, rfl, fun _ => rfl⟩
  · split
    · exact indexed.trimmed_drop (.of_same indexed.dynamics rfl)
    · rw [findsDynamics]
      cases locatedIn map.arena map.dynamics.toList address with
      | none => exact searched
      | some located => exact searched.numberName located.id

/-- Storing an entry that no address leads to. -/
theorem addDetached (indexed : Indexed map) (entry : CodeEntry) :
    Indexed { map with arena := map.arena.push entry } := by
  have more : ∀ index, index < map.arena.size → index < (map.arena.push entry).size := by
    intro index inside
    rw [Array.size_push]
    exact Nat.lt_succ_of_lt inside
  exact ⟨indexed.dynamics, indexed.statics, indexed.libraries,
    fun other inside => more _ (indexed.dynamicsStored other inside),
    fun other inside => more _ (indexed.staticsStored other inside),
    fun other inside => more _ (indexed.librariesStored other inside)⟩

/-- Placing stored code anywhere. -/
theorem placeCode (indexed : Indexed map) (start size : UInt64) {id : CodeId}
    (stored : id.index < map.arena.size) : Indexed (map.placeCode start size id) := by
  obtain ⟨placed, places, valid, origin, -⟩ := exists_placeCode start size id indexed.dynamics
  rw [places]
  refine ⟨valid, indexed.statics, indexed.libraries, fun entry inside => ?_,
    indexed.staticsStored, indexed.librariesStored⟩
  rcases origin entry inside with rfl | old
  · exact stored
  · exact indexed.dynamicsStored entry old

theorem addCode (indexed : Indexed map) (start : UInt64) (entry : CodeEntry) :
    Indexed (map.addCode start entry).2 :=
  (indexed.addDetached entry).placeCode start entry.size (by simp)

theorem addLibrary (indexed : Indexed map) (start : UInt64) (entry : CodeEntry) :
    Indexed (map.addLibrary start entry).2 :=
  have detached := indexed.addDetached entry
  have added := valid_insert_pushed indexed.libraries indexed.librariesStored start entry
  ⟨detached.dynamics, detached.statics, added.1, detached.dynamicsStored, detached.staticsStored,
    added.2⟩

theorem addStaticCode (indexed : Indexed map) (start : UInt64) (entry : CodeEntry) :
    Indexed (map.addStaticCode start entry).2 :=
  have detached := indexed.addDetached entry
  have added := valid_insert_pushed indexed.statics indexed.staticsStored start entry
  ⟨detached.dynamics, added.1, detached.libraries, detached.dynamicsStored, added.2,
    detached.librariesStored⟩

/-- Moving code takes it away from where it starts, and places it where it is to start. Where
none starts, there is nothing to be moved. -/
theorem moveCode_cases (indexed : Indexed map) (source target : UInt64) :
    ∃ dynamics, AddressIndex.Fewer map.dynamics dynamics ∧
      (∀ entry, entry ∈ dynamics.toList ↔ entry ∈ map.dynamics.toList ∧ entry.1 ≠ source) ∧
      ((∀ id, (source, id) ∉ map.dynamics.toList) ∧ dynamics.toList = map.dynamics.toList ∧
          map.moveCode source target = (.error (.codeNotFound source), { map with dynamics }) ∨
        ∃ id, (source, id) ∈ map.dynamics.toList ∧ map.moveCode source target =
          (.ok (), ({ map with dynamics } : CodeMap).placeCode target (map.entry id).size id)) := by
  obtain ⟨dynamics, removes, valid, contents⟩ := indexed.dynamics.exists_remove source
  have remaining : ∀ entry, entry ∈ dynamics.toList ↔
      entry ∈ map.dynamics.toList ∧ entry.1 ≠ source := by
    intro entry
    rw [contents, AddressIndex.mem_removed]
  refine ⟨dynamics, ⟨valid, fun entry inside => ((remaining entry).mp inside).1⟩, remaining, ?_⟩
  have ascending := AddressIndex.ascending_of_valid indexed.dynamics
  cases found : found? source map.dynamics.toList with
  | none =>
    have vacant : ∀ id, (source, id) ∉ map.dynamics.toList := fun id live => by
      simp [(AddressIndex.found?_eq_some ascending).mpr ⟨live, rfl⟩] at found
    refine .inl ⟨vacant, ?_, by simp only [CodeMap.moveCode, removes, found]⟩
    rw [contents, SplayTree.removed, List.filter_eq_self]
    intro entry inside
    rw [bne_iff_ne, ne_eq, Std.compare_eq_iff_eq]
    rintro rfl
    exact vacant entry.2 inside
  | some entry =>
    obtain ⟨start, id⟩ := entry
    obtain ⟨inside, rfl⟩ := (AddressIndex.found?_eq_some ascending).mp found
    refine .inr ⟨id, inside, ?_⟩
    simp only [CodeMap.moveCode, removes, found]
    rfl

/-- Adding generated code stores it and changes no index but its own. -/
theorem exists_dynamics_addCode (indexed : Indexed map) (start : UInt64) (entry : CodeEntry) :
    ∃ dynamics, (map.addCode start entry).2 =
      { map with arena := map.arena.push entry, dynamics } := by
  obtain ⟨dynamics, places, -⟩ :=
    exists_placeCode start entry.size ⟨map.arena.size⟩ (indexed.addDetached entry).dynamics
  exact ⟨dynamics, places⟩

/-- Moving generated code changes nothing but its index. -/
theorem exists_dynamics_moveCode (indexed : Indexed map) (source target : UInt64) :
    ∃ dynamics, (map.moveCode source target).2 = { map with dynamics } := by
  obtain ⟨taken, fewer, -, ⟨-, -, moved⟩ | ⟨id, -, moved⟩⟩ := indexed.moveCode_cases source target
  · exact ⟨taken, by rw [moved]⟩
  · obtain ⟨placed, places, -⟩ := exists_placeCode target (map.entry id).size id
      (indexed.trim (indexed.trimmed_drop fewer)).dynamics
    exact ⟨placed, by rw [moved, places]⟩

theorem moveCode (indexed : Indexed map) (source target : UInt64) :
    Indexed (map.moveCode source target).2 := by
  obtain ⟨dynamics, fewer, -, ⟨-, -, moved⟩ | ⟨id, inside, moved⟩⟩ :=
    indexed.moveCode_cases source target
  · rw [moved]
    exact indexed.trim (indexed.trimmed_drop fewer)
  · rw [moved]
    exact (indexed.trim (indexed.trimmed_drop fewer)).placeCode target _
      (indexed.dynamicsStored _ inside)

/-- Code that is there can be moved. -/
theorem moveCode_answer (indexed : Indexed map) {source : UInt64} {id : CodeId}
    (live : (source, id) ∈ map.dynamics.toList) (target : UInt64) :
    (map.moveCode source target).1 = .ok () := by
  obtain ⟨dynamics, -, -, ⟨vacant, -⟩ | ⟨_, -, moved⟩⟩ := indexed.moveCode_cases source target
  · exact absurd live (vacant id)
  · rw [moved]

theorem perform (indexed : Indexed map) (operation : Operation) :
    Indexed (operation.perform map) := by
  cases operation with
  | addLibrary start entry => exact indexed.addLibrary start entry
  | addStaticCode start entry => exact indexed.addStaticCode start entry
  | addCode start entry => exact indexed.addCode start entry
  | moveCode source target => exact indexed.moveCode source target
  | deleteCode start => exact indexed.trim (indexed.trimmed_deleteCode start)
  | retainDynamic keep state => exact indexed.trim (indexed.trimmed_retainDynamicWith keep state)
  | findAddress address => exact indexed.trim (indexed.trimmed_findAddress address)
  | dynamicAt start => exact indexed.trim (indexed.trimmed_dynamicAt start)

end Indexed

/-- Whatever operations have built it, a code map is indexed. -/
theorem indexed_run (operations : List Operation) : Indexed (run operations) :=
  List.foldlRecOn operations Operation.perform indexed_empty fun _ indexed operation _ =>
    indexed.perform operation

/-! ## Lookups -/

/-- Code that holds an address lies between the first start and the last end: it is the
last entry itself, or the last entry starts behind the address. -/
theorem inDynamicRange_of_locatedIn (valid : Valid map.dynamics) {address : UInt64}
    {located : Located}
    (found : locatedIn map.arena map.dynamics.toList address = some located) :
    map.inDynamicRange address = true := by
  have ascending := AddressIndex.ascending_of_valid valid
  obtain ⟨entry, nearest, holds⟩ := Option.bind_eq_some_iff.mp found
  obtain ⟨inside, starts, last⟩ := (AddressIndex.nearest?_eq_some_iff ascending).mp nearest
  have ends : address < stopOf map.arena entry := by
    split at holds
    · rename_i within
      exact within.2
    · contradiction
  have nonempty := List.ne_nil_of_mem inside
  obtain ⟨first, rest, shape⟩ := List.exists_cons_of_ne_nil nonempty
  obtain ⟨before, highest, ending⟩ := (List.eq_nil_or_concat' _).resolve_left nonempty
  have lowest : first.1 ≤ entry.1 := by
    rw [shape] at ascending inside
    rcases List.mem_cons.mp inside with rfl | later
    · exact UInt64.le_refl _
    · exact UInt64.le_of_lt ((List.pairwise_cons.mp ascending).1 entry later)
  have highestInside : highest ∈ map.dynamics.toList := by simp [ending]
  have notBefore : entry.1 ≤ highest.1 := by
    rw [ending] at ascending inside
    rcases List.mem_append.mp inside with earlier | isLast
    · have across := (List.pairwise_append.mp ascending).2.2
      exact UInt64.le_of_lt (across entry earlier highest (List.mem_singleton_self highest))
    · rw [List.mem_singleton.mp isLast]
      exact UInt64.le_refl _
  have below : address < stopOf map.arena highest := by
    by_cases reached : highest.1 ≤ address
    · have same := ascending.eq_of_start highestInside inside
        (UInt64.le_antisymm (last highest highestInside reached) notBefore)
      exact same ▸ ends
    · exact UInt64.lt_of_lt_of_le (UInt64.not_le.mp reached) (le_rangeEnd ..)
  have minimum : map.dynamics.minimum? = some first := by
    rw [valid.minimum?_eq, shape, List.head?_cons]
  have maximum : map.dynamics.maximum? = some highest := by
    rw [valid.maximum?_eq, ending, List.getLast?_concat]
  obtain ⟨highestStart, id⟩ := highest
  simp only [inDynamicRange, minimum, maximum, Bool.and_eq_true, decide_eq_true_eq]
  exact ⟨UInt64.le_trans lowest starts, below⟩

namespace Indexed

/-- A lookup that changes nothing asks the live code for an address on no page of a
library. -/
theorem lookup?_unmarked (indexed : Indexed map) {address : UInt64}
    (unmarked : map.isMarked address = false) :
    map.lookup? address = locatedIn map.arena map.dynamics.toList address := by
  rw [lookup?, unmarked, peekIn?_eq map.arena indexed.dynamics]
  by_cases within : map.inDynamicRange address
  · simp [within]
  · cases located : locatedIn map.arena map.dynamics.toList address with
    | none => simp [within]
    | some found => exact absurd (inDynamicRange_of_locatedIn indexed.dynamics located) within

/-- On a page of a library, the symbols come before the libraries. -/
theorem lookup?_marked (indexed : Indexed map) {address : UInt64}
    (marked : map.isMarked address = true) :
    map.lookup? address = (locatedIn map.arena map.statics.toList address).or
      (locatedIn map.arena map.libraries.toList address) := by
  rw [lookup?, marked, if_pos rfl, peekIn?_eq map.arena indexed.statics,
    peekIn?_eq map.arena indexed.libraries]

/-- The lookup that rearranges the indices answers as the one that does not. -/
theorem findAddress_eq_lookup? (indexed : Indexed map) (address : UInt64) :
    (map.findAddress address).1 = map.lookup? address := by
  obtain ⟨statics, findsStatics, -⟩ := exists_findIn map.arena indexed.statics address
  obtain ⟨libraries, findsLibraries, -⟩ := exists_findIn map.arena indexed.libraries address
  obtain ⟨dynamics, findsDynamics, -⟩ := exists_findIn map.arena indexed.dynamics address
  cases marked : map.isMarked address with
  | true =>
    rw [indexed.lookup?_marked marked, CodeMap.findAddress, marked, if_pos rfl, findsStatics,
      findsLibraries]
    cases locatedIn map.arena map.statics.toList address <;> rfl
  | false =>
    rw [lookup?, CodeMap.findAddress, marked, findsDynamics,
      peekIn?_eq map.arena indexed.dynamics]
    cases map.inDynamicRange address
    · rfl
    · cases locatedIn map.arena map.dynamics.toList address <;> rfl

/-- Asking for the code that starts at an address. -/
theorem exists_dynamicAt (indexed : Indexed map) (start : UInt64) :
    ∃ dynamics, map.dynamicAt start =
        ((found? start map.dynamics.toList).map (·.2), { map with dynamics }) ∧
      Indexed { map with dynamics } ∧ dynamics.toList = map.dynamics.toList := by
  obtain ⟨dynamics, gets, valid, same⟩ := indexed.dynamics.exists_get start
  refine ⟨dynamics, by simp [CodeMap.dynamicAt, gets], ?_, same⟩
  exact indexed.trim (indexed.trimmed_drop (.of_same valid same))

/-- The code found at an address is the entry of the index there. -/
theorem found?_eq_some (indexed : Indexed map) {start : UInt64} {id : CodeId} :
    (found? start map.dynamics.toList).map (·.2) = some id ↔
      (start, id) ∈ map.dynamics.toList := by
  rw [Option.map_eq_some_iff]
  constructor
  · rintro ⟨⟨_, _⟩, found, rfl⟩
    obtain ⟨inside, rfl⟩ := (AddressIndex.found?_eq_some
      (AddressIndex.ascending_of_valid indexed.dynamics)).mp found
    exact inside
  · intro inside
    exact ⟨(start, id), (AddressIndex.found?_eq_some
      (AddressIndex.ascending_of_valid indexed.dynamics)).mpr ⟨inside, rfl⟩, rfl⟩

end Indexed

end CodeMap

end JitTrace
