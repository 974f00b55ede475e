import JitTrace.Proofs.Code.Growth
import JitTrace.Proofs.Code.Likeness
import JitTrace.Proofs.Code.SharedFunctions
import JitTrace.Proofs.Profile.TickAgreement
import Mathlib.Logic.Equiv.Basic

/-!
# Relocated functions

A function that is moved hides no code, neither where it was nor where it comes to, as
long as both places lie outside the ranges of other code. Lookups by address then answer as
before. Questions for what starts at an address answer as before when the two addresses of
the function are exchanged in them.
-/

namespace JitTrace.CodeMap

open SplayTree (Valid found? removed)

variable {map left right first second : CodeMap} {source target : UInt64}

/-- Maps that hold the same code lead to the same code. -/
theorem Trimmed.of_alike (alike : Alike left right) : Trimmed left right where
  dynamics := .of_same alike.dynamics.right_valid alike.dynamics.toList_eq
  statics := .of_same alike.statics.right_valid alike.statics.toList_eq
  libraries := .of_same alike.libraries.right_valid alike.libraries.toList_eq
  size := congrArg Array.size alike.arena
  stops _ := by rw [alike.arena]

/-! ## Lookups -/

/-- A lookup numbers the name of the generated code that it finds, and does nothing else. -/
theorem Indexed.exists_findAddress (indexed : Indexed map) (address : UInt64) :
    ∃ searched, Alike map searched ∧ map.findAddress address =
      (map.lookup? address,
        if map.isMarked address then searched
        else (map.lookup? address).elim searched fun located =>
          searched.numberName located.id) := by
  obtain ⟨statics, findsStatics, staticsValid, staticsSame⟩ :=
    exists_findIn map.arena indexed.statics address
  obtain ⟨libraries, findsLibraries, librariesValid, librariesSame⟩ :=
    exists_findIn map.arena indexed.libraries address
  obtain ⟨dynamics, findsDynamics, dynamicsValid, dynamicsSame⟩ :=
    exists_findIn map.arena indexed.dynamics address
  have itself := indexed.alike_self
  have symbols := itself.withStatics ⟨indexed.statics, staticsValid, staticsSame⟩
  cases marked : map.isMarked address with
  | true =>
    rw [indexed.lookup?_marked marked, CodeMap.findAddress, marked, if_pos rfl, findsStatics,
      findsLibraries]
    cases locatedIn map.arena map.statics.toList address with
    | some located => exact ⟨_, symbols, rfl⟩
    | none =>
      exact ⟨_, symbols.withLibraries ⟨indexed.libraries, librariesValid, librariesSame⟩, rfl⟩
  | false =>
    rw [indexed.lookup?_unmarked marked, CodeMap.findAddress, marked, findsDynamics]
    cases within : map.inDynamicRange address with
    | false =>
      have nothing : locatedIn map.arena map.dynamics.toList address = none := by
        cases located : locatedIn map.arena map.dynamics.toList address with
        | none => rfl
        | some found =>
          rw [inDynamicRange_of_locatedIn indexed.dynamics located] at within
          contradiction
      exact ⟨map, itself, by simp [nothing]⟩
    | true =>
      refine ⟨_, itself.withDynamics ⟨indexed.dynamics, dynamicsValid, dynamicsSame⟩, ?_⟩
      cases locatedIn map.arena map.dynamics.toList address <;> rfl

/-- What an index locates depends on the ranges of the entries alone. -/
theorem locatedIn_congr {arena other : Array CodeEntry}
    (same : ∀ entry, stopOf other entry = stopOf arena entry) (entries : List (UInt64 × CodeId))
    (address : UInt64) : locatedIn other entries address = locatedIn arena entries address := by
  simp only [locatedIn, same]

/-- An entry without range hides nothing where it lies in no other range. -/
theorem unlessHidden_locatedIn {arena : Array CodeEntry} {entries : List (UInt64 × CodeId)}
    (ascending : AddressIndex.Ascending entries) {start : UInt64}
    (clear : Clear arena entries start) (address : UInt64) :
    unlessHidden start address (locatedIn arena entries address) =
      locatedIn arena entries address := by
  cases located : locatedIn arena entries address with
  | none => rfl
  | some found =>
    obtain ⟨entry, nearest, holds⟩ := Option.bind_eq_some_iff.mp located
    have inside := (AddressIndex.nearest?_eq_some ascending nearest).1
    split at holds
    · rename_i within
      cases holds
      have visible : (entry.1 < start && start ≤ address) = false := by
        rw [Bool.and_eq_false_iff, decide_eq_false_iff_not, decide_eq_false_iff_not]
        by_contra hidden
        rw [not_or, not_not, not_not] at hidden
        exact clear entry inside ⟨hidden.1, UInt64.lt_of_le_of_lt hidden.2 within.2⟩
      simp [unlessHidden, Option.filter, visible]
    · contradiction

/-! ## Moving a function -/

/-- A function is moved without evicting anything. -/
theorem Indexed.exists_moveSharedFunction (indexed : Indexed map) {function : CodeId}
    (live : (source, function) ∈ map.dynamics.toList) (empty : (map.entry function).size = 0)
    (free : ∀ id, (target, id) ∉ map.dynamics.toList) :
    ∃ dynamics, map.moveCode source target = (.ok (), { map with dynamics }) ∧ Valid dynamics ∧
      ∀ entry, entry ∈ dynamics.toList ↔
        entry ∈ removed source map.dynamics.toList ∨ entry = (target, function) := by
  have ascending := AddressIndex.ascending_of_valid indexed.dynamics
  obtain ⟨taken, takes, takenValid, takenIs⟩ := indexed.dynamics.exists_remove source
  obtain ⟨cleared, removes, clearedValid, clearedIs⟩ := takenValid.exists_remove target
  obtain ⟨placed, inserts, placedValid, placedIs⟩ := clearedValid.exists_insert target function
  have found : found? source map.dynamics.toList = some (source, function) :=
    (AddressIndex.found?_eq_some ascending).mpr ⟨live, rfl⟩
  have nothingThere : ∀ entry, entry ∈ cleared.toList ↔
      entry ∈ removed source map.dynamics.toList := by
    intro entry
    rw [clearedIs, AddressIndex.mem_removed, takenIs, and_iff_left_iff_imp]
    rintro inside rfl
    exact free entry.2 (AddressIndex.mem_removed.mp inside).1
  refine ⟨placed, ?_, placedValid, fun entry => ?_⟩
  · have size : (({ map with dynamics := taken } : CodeMap).entry function).size = 0 := empty
    simp [CodeMap.moveCode, takes, found, CodeMap.placeCode, evictCovered, size, rangeEnd_zero,
      removes, inserts]
  · rw [placedIs, AddressIndex.mem_inserted, nothingThere]
    rintro other inside rfl
    exact free other.2 (AddressIndex.mem_removed.mp ((nothingThere other).mp inside)).1

/-- The second map has the code of the first one, but for what starts at `source` and at
`target`, which are exchanged both in the index and in the inlining tables. No lookup of an
address sees a difference. -/
structure Relocated (source target : UInt64) (left right : CodeMap) : Prop where
  left_indexed : Indexed left
  right_indexed : Indexed right
  size : right.arena.size = left.arena.size
  entry : ∀ id, right.entry id = (left.entry id).readdressed (Equiv.swap source target)
  names : right.names = left.names
  pages : right.pages = left.pages
  statics : right.statics.toList = left.statics.toList
  libraries : right.libraries.toList = left.libraries.toList
  found : ∀ address id, (Equiv.swap source target address, id) ∈ right.dynamics.toList ↔
    (address, id) ∈ left.dynamics.toList
  located : ∀ address, locatedIn left.arena right.dynamics.toList address =
    locatedIn left.arena left.dynamics.toList address

namespace Relocated

theorem stopOf_eq (relocated : Relocated source target left right) (entry : UInt64 × CodeId) :
    stopOf right.arena entry = stopOf left.arena entry := by
  have sizes : (right.entry entry.2).size = (left.entry entry.2).size := by
    rw [relocated.entry]
    rfl
  exact congrArg (rangeEnd entry.1) sizes

theorem isMarked_eq (relocated : Relocated source target left right) :
    right.isMarked = left.isMarked := by
  funext address
  simp only [CodeMap.isMarked, relocated.pages]

theorem lookup?_eq (relocated : Relocated source target left right) :
    right.lookup? = left.lookup? := by
  funext address
  cases marked : left.isMarked address with
  | true =>
    rw [relocated.left_indexed.lookup?_marked marked,
      relocated.right_indexed.lookup?_marked (by rw [relocated.isMarked_eq, marked]),
      relocated.statics, relocated.libraries, locatedIn_congr relocated.stopOf_eq,
      locatedIn_congr relocated.stopOf_eq]
  | false =>
    rw [relocated.left_indexed.lookup?_unmarked marked,
      relocated.right_indexed.lookup?_unmarked (by rw [relocated.isMarked_eq, marked]),
      locatedIn_congr relocated.stopOf_eq, relocated.located]

/-- Rearranged indices make no difference. -/
theorem rearranged (relocated : Relocated source target left right) (onLeft : Alike left first)
    (onRight : Alike right second) : Relocated source target first second where
  left_indexed := relocated.left_indexed.trim (.of_alike onLeft)
  right_indexed := relocated.right_indexed.trim (.of_alike onRight)
  size := by rw [onLeft.arena, onRight.arena, relocated.size]
  entry := by rw [onLeft.entry_eq, onRight.entry_eq]; exact relocated.entry
  names := by rw [onLeft.names, onRight.names, relocated.names]
  pages := by rw [onLeft.pages, onRight.pages, relocated.pages]
  statics := by rw [onLeft.statics.toList_eq, onRight.statics.toList_eq, relocated.statics]
  libraries := by
    rw [onLeft.libraries.toList_eq, onRight.libraries.toList_eq, relocated.libraries]
  found := by rw [onLeft.dynamics.toList_eq, onRight.dynamics.toList_eq]; exact relocated.found
  located := by
    rw [onLeft.dynamics.toList_eq, onRight.dynamics.toList_eq, onLeft.arena]
    exact relocated.located

/-- A change that depends on no inlining table, and leaves the range, makes no difference. -/
theorem modifyEntry (relocated : Relocated source target left right) (id : CodeId)
    {change : CodeEntry → CodeEntry}
    (commutes : ∀ entry exchange, change (CodeEntry.readdressed exchange entry) =
      (change entry).readdressed exchange)
    (size : ∀ entry, (change entry).size = entry.size) :
    Relocated source target (left.modifyEntry id change) (right.modifyEntry id change) where
  left_indexed := relocated.left_indexed.modifyEntry id change
  right_indexed := relocated.right_indexed.modifyEntry id change
  size := by simp [CodeMap.modifyEntry, relocated.size]
  entry other := by
    rw [entry_modifyEntry, entry_modifyEntry, relocated.size]
    split
    · rw [relocated.entry, commutes]
    · exact relocated.entry other
  names := relocated.names
  pages := relocated.pages
  statics := relocated.statics
  libraries := relocated.libraries
  found := relocated.found
  located address := by
    have stops : ∀ entry, stopOf (left.modifyEntry id change).arena entry =
        stopOf left.arena entry := by
      intro entry
      have sizes : ((left.modifyEntry id change).entry entry.2).size =
          (left.entry entry.2).size := by
        rw [entry_modifyEntry]
        split
        · rename_i same
          rw [size, same.1]
        · rfl
      exact congrArg (rangeEnd entry.1) sizes
    rw [locatedIn_congr stops, locatedIn_congr stops]
    exact relocated.located address

theorem withNames (relocated : Relocated source target left right) (names : NameSupply) :
    Relocated source target { left with names } { right with names } :=
  { relocated with
    left_indexed := relocated.left_indexed.withNames names
    right_indexed := relocated.right_indexed.withNames names
    names := rfl }

theorem numberName (relocated : Relocated source target left right) (id : CodeId) :
    Relocated source target (left.numberName id) (right.numberName id) := by
  have flags : ((right.entry id).numbered, (right.entry id).name) =
      ((left.entry id).numbered, (left.entry id).name) := by
    rw [relocated.entry]
    rfl
  obtain ⟨numbered, name⟩ := Prod.ext_iff.mp flags
  simp only [CodeMap.numberName]
  rw [show (right.entry id).numbered = _ from numbered, show (right.entry id).name = _ from name,
    relocated.names]
  split
  · exact relocated
  · let rename (entry : CodeEntry) : CodeEntry :=
      { entry with name := (left.names.next (left.entry id).name).1, numbered := true }
    have commutes : ∀ entry exchange, rename (CodeEntry.readdressed exchange entry) =
        (rename entry).readdressed exchange := fun _ _ => rfl
    exact (relocated.modifyEntry id commutes fun _ => rfl).withNames _

end Relocated

/-- Maps between which a function has been moved answer alike, but for the addresses at
which the function starts. -/
theorem indistinct_relocated :
    Indistinct (Equiv.swap source target) (Relocated source target) where
  entry relocated := relocated.entry
  lookup? relocated := relocated.lookup?_eq
  findAddress {left right} relocated address := by
    obtain ⟨first, onLeft, findsLeft⟩ := relocated.left_indexed.exists_findAddress address
    obtain ⟨second, onRight, findsRight⟩ := relocated.right_indexed.exists_findAddress address
    have searched := relocated.rearranged onLeft onRight
    rw [findsLeft, findsRight, relocated.lookup?_eq, relocated.isMarked_eq]
    refine ⟨_, _, _, rfl, rfl, ?_⟩
    split
    · exact searched
    · cases left.lookup? address with
      | none => exact searched
      | some located => exact searched.numberName located.id
  dynamicAt {left right} relocated address := by
    obtain ⟨first, onLeft, leftIndexed, leftSame⟩ :=
      relocated.left_indexed.exists_dynamicAt address
    obtain ⟨second, onRight, rightIndexed, rightSame⟩ :=
      relocated.right_indexed.exists_dynamicAt (Equiv.swap source target address)
    have answers : (found? (Equiv.swap source target address) right.dynamics.toList).map (·.2) =
        (found? address left.dynamics.toList).map (·.2) := by
      apply Option.ext
      intro id
      rw [relocated.right_indexed.found?_eq_some, relocated.left_indexed.found?_eq_some]
      exact relocated.found address id
    rw [onLeft, onRight, answers]
    have leftSelf := relocated.left_indexed.alike_self
    have rightSelf := relocated.right_indexed.alike_self
    exact ⟨_, _, _, rfl, rfl, relocated.rearranged
      (leftSelf.withDynamics ⟨leftSelf.dynamics.left_valid, leftIndexed.dynamics, leftSame⟩)
      (rightSelf.withDynamics ⟨rightSelf.dynamics.left_valid, rightIndexed.dynamics, rightSame⟩)⟩

/-- A map whose inlining tables list functions under other addresses. -/
def readdressed (exchange : UInt64 → UInt64) (map : CodeMap) : CodeMap :=
  { map with arena := map.arena.map (·.readdressed exchange) }

theorem entry_readdressed (exchange : UInt64 → UInt64) (map : CodeMap) (id : CodeId) :
    (map.readdressed exchange).entry id = (map.entry id).readdressed exchange := by
  simp only [CodeMap.entry, readdressed, Array.getD_eq_getD_getElem?, Array.getElem?_map]
  cases map.arena[id.index]? <;> rfl

theorem Indexed.readdressed (indexed : Indexed map) (exchange : UInt64 → UInt64) :
    Indexed (map.readdressed exchange) := by
  have size : (map.readdressed exchange).arena.size = map.arena.size := Array.size_map
  exact ⟨indexed.dynamics, indexed.statics, indexed.libraries,
    size ▸ indexed.dynamicsStored, size ▸ indexed.staticsStored, size ▸ indexed.librariesStored⟩

/-- Moving a function outside all ranges has no effect but that on the addresses in the
inlining tables. -/
theorem Indexed.exists_relocated (indexed : Indexed map) {function : CodeId}
    (live : (source, function) ∈ map.dynamics.toList) (empty : (map.entry function).size = 0)
    (free : ∀ id, (target, id) ∉ map.dynamics.toList)
    (clearSource : Clear map.arena map.dynamics.toList source)
    (clearTarget : Clear map.arena map.dynamics.toList target) :
    ∃ moved, map.moveCode source target = (.ok (), moved) ∧
      Relocated source target moved (map.readdressed (Equiv.swap source target)) := by
  obtain ⟨dynamics, moves, valid, contents⟩ := indexed.exists_moveSharedFunction live empty free
  refine ⟨_, moves, ?_⟩
  have ascending := AddressIndex.ascending_of_valid indexed.dynamics
  -- Both indices hold the function besides the entries that stay where they are.
  let others := removed source map.dynamics.toList
  have subset : ∀ entry ∈ others, entry ∈ map.dynamics.toList :=
    fun entry inside => (AddressIndex.mem_removed.mp inside).1
  have othersAscending : AddressIndex.Ascending others := ascending.filter _
  have before : ∀ entry, entry ∈ map.dynamics.toList ↔
      entry ∈ others ∨ entry = (source, function) := by
    intro entry
    rw [AddressIndex.mem_removed]
    constructor
    · intro inside
      by_cases same : entry.1 = source
      · exact .inr (ascending.eq_of_start inside live same)
      · exact .inl ⟨inside, same⟩
    · rintro (⟨inside, -⟩ | rfl)
      · exact inside
      · exact live
  have stop (start : UInt64) : stopOf map.arena (start, function) = start := by
    change rangeEnd start (map.entry function).size = start
    rw [empty, rangeEnd_zero]
  have unhidden {start : UInt64} (clear : Clear map.arena map.dynamics.toList start)
      (address : UInt64) := unlessHidden_locatedIn othersAscending
        (fun entry inside => clear entry (subset entry inside)) address
  refine
    { left_indexed := ?_
      right_indexed := indexed.readdressed _
      size := Array.size_map
      entry := entry_readdressed _ map
      names := rfl
      pages := rfl
      statics := rfl
      libraries := rfl
      found := ?_
      located := ?_ }
  · have moved := indexed.moveCode source target
    rwa [moves] at moved
  · intro address id
    change (_, id) ∈ map.dynamics.toList ↔ (address, id) ∈ dynamics.toList
    rw [contents, AddressIndex.mem_removed, Prod.mk.injEq]
    have apart : source ≠ target := by
      rintro rfl
      exact free function live
    by_cases isSource : address = source
    · rw [isSource, Equiv.swap_apply_left]
      simp [free, apart]
    · by_cases isTarget : address = target
      · rw [isTarget, Equiv.swap_apply_right]
        constructor
        · intro inside
          exact .inr ⟨rfl, congrArg Prod.snd (ascending.eq_of_start inside live rfl)⟩
        · rintro (⟨inside, -⟩ | ⟨-, rfl⟩)
          · exact absurd inside (free id)
          · exact live
      · rw [Equiv.swap_apply_of_ne_of_ne isSource isTarget]
        simp [isSource, isTarget]
  · intro address
    have moved := (locatedIn_of_mem_iff othersAscending (AddressIndex.ascending_of_valid valid)
      contents (stop target) address).trans (unhidden clearTarget address)
    have stayed := (locatedIn_of_mem_iff othersAscending ascending before (stop source)
      address).trans (unhidden clearSource address)
    exact stayed.trans moved.symm

end JitTrace.CodeMap
