import JitTrace.Proofs.Code.Lookup
import Mathlib.Data.Finset.Card

/-!
# Where generated code starts

Generated code starts at one address at a time, so asking for the code at an address and for
the address of code are two ways to read one table. New code has an id that no code had
before, and code that is moved is taken out before it is entered again. Either way, what
starts at the address is taken out first, so the index never refuses the entry. None of this
depends on ranges: code without range evicts nothing and may start inside the range of other
code.
-/

namespace JitTrace.CodeMap

open SplayTree (Valid found?)

variable {map : CodeMap} {id : CodeId}

/-- No code starts at two addresses. -/
def SinglyPlaced (map : CodeMap) : Prop :=
  ∀ (id : CodeId) (start other : UInt64), (start, id) ∈ map.dynamics.toList →
    (other, id) ∈ map.dynamics.toList → start = other

/-! ## Operations -/

namespace SinglyPlaced

theorem of_subset (single : SinglyPlaced map) {after : CodeMap}
    (subset : ∀ entry ∈ after.dynamics.toList, entry ∈ map.dynamics.toList) :
    SinglyPlaced after :=
  fun id start other atStart atOther =>
    single id start other (subset _ atStart) (subset _ atOther)

theorem trim (single : SinglyPlaced map) {after : CodeMap} (trimmed : Trimmed map after) :
    SinglyPlaced after :=
  single.of_subset trimmed.dynamics.subset

/-- Code that starts nowhere is placed. -/
theorem placeCode (single : SinglyPlaced map) (valid : Valid map.dynamics)
    (unplaced : ∀ start, (start, id) ∉ map.dynamics.toList) (start size : UInt64) :
    SinglyPlaced (map.placeCode start size id) := by
  obtain ⟨placed, places, -, origin, -⟩ := exists_placeCode start size id valid
  rw [places]
  intro code first second atFirst atSecond
  rcases origin _ atFirst with here | earlier <;>
    rcases origin _ atSecond with alsoHere | alsoEarlier
  · cases here
    cases alsoHere
    rfl
  · cases here
    exact absurd alsoEarlier (unplaced second)
  · cases alsoHere
    exact absurd earlier (unplaced first)
  · exact single code first second earlier alsoEarlier

/-- An id that has not been given out starts nowhere. -/
theorem addCode (single : SinglyPlaced map) (indexed : Indexed map) (start : UInt64)
    (entry : CodeEntry) : SinglyPlaced (map.addCode start entry).2 := by
  have unplaced : ∀ other, (other, (⟨map.arena.size⟩ : CodeId)) ∉ map.dynamics.toList :=
    fun other inside => Nat.lt_irrefl _ (indexed.dynamicsStored _ inside)
  have stored : SinglyPlaced { map with arena := map.arena.push entry } := single
  exact stored.placeCode indexed.dynamics unplaced start entry.size

/-- Code that is moved has been taken from the only address where it started. -/
theorem moveCode (single : SinglyPlaced map) (indexed : Indexed map) (source target : UInt64) :
    SinglyPlaced (map.moveCode source target).2 := by
  obtain ⟨taken, fewer, remaining, ⟨-, -, moved⟩ | ⟨code, live, moved⟩⟩ :=
    indexed.moveCode_cases source target
  · rw [moved]
    exact single.trim (indexed.trimmed_drop fewer)
  · rw [moved]
    refine placeCode (single.trim (indexed.trimmed_drop fewer)) fewer.valid
      (fun other inside => ?_) target _
    obtain ⟨inside, elsewhere⟩ := (remaining _).mp inside
    exact elsewhere (single code other source inside live)

theorem perform (single : SinglyPlaced map) (indexed : Indexed map) (operation : Operation) :
    SinglyPlaced (operation.perform map) := by
  cases operation with
  | addLibrary start entry => exact single
  | addStaticCode start entry => exact single
  | addCode start entry => exact single.addCode indexed start entry
  | moveCode source target => exact single.moveCode indexed source target
  | deleteCode start => exact single.trim (indexed.trimmed_deleteCode start)
  | retainDynamic keep state => exact single.trim (indexed.trimmed_retainDynamicWith keep state)
  | findAddress address => exact single.trim (indexed.trimmed_findAddress address)
  | dynamicAt start => exact single.trim (indexed.trimmed_dynamicAt start)

end SinglyPlaced

theorem Built.singlyPlaced (built : Built map) : SinglyPlaced map := by
  induction built with
  | empty => exact fun _ _ _ inside => absurd inside List.not_mem_nil
  | perform operation built single => exact single.perform built.indexed operation
  | addDetached entry _ single => exact single
  | modifyEntry id change _ single => exact single

/-! ## The two ways to ask -/

theorem Indexed.dynamicAt_eq_some (indexed : Indexed map) {start : UInt64} :
    (map.dynamicAt start).1 = some id ↔ (start, id) ∈ map.dynamics.toList := by
  obtain ⟨dynamics, finds, -⟩ := indexed.exists_dynamicAt start
  rw [finds, indexed.found?_eq_some]

theorem SinglyPlaced.dynamicAddressOf?_eq_some (single : SinglyPlaced map) {start : UInt64} :
    map.dynamicAddressOf? id = some start ↔ (start, id) ∈ map.dynamics.toList := by
  have finds : map.dynamicAddressOf? id =
      (map.dynamics.toList.find? fun entry => entry.2 == id).map (·.1) := rfl
  have holds {entry : UInt64 × CodeId}
      (found : map.dynamics.toList.find? (fun entry => entry.2 == id) = some entry) :
      entry.2 = id := by
    have same := List.find?_some found
    rwa [beq_iff_eq] at same
  rw [finds, Option.map_eq_some_iff]
  constructor
  · rintro ⟨⟨_, stored⟩, found, rfl⟩
    obtain rfl : stored = id := holds found
    exact List.mem_of_find?_eq_some found
  · intro inside
    have present : (map.dynamics.toList.find? fun entry => entry.2 == id).isSome :=
      List.find?_isSome.mpr ⟨_, inside, beq_self_eq_true id⟩
    obtain ⟨⟨other, stored⟩, found⟩ := Option.isSome_iff_exists.mp present
    obtain rfl : stored = id := holds found
    exact ⟨_, found, single stored other start (List.mem_of_find?_eq_some found) inside⟩

theorem nodup_toList {index : AddressIndex} (valid : Valid index) : index.toList.Nodup := by
  refine (AddressIndex.ascending_of_valid valid).imp ?_
  rintro entry _ less rfl
  exact UInt64.lt_irrefl _ less

/-- No id occurs twice. -/
theorem SinglyPlaced.nodup (single : SinglyPlaced map) (valid : Valid map.dynamics) :
    (map.dynamics.toList.map (·.2)).Nodup := by
  refine (nodup_toList valid).map_on ?_
  rintro ⟨start, id⟩ atStart ⟨other, _⟩ atOther rfl
  rw [single id start other atStart atOther]

/-! ## Entering code -/

/-- The index that placed code is entered into: what is in its way has been evicted, and what
starts there has been taken out. -/
def vacated (map : CodeMap) (start size : UInt64) : AddressIndex :=
  ((map.evictCovered start (rangeEnd start size)).dynamics.remove start).2

/-- Placed code is never refused. -/
theorem insert_vacated (valid : Valid map.dynamics) (start size : UInt64) (id : CodeId) :
    (map.vacated start size).insert start id = (true, (map.placeCode start size id).dynamics) := by
  obtain ⟨evicted, evicts, evictedValid, -⟩ :=
    exists_evictCovered start (rangeEnd start size) valid
  obtain ⟨cleared, removes, clearedValid, contents⟩ := evictedValid.exists_remove start
  obtain ⟨placed, inserts, -⟩ := clearedValid.exists_insert start id
  have vacant : found? start cleared.toList = none := by
    rw [contents, found?, List.find?_eq_none]
    intro entry inside same
    rw [beq_iff_eq, Std.compare_eq_iff_eq] at same
    exact (AddressIndex.mem_removed.mp inside).2 same.symm
  rw [vacant] at inserts
  simp only [vacated, placeCode, evicts, removes, inserts, Option.isNone_none]

/-- Code has been entered at an address: the index has not refused it, and it is live there. -/
structure Entered (before : CodeMap) (start size : UInt64) (id : CodeId) (after : CodeMap) :
    Prop where
  accepted : (before.vacated start size).insert start id = (true, after.dynamics)
  live : (after.dynamicAt start).1 = some id
  place : after.dynamicAddressOf? id = some start

/-- Placed code is entered where it is placed. -/
theorem Indexed.entered_placeCode (indexed : Indexed map) {start size : UInt64}
    (placed : Indexed (map.placeCode start size id))
    (single : SinglyPlaced (map.placeCode start size id)) :
    Entered map start size id (map.placeCode start size id) := by
  have live := mem_placeCode start size id indexed.dynamics
  exact ⟨insert_vacated indexed.dynamics start size id, placed.dynamicAt_eq_some.mpr live,
    single.dynamicAddressOf?_eq_some.mpr live⟩

/-- Moving code deletes it and places it again. -/
theorem Indexed.moveCode_of_live (indexed : Indexed map) {source : UInt64}
    (live : (source, id) ∈ map.dynamics.toList) (target : UInt64) :
    map.moveCode source target =
      (.ok (), (map.deleteCode source).2.placeCode target (map.entry id).size id) := by
  obtain ⟨taken, removes, -⟩ := indexed.dynamics.exists_remove source
  have found := (AddressIndex.found?_eq_some
    (AddressIndex.ascending_of_valid indexed.dynamics)).mpr ⟨live, rfl⟩
  simp only [CodeMap.moveCode, CodeMap.deleteCode, removes, found]
  rfl

/-- In every code map that can be built, an id occurs at most once among the generated code, and
the address of code and the code at an address determine each other. Code that is
added or moved is entered without refusal where it is to start. There are as many entries as
there are pairs of an address and the code there. -/
theorem Built.whereabouts (built : Built map) :
    (map.dynamics.toList.map (·.2)).Nodup ∧
    (∀ id address, map.dynamicAddressOf? id = some address ↔
      (map.dynamicAt address).1 = some id) ∧
    (∀ start entry, Entered (map.addDetached entry).2 start entry.size
      (map.addCode start entry).1 (map.addCode start entry).2) ∧
    (∀ source target id, (map.dynamicAt source).1 = some id →
      (map.moveCode source target).1 = .ok () ∧
        Entered (map.deleteCode source).2 target (map.entry id).size id
          (map.moveCode source target).2) ∧
    ∃ live : Finset (UInt64 × CodeId),
      (∀ address id, (address, id) ∈ live ↔ (map.dynamicAt address).1 = some id) ∧
        map.dynamics.size = live.card := by
  have indexed := built.indexed
  have single := built.singlyPlaced
  refine ⟨single.nodup indexed.dynamics, fun id address => ?_, fun start entry => ?_,
    fun source target id live => ?_, map.dynamics.toList.toFinset, fun address id => ?_, ?_⟩
  · rw [single.dynamicAddressOf?_eq_some, indexed.dynamicAt_eq_some]
  · exact (indexed.addDetached entry).entered_placeCode (indexed.addCode start entry)
      (single.addCode indexed start entry)
  · have moves := indexed.moveCode_of_live (indexed.dynamicAt_eq_some.mp live) target
    have movedIndexed := indexed.moveCode source target
    have movedSingle := single.moveCode indexed source target
    rw [moves] at movedIndexed movedSingle ⊢
    exact ⟨rfl, (indexed.trim (indexed.trimmed_deleteCode source)).entered_placeCode movedIndexed
      movedSingle⟩
  · rw [List.mem_toFinset, indexed.dynamicAt_eq_some]
  · rw [List.toFinset_card_of_nodup (nodup_toList indexed.dynamics), indexed.dynamics.size_eq]

/-- A function, which has no range, inside the range of code. -/
def enclosedFunction : CodeMap :=
  run [.addCode 0x1000 (.dynamic 0x20 "f" "JS"), .addCode 0x1010 (.sharedFunction "g")]

/-- The function is moved to where the code starts. It evicts nothing, and takes the place of the
code all the same. -/
theorem whereabouts_enclosedFunction :
    Built enclosedFunction ∧ (enclosedFunction.dynamicAt 0x1010).1 = some ⟨1⟩ ∧
      Entered (enclosedFunction.deleteCode 0x1010).2 0x1000 0 ⟨1⟩
        (enclosedFunction.moveCode 0x1010 0x1000).2 ∧
      (enclosedFunction.moveCode 0x1010 0x1000).2.dynamicAddressOf? ⟨0⟩ = none := by
  have built : Built enclosedFunction := built_run _
  have live : (enclosedFunction.dynamicAt 0x1010).1 = some ⟨1⟩ := by decide +kernel
  have size : (enclosedFunction.entry ⟨1⟩).size = 0 := by decide +kernel
  have moved := built.whereabouts.2.2.2.1 0x1010 0x1000 ⟨1⟩ live
  rw [size] at moved
  exact ⟨built, live, moved.2, by decide +kernel⟩

end JitTrace.CodeMap
