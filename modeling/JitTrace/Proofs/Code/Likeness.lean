import JitTrace.Proofs.Outcome
import JitTrace.Proofs.Code.Run

/-!
# Code maps with the same contents

Lookups rearrange the indices of a code map, so two maps that hold the same code can
differ in the shapes of their indices. No operation can tell such maps apart: whatever
is asked of one, the other answers the same, and the two still hold the same code.
-/

namespace JitTrace

namespace AddressIndex

open SplayTree (Valid found? inserted removed retained)

/-- Two indices hold the same entries. -/
structure Alike (left right : AddressIndex) : Prop where
  left_valid : Valid left
  right_valid : Valid right
  toList_eq : right.toList = left.toList

theorem alike_empty : Alike (SplayTree.empty : AddressIndex) SplayTree.empty :=
  ⟨SplayTree.valid_empty, SplayTree.valid_empty, rfl⟩

namespace Alike

variable {left right : AddressIndex}

theorem trans {further : AddressIndex} (alike : Alike left right) (again : Alike right further) :
    Alike left further :=
  ⟨alike.left_valid, again.right_valid, again.toList_eq.trans alike.toList_eq⟩

/-- An operation described by the entries it is given cannot tell two such indices
apart. -/
theorem agree {Answer : Type} (alike : Alike left right)
    (operation : AddressIndex → Answer × AddressIndex) (answer : List (UInt64 × CodeId) → Answer)
    (contents : List (UInt64 × CodeId) → List (UInt64 × CodeId))
    (described : ∀ index, Valid index → ∃ after,
      operation index = (answer index.toList, after) ∧ Valid after ∧
        after.toList = contents index.toList) :
    Agree Alike (operation left) (operation right) := by
  obtain ⟨first, onLeft, firstValid, firstIs⟩ := described left alike.left_valid
  obtain ⟨second, onRight, secondValid, secondIs⟩ := described right alike.right_valid
  rw [alike.toList_eq] at onRight secondIs
  exact ⟨_, first, second, onLeft, onRight, firstValid, secondValid, secondIs.trans firstIs.symm⟩

theorem insert (alike : Alike left right) (address : UInt64) (id : CodeId) :
    Agree Alike (left.insert address id) (right.insert address id) :=
  alike.agree (·.insert address id) (fun entries => (found? address entries).isNone)
    (inserted address id) fun _ valid => valid.exists_insert address id

theorem remove (alike : Alike left right) (address : UInt64) :
    Agree Alike (left.remove address) (right.remove address) :=
  alike.agree (·.remove address) (found? address) (removed address)
    fun _ valid => valid.exists_remove address

theorem get (alike : Alike left right) (address : UInt64) :
    Agree Alike (left.get address) (right.get address) :=
  alike.agree (·.get address) (fun entries => (found? address entries).map (·.2)) id
    fun _ valid => valid.exists_get address

theorem retainWith {State : Type} (alike : Alike left right)
    (visit : State → UInt64 → CodeId → Bool × CodeId × State) (state : State) :
    Agree Alike (left.retainWith visit state) (right.retainWith visit state) :=
  alike.agree (·.retainWith visit state) (fun entries => (retained visit state entries).1)
    (fun entries => (retained visit state entries).2)
    fun _ valid => valid.exists_retainWith visit state

theorem findIn (alike : Alike left right) (arena : Array CodeEntry) (address : UInt64) :
    Agree Alike (CodeMap.findIn arena left address) (CodeMap.findIn arena right address) :=
  alike.agree (CodeMap.findIn arena · address)
    (fun entries => CodeMap.locatedIn arena entries address) id
    fun _ valid => CodeMap.exists_findIn arena valid address

/-- Looking up leaves the entries as they are. -/
theorem get_unchanged (alike : Alike left right) (address : UInt64) :
    Alike (left.get address).2 right := by
  obtain ⟨after, gets, valid, same⟩ := alike.left_valid.exists_get address
  rw [gets]
  exact ⟨valid, alike.right_valid, alike.toList_eq.trans same.symm⟩

/-- Removing nothing leaves the entries as they are. -/
theorem remove_unchanged (alike : Alike left right) {address : UInt64}
    (nothing : (left.remove address).1 = none) : Alike (left.remove address).2 right := by
  obtain ⟨after, removes, valid, remaining⟩ := alike.left_valid.exists_remove address
  rw [removes] at nothing ⊢
  have kept : removed address left.toList = left.toList :=
    List.filter_eq_self.mpr fun entry inside => by
      simpa using List.find?_eq_none.mp nothing entry inside
  exact ⟨valid, alike.right_valid, by rw [remaining, kept, alike.toList_eq]⟩

/-- The nodes found may have different handles, but they hold the same entry. -/
theorem greatestAtMost (alike : Alike left right) (address : UInt64) :
    ∃ leftHandle? first rightHandle? second,
      left.greatestAtMost address = (leftHandle?, first) ∧
      right.greatestAtMost address = (rightHandle?, second) ∧
      rightHandle?.bind second.pair? = leftHandle?.bind first.pair? ∧ Alike first second := by
  obtain ⟨leftHandle?, first, onLeft, firstValid, firstIs, leftFound⟩ :=
    alike.left_valid.exists_nearest address (·.isLE) .left rfl rfl
  obtain ⟨rightHandle?, second, onRight, secondValid, secondIs, rightFound⟩ :=
    alike.right_valid.exists_nearest address (·.isLE) .left rfl rfl
  rw [alike.toList_eq] at rightFound secondIs
  exact ⟨leftHandle?, first, rightHandle?, second, onLeft, onRight,
    rightFound.trans leftFound.symm, firstValid, secondValid, secondIs.trans firstIs.symm⟩

theorem size_eq (alike : Alike left right) : right.size = left.size := by
  rw [alike.left_valid.size_eq, alike.right_valid.size_eq, alike.toList_eq]

theorem minimum?_eq (alike : Alike left right) : right.minimum? = left.minimum? := by
  rw [alike.left_valid.minimum?_eq, alike.right_valid.minimum?_eq, alike.toList_eq]

theorem maximum?_eq (alike : Alike left right) : right.maximum? = left.maximum? := by
  rw [alike.left_valid.maximum?_eq, alike.right_valid.maximum?_eq, alike.toList_eq]

theorem peekIn?_eq (alike : Alike left right) (arena : Array CodeEntry) (address : UInt64) :
    CodeMap.peekIn? arena right address = CodeMap.peekIn? arena left address := by
  rw [CodeMap.peekIn?_eq arena alike.left_valid, CodeMap.peekIn?_eq arena alike.right_valid,
    alike.toList_eq]

/-- The walk over the code in the way of new code passes the same entries. -/
theorem coveredStarts (alike : Alike left right) (arena : Array CodeEntry)
    (start stop : UInt64) (steps : Nat) (address : UInt64) :
    Agree Alike (CodeMap.coveredStarts arena start stop steps address left)
      (CodeMap.coveredStarts arena start stop steps address right) := by
  induction steps generalizing left right address with
  | zero => exact ⟨[], left, right, rfl, rfl, alike⟩
  | succ steps inductionHypothesis =>
    obtain ⟨leftHandle?, first, rightHandle?, second, onLeft, onRight, same, searched⟩ :=
      alike.greatestAtMost address
    simp only [CodeMap.coveredStarts, onLeft, onRight, same]
    cases leftHandle?.bind first.pair? with
    | none => exact ⟨[], first, second, rfl, rfl, searched⟩
    | some entry =>
      obtain ⟨entryStart, id⟩ := entry
      obtain ⟨below, third, fourth, onFirst, onSecond, walked⟩ :=
        inductionHypothesis searched (entryStart - 1)
      dsimp only
      split
      · exact ⟨_, first, second, rfl, rfl, searched⟩
      · exact ⟨_, third, fourth, by rw [onFirst], by rw [onSecond], walked⟩

theorem foldl_remove (alike : Alike left right) (addresses : List UInt64) :
    Alike (addresses.foldl (fun index address => (index.remove address).2) left)
      (addresses.foldl (fun index address => (index.remove address).2) right) := by
  induction addresses generalizing left right with
  | nil => exact alike
  | cons address addresses inductionHypothesis =>
    obtain ⟨_, first, second, onLeft, onRight, removed⟩ := alike.remove address
    rw [List.foldl_cons, List.foldl_cons, onLeft, onRight]
    exact inductionHypothesis removed

end Alike

end AddressIndex

namespace CodeMap

/-- Two code maps hold the same code. -/
structure Alike (left right : CodeMap) : Prop where
  arena : right.arena = left.arena
  dynamics : left.dynamics.Alike right.dynamics
  statics : left.statics.Alike right.statics
  libraries : left.libraries.Alike right.libraries
  pages : right.pages = left.pages
  names : right.names = left.names

theorem alike_empty : Alike empty empty :=
  ⟨rfl, AddressIndex.alike_empty, AddressIndex.alike_empty, AddressIndex.alike_empty, rfl, rfl⟩

theorem Indexed.alike_self {map : CodeMap} (indexed : Indexed map) : Alike map map :=
  ⟨rfl, ⟨indexed.dynamics, indexed.dynamics, rfl⟩, ⟨indexed.statics, indexed.statics, rfl⟩,
    ⟨indexed.libraries, indexed.libraries, rfl⟩, rfl, rfl⟩

namespace Alike

variable {left right : CodeMap}

theorem trans {further : CodeMap} (alike : Alike left right) (again : Alike right further) :
    Alike left further :=
  ⟨again.arena.trans alike.arena, alike.dynamics.trans again.dynamics,
    alike.statics.trans again.statics, alike.libraries.trans again.libraries,
    again.pages.trans alike.pages, again.names.trans alike.names⟩

/-! ### Questions -/

theorem entry_eq (alike : Alike left right) : right.entry = left.entry := by
  funext id
  rw [CodeMap.entry, CodeMap.entry, alike.arena]

theorem displayName_eq (alike : Alike left right) : right.displayName = left.displayName := by
  funext id
  simp only [CodeMap.displayName, alike.entry_eq]

theorem isMarked_eq (alike : Alike left right) : right.isMarked = left.isMarked := by
  funext address
  simp only [CodeMap.isMarked, alike.pages]

theorem inDynamicRange_eq (alike : Alike left right) :
    right.inDynamicRange = left.inDynamicRange := by
  funext address
  simp only [CodeMap.inDynamicRange, alike.dynamics.minimum?_eq, alike.dynamics.maximum?_eq,
    alike.entry_eq]

theorem lookup?_eq (alike : Alike left right) : right.lookup? = left.lookup? := by
  funext address
  simp only [CodeMap.lookup?, alike.isMarked_eq, alike.inDynamicRange_eq, alike.arena,
    alike.statics.peekIn?_eq, alike.libraries.peekIn?_eq, alike.dynamics.peekIn?_eq]

/-! ### Entries -/

theorem modifyEntry (alike : Alike left right) (id : CodeId) (change : CodeEntry → CodeEntry) :
    Alike (left.modifyEntry id change) (right.modifyEntry id change) where
  arena := congrArg (·.modify id.index change) alike.arena
  dynamics := alike.dynamics
  statics := alike.statics
  libraries := alike.libraries
  pages := alike.pages
  names := alike.names

theorem foldl_modifyEntry (alike : Alike left right) (ids : List CodeId)
    (change : CodeEntry → CodeEntry) :
    Alike (ids.foldl (fun map id => map.modifyEntry id change) left)
      (ids.foldl (fun map id => map.modifyEntry id change) right) := by
  induction ids generalizing left right with
  | nil => exact alike
  | cons id ids inductionHypothesis => exact inductionHypothesis (alike.modifyEntry id change)

theorem addDetached (alike : Alike left right) (entry : CodeEntry) :
    Agree Alike (left.addDetached entry) (right.addDetached entry) := by
  refine ⟨_, _, _, rfl, by rw [CodeMap.addDetached, alike.arena], ?_⟩
  exact ⟨rfl, alike.dynamics, alike.statics, alike.libraries, alike.pages, alike.names⟩

theorem foldl_addDetached (alike : Alike left right) (entries : List CodeEntry) :
    Alike (entries.foldl (fun map entry => (map.addDetached entry).2) left)
      (entries.foldl (fun map entry => (map.addDetached entry).2) right) := by
  induction entries generalizing left right with
  | nil => exact alike
  | cons entry entries inductionHypothesis =>
    obtain ⟨_, first, second, onLeft, onRight, added⟩ := alike.addDetached entry
    rw [List.foldl_cons, List.foldl_cons, onLeft, onRight]
    exact inductionHypothesis added

theorem numberName (alike : Alike left right) (id : CodeId) :
    Alike (left.numberName id) (right.numberName id) := by
  simp only [CodeMap.numberName, alike.entry_eq, alike.names]
  split
  · exact alike
  · refine ⟨?_, alike.dynamics, alike.statics, alike.libraries, alike.pages, rfl⟩
    simp only [CodeMap.modifyEntry, alike.arena]

/-! ### Indices -/

theorem withDynamics (alike : Alike left right) {first second : AddressIndex}
    (dynamics : first.Alike second) :
    Alike { left with dynamics := first } { right with dynamics := second } :=
  { alike with dynamics }

theorem withStatics (alike : Alike left right) {first second : AddressIndex}
    (statics : first.Alike second) :
    Alike { left with statics := first } { right with statics := second } :=
  { alike with statics }

theorem withLibraries (alike : Alike left right) {first second : AddressIndex}
    (libraries : first.Alike second) :
    Alike { left with libraries := first } { right with libraries := second } :=
  { alike with libraries }

theorem addLibrary (alike : Alike left right) (start : UInt64) (entry : CodeEntry) :
    Agree Alike (left.addLibrary start entry) (right.addLibrary start entry) := by
  have marked : Alike (left.markPages start (rangeEnd start entry.size))
      (right.markPages start (rangeEnd start entry.size)) :=
    { alike with pages := by simp only [CodeMap.markPages, alike.pages] }
  obtain ⟨id, first, second, onLeft, onRight, added⟩ := marked.addDetached entry
  obtain ⟨_, third, fourth, onFirst, onSecond, indexed⟩ := added.libraries.insert start id
  simp only [CodeMap.addLibrary, onLeft, onRight, onFirst, onSecond]
  exact ⟨id, _, _, rfl, rfl, added.withLibraries indexed⟩

theorem addStaticCode (alike : Alike left right) (start : UInt64) (entry : CodeEntry) :
    Agree Alike (left.addStaticCode start entry) (right.addStaticCode start entry) := by
  obtain ⟨id, first, second, onLeft, onRight, added⟩ := alike.addDetached entry
  obtain ⟨_, third, fourth, onFirst, onSecond, indexed⟩ := added.statics.insert start id
  simp only [CodeMap.addStaticCode, onLeft, onRight, onFirst, onSecond]
  exact ⟨id, _, _, rfl, rfl, added.withStatics indexed⟩

theorem evictCovered (alike : Alike left right) (start stop : UInt64) :
    Alike (left.evictCovered start stop) (right.evictCovered start stop) := by
  simp only [CodeMap.evictCovered, alike.dynamics.size_eq]
  split
  · exact alike
  · obtain ⟨starts, first, second, onLeft, onRight, walked⟩ := alike.dynamics.coveredStarts
      left.arena start stop (left.dynamics.size + 1) (stop - 1)
    rw [← alike.arena] at onRight
    simp only [onLeft, onRight]
    exact alike.withDynamics (walked.foldl_remove starts)

theorem placeCode (alike : Alike left right) (start size : UInt64) (id : CodeId) :
    Alike (left.placeCode start size id) (right.placeCode start size id) := by
  have evicted := alike.evictCovered start (rangeEnd start size)
  obtain ⟨_, first, second, onLeft, onRight, cleared⟩ := evicted.dynamics.remove start
  obtain ⟨_, third, fourth, onFirst, onSecond, placed⟩ := cleared.insert start id
  simp only [CodeMap.placeCode, onLeft, onRight, onFirst, onSecond]
  exact evicted.withDynamics placed

theorem addCode (alike : Alike left right) (start : UInt64) (entry : CodeEntry) :
    Agree Alike (left.addCode start entry) (right.addCode start entry) := by
  obtain ⟨id, first, second, onLeft, onRight, added⟩ := alike.addDetached entry
  simp only [CodeMap.addCode, onLeft, onRight]
  exact ⟨id, _, _, rfl, rfl, added.placeCode start entry.size id⟩

/-- Where there is no code, nothing moves. -/
theorem moveCode (alike : Alike left right) (source target : UInt64) :
    Steady Alike right (left.moveCode source target) (right.moveCode source target) := by
  obtain ⟨found, first, second, onLeft, onRight, removed⟩ := alike.dynamics.remove source
  have dropped := alike.withDynamics removed
  simp only [CodeMap.moveCode, onLeft, onRight]
  cases found with
  | none =>
    have unchanged := alike.dynamics.remove_unchanged (congrArg (·.1) onLeft)
    rw [onLeft] at unchanged
    exact .of_error dropped { alike with dynamics := unchanged } rfl
  | some entry =>
    obtain ⟨start, id⟩ := entry
    dsimp only
    rw [dropped.entry_eq]
    exact .of_ok (dropped.placeCode target _ id) ()

theorem deleteCode (alike : Alike left right) (start : UInt64) :
    Agree Alike (left.deleteCode start) (right.deleteCode start) := by
  obtain ⟨found, first, second, onLeft, onRight, removed⟩ := alike.dynamics.remove start
  simp only [CodeMap.deleteCode, onLeft, onRight]
  exact ⟨_, _, _, rfl, rfl, alike.withDynamics removed⟩

theorem dynamicAt (alike : Alike left right) (start : UInt64) :
    Agree Alike (left.dynamicAt start) (right.dynamicAt start) := by
  obtain ⟨found, first, second, onLeft, onRight, searched⟩ := alike.dynamics.get start
  simp only [CodeMap.dynamicAt, onLeft, onRight]
  exact ⟨_, _, _, rfl, rfl, alike.withDynamics searched⟩

/-- Looking generated code up changes no code. -/
theorem dynamicAt_unchanged (alike : Alike left right) (start : UInt64) :
    (left.dynamicAt start).2.Alike right :=
  { alike with dynamics := alike.dynamics.get_unchanged start }

theorem retainDynamic (alike : Alike left right)
    (keep : UInt64 → CodeId → CodeEntry → Bool) :
    Agree Alike (left.retainDynamic keep) (right.retainDynamic keep) := by
  obtain ⟨_, first, second, onLeft, onRight, retained⟩ := alike.dynamics.retainWith
    (fun _ start id => (keep start id (left.entry id), id, ())) ()
  simp only [CodeMap.retainDynamic, CodeMap.retainDynamicWith, alike.entry_eq, onLeft, onRight,
    alike.dynamics.size_eq, retained.size_eq]
  exact ⟨_, _, _, rfl, rfl, alike.withDynamics retained⟩

theorem findAddress (alike : Alike left right) (address : UInt64) :
    Agree Alike (left.findAddress address) (right.findAddress address) := by
  obtain ⟨static?, statics, otherStatics, onStatics, onOtherStatics, staticsAlike⟩ :=
    alike.statics.findIn left.arena address
  obtain ⟨library?, libraries, otherLibraries, onLibraries, onOtherLibraries, librariesAlike⟩ :=
    alike.libraries.findIn left.arena address
  obtain ⟨dynamic?, dynamics, otherDynamics, onDynamics, onOtherDynamics, dynamicsAlike⟩ :=
    alike.dynamics.findIn left.arena address
  rw [← alike.arena] at onOtherStatics onOtherLibraries onOtherDynamics
  simp only [CodeMap.findAddress, alike.isMarked_eq, alike.inDynamicRange_eq,
    onStatics, onOtherStatics, onLibraries, onOtherLibraries, onDynamics, onOtherDynamics]
  split
  · cases static? with
    | some located => exact ⟨_, _, _, rfl, rfl, alike.withStatics staticsAlike⟩
    | none =>
      exact ⟨_, _, _, rfl, rfl, (alike.withStatics staticsAlike).withLibraries librariesAlike⟩
  · split
    · exact ⟨_, _, _, rfl, rfl, alike⟩
    · cases dynamic? with
      | none => exact ⟨_, _, _, rfl, rfl, alike.withDynamics dynamicsAlike⟩
      | some located =>
        exact ⟨_, _, _, rfl, rfl, (alike.withDynamics dynamicsAlike).numberName located.id⟩

end Alike

end CodeMap

end JitTrace
