import JitTrace.Profile.Frames
import JitTrace.Proofs.Code.Indexed

/-!
# Growth of code maps

An entry that has been stored stays stored, whatever becomes of the indices that lead to
it. It remains what it is: neither its size changes nor whether it is a function, nor
from which function it was compiled. Its name may get a distinguishing number, once.
-/

namespace JitTrace

namespace CodeEntry

/-- The name is as it was, or it has got its distinguishing number. -/
def Numbered (before after : CodeEntry) : Prop :=
  after.name = before.name ∧ after.numbered = before.numbered ∨
    before.numbered = false ∧ before.name.isEmpty = false ∧ after.numbered = true ∧
      (after.name = before.name ∨
        ∃ count : Nat, after.name = before.name ++ " \x7b" ++ toString count ++ "\x7d")

/-- The entries have the same extent, and either both are functions, or both were compiled
from the same function, or neither. -/
structure SameRole (before after : CodeEntry) : Prop where
  size : after.size = before.size
  function : after.function? = before.function?
  shared : after.isSharedFunction = before.isSharedFunction

/-- The second entry is what has become of the first one. -/
structure Kept (before after : CodeEntry) : Prop extends SameRole before after where
  name : Numbered before after

theorem SameRole.refl (entry : CodeEntry) : SameRole entry entry :=
  ⟨rfl, rfl, rfl⟩

theorem Kept.refl (entry : CodeEntry) : Kept entry entry :=
  ⟨.refl entry, .inl ⟨rfl, rfl⟩⟩

/-- A name that has got its number does not get another one. -/
theorem Numbered.trans {first second third : CodeEntry} (left : Numbered first second)
    (right : Numbered second third) : Numbered first third := by
  rcases left with ⟨sameName, sameFlag⟩ | ⟨unnumbered, named, numbered, given⟩
  · rcases right with ⟨nextName, nextFlag⟩ | ⟨nextOpen, nextNamed, nextNumbered, nextGiven⟩
    · exact .inl ⟨nextName.trans sameName, nextFlag.trans sameFlag⟩
    · rw [sameName] at nextNamed nextGiven
      exact .inr ⟨sameFlag.symm.trans nextOpen, nextNamed, nextNumbered, nextGiven⟩
  · rcases right with ⟨nextName, nextFlag⟩ | ⟨nextOpen, -⟩
    · exact .inr ⟨unnumbered, named, nextFlag.trans numbered, by rwa [nextName]⟩
    · rw [numbered] at nextOpen
      contradiction

theorem SameRole.trans {first second third : CodeEntry} (left : SameRole first second)
    (right : SameRole second third) : SameRole first third where
  size := right.size.trans left.size
  function := right.function.trans left.function
  shared := right.shared.trans left.shared

theorem Kept.trans {first second third : CodeEntry} (left : Kept first second)
    (right : Kept second third) : Kept first third :=
  ⟨left.toSameRole.trans right.toSameRole, left.name.trans right.name⟩

/-- Compiled code is no function. -/
theorem isSharedFunction_of_function? {entry : CodeEntry} {function : CodeId}
    (compiled : entry.function? = some function) : entry.isSharedFunction = false := by
  cases flavor : entry.flavor <;> simp_all [function?, isSharedFunction]

/-- Library code and generated code of no known function. -/
structure Ordinary (entry : CodeEntry) : Prop where
  function : entry.function? = none
  shared : entry.isSharedFunction = false

theorem ordinary_plain (size : UInt64) (name codeType : String) :
    Ordinary (plain size name codeType) :=
  ⟨rfl, rfl⟩

theorem ordinary_pseudo (name : String) : Ordinary (pseudo name) :=
  ⟨rfl, rfl⟩

end CodeEntry

namespace CodeMap

/-- The second map has grown out of the first one by entries that `admits` admits. -/
structure Grown (admits : CodeEntry → Prop) (before after : CodeMap) : Prop where
  indexed : Indexed after
  size : before.arena.size ≤ after.arena.size
  kept : ∀ id : CodeId, id.index < before.arena.size → (before.entry id).Kept (after.entry id)
  fresh : ∀ id : CodeId, before.arena.size ≤ id.index → id.index < after.arena.size →
    ∃ new, admits new ∧ new.Kept (after.entry id)

/-- Nothing but stored entries is looked up behind an id, and behind any other id stands
an entry that is no function and was compiled from none. -/
theorem entry_unstored {map : CodeMap} {id : CodeId} (unstored : ¬id.index < map.arena.size) :
    map.entry id = default := by
  simp [CodeMap.entry, Array.getD_eq_getD_getElem?, Nat.le_of_not_lt unstored]

theorem stored_of_isSharedFunction {map : CodeMap} {id : CodeId}
    (shared : (map.entry id).isSharedFunction = true) : id.index < map.arena.size := by
  by_contra unstored
  rw [entry_unstored unstored] at shared
  contradiction

/-- Changing an entry leaves the indices alone. -/
theorem Indexed.modifyEntry {map : CodeMap} (indexed : Indexed map) (id : CodeId)
    (change : CodeEntry → CodeEntry) : Indexed (map.modifyEntry id change) := by
  have size : (map.modifyEntry id change).arena.size = map.arena.size := Array.size_modify
  exact ⟨indexed.dynamics, indexed.statics, indexed.libraries,
    size ▸ indexed.dynamicsStored, size ▸ indexed.staticsStored, size ▸ indexed.librariesStored⟩

/-- Indices do not depend on the supply of names. -/
theorem Indexed.withNames {map : CodeMap} (indexed : Indexed map) (names : NameSupply) :
    Indexed { map with names } :=
  ⟨indexed.dynamics, indexed.statics, indexed.libraries, indexed.dynamicsStored,
    indexed.staticsStored, indexed.librariesStored⟩

namespace Grown

variable {admits : CodeEntry → Prop} {map before middle after : CodeMap}

/-- A map of the same entries. -/
theorem of_arena (indexed : Indexed after) (same : after.arena = before.arena) :
    Grown admits before after where
  indexed := indexed
  size := Nat.le_of_eq (congrArg Array.size same).symm
  kept id _ := by
    rw [CodeMap.entry, CodeMap.entry, same]
    exact .refl _
  fresh id from_ below := absurd below (by rw [same]; omega)

theorem refl (indexed : Indexed map) : Grown admits map map :=
  of_arena indexed rfl

theorem trans (left : Grown admits before middle) (right : Grown admits middle after) :
    Grown admits before after where
  indexed := right.indexed
  size := Nat.le_trans left.size right.size
  kept id stored :=
    (left.kept id stored).trans (right.kept id (Nat.lt_of_lt_of_le stored left.size))
  fresh id from_ below := by
    by_cases old : id.index < middle.arena.size
    · obtain ⟨new, admitted, kept⟩ := left.fresh id from_ old
      exact ⟨new, admitted, kept.trans (right.kept id old)⟩
    · exact right.fresh id (Nat.le_of_not_lt old) below

/-- The entries behind ids after one more has been stored. -/
theorem entry_push (arena : Array CodeEntry) (new : CodeEntry) (id : CodeId) :
    (arena.push new).getD id.index default =
      if id.index = arena.size then new else arena.getD id.index default := by
  rw [Array.getD_eq_getD_getElem?, Array.getElem?_push, Array.getD_eq_getD_getElem?]
  split <;> rfl

/-- One more entry has been stored, wherever it is indexed. -/
theorem of_push {new : CodeEntry} (indexed : Indexed after)
    (pushed : after.arena = before.arena.push new) (admitted : admits new) :
    Grown admits before after where
  indexed := indexed
  size := by simp [pushed]
  kept id stored := by
    rw [CodeMap.entry, CodeMap.entry, pushed, entry_push, if_neg (Nat.ne_of_lt stored)]
    exact .refl _
  fresh id from_ below := by
    rw [pushed, Array.size_push] at below
    refine ⟨new, admitted, ?_⟩
    rw [CodeMap.entry, pushed, entry_push, if_pos (by omega)]
    exact .refl new

/-- A change of an entry that leaves it what it is. -/
theorem modifyEntry (indexed : Indexed map) (id : CodeId) {change : CodeEntry → CodeEntry}
    (keeps : (map.entry id).Kept (change (map.entry id))) :
    Grown admits map (map.modifyEntry id change) where
  indexed := indexed.modifyEntry id change
  size := by simp [CodeMap.modifyEntry]
  kept other stored := by
    rw [entry_modifyEntry]
    split
    · rename_i same
      rwa [same.1]
    · exact .refl _
  fresh other from_ below := by
    simp only [CodeMap.modifyEntry, Array.size_modify] at below
    omega

/-! ### Operations -/

theorem numberName (indexed : Indexed map) (id : CodeId) :
    Grown admits map (map.numberName id) := by
  by_cases settled : (map.entry id).numbered || (map.entry id).name.isEmpty
  · rw [CodeMap.numberName, if_pos settled]
    exact refl indexed
  · rw [CodeMap.numberName, if_neg settled]
    simp only [Bool.or_eq_true, not_or, Bool.not_eq_true] at settled
    have given : (map.names.next (map.entry id).name).1 = (map.entry id).name ∨
        ∃ count : Nat, (map.names.next (map.entry id).name).1 =
          (map.entry id).name ++ " \x7b" ++ toString count ++ "\x7d" := by
      dsimp only [NameSupply.next]
      split
      · exact .inl rfl
      · rename_i count _
        exact .inr ⟨count + 1, rfl⟩
    have renamed : Grown admits map (map.modifyEntry id fun entry =>
        { entry with name := (map.names.next (map.entry id).name).1, numbered := true }) :=
      modifyEntry indexed id ⟨⟨rfl, rfl, rfl⟩, .inr ⟨settled.1, settled.2, rfl, given⟩⟩
    exact renamed.trans (of_arena (renamed.indexed.withNames _) rfl)

theorem addDetached (indexed : Indexed map) {new : CodeEntry} (admitted : admits new) :
    Grown admits map (map.addDetached new).2 :=
  of_push (indexed.addDetached new) rfl admitted

theorem addLibrary (indexed : Indexed map) (start : UInt64) {new : CodeEntry}
    (admitted : admits new) : Grown admits map (map.addLibrary start new).2 :=
  of_push (indexed.addLibrary start new) rfl admitted

theorem addStaticCode (indexed : Indexed map) (start : UInt64) {new : CodeEntry}
    (admitted : admits new) : Grown admits map (map.addStaticCode start new).2 :=
  of_push (indexed.addStaticCode start new) rfl admitted

theorem arena_placeCode (indexed : Indexed map) (start size : UInt64) (id : CodeId) :
    (map.placeCode start size id).arena = map.arena := by
  obtain ⟨_, places, -⟩ := exists_placeCode start size id indexed.dynamics
  rw [places]

theorem addCode (indexed : Indexed map) (start : UInt64) {new : CodeEntry}
    (admitted : admits new) : Grown admits map (map.addCode start new).2 :=
  of_push (indexed.addCode start new)
    (arena_placeCode (indexed.addDetached new) start new.size _) admitted

theorem moveCode (indexed : Indexed map) (source target : UInt64) :
    Grown admits map (map.moveCode source target).2 := by
  obtain ⟨dynamics, moved⟩ := indexed.exists_dynamics_moveCode source target
  exact of_arena (indexed.moveCode source target) (by rw [moved])

theorem deleteCode (indexed : Indexed map) (start : UInt64) :
    Grown admits map (map.deleteCode start).2 :=
  of_arena (indexed.trim (indexed.trimmed_deleteCode start)) rfl

theorem dynamicAt (indexed : Indexed map) (start : UInt64) :
    Grown admits map (map.dynamicAt start).2 :=
  of_arena (indexed.trim (indexed.trimmed_dynamicAt start)) rfl

theorem retainDynamic (indexed : Indexed map) (keep : UInt64 → CodeId → CodeEntry → Bool) :
    Grown admits map (map.retainDynamic keep).2 :=
  of_arena (indexed.trim (indexed.trimmed_retainDynamicWith
    (fun _ start id entry => (keep start id entry, ())) ())) rfl

theorem foldl_modifyEntry (ids : List CodeId) {change : CodeEntry → CodeEntry}
    (keeps : ∀ entry : CodeEntry, entry.Kept (change entry)) {map : CodeMap}
    (indexed : Indexed map) :
    Grown admits map (ids.foldl (fun map id => map.modifyEntry id change) map) := by
  induction ids generalizing map with
  | nil => exact refl indexed
  | cons id ids inductionHypothesis =>
    exact trans (modifyEntry indexed id (keeps _))
      (inductionHypothesis (indexed.modifyEntry id change))

/-! ### Lookups -/

/-- A lookup rearranges indices and numbers a name at most. -/
theorem findAddress (indexed : Indexed map) (address : UInt64) :
    Grown admits map (map.findAddress address).2 := by
  have lookedUp := indexed.trim (indexed.trimmed_findAddress address)
  obtain ⟨dynamics, finds, valid, same⟩ := exists_findIn map.arena indexed.dynamics address
  have searched := indexed.trim (indexed.trimmed_drop (.of_same valid same))
  revert lookedUp
  unfold CodeMap.findAddress
  split
  · split <;> exact fun lookedUp => of_arena lookedUp rfl
  · split
    · exact fun lookedUp => of_arena lookedUp rfl
    · rw [finds]
      cases locatedIn map.arena map.dynamics.toList address with
      | none => exact fun lookedUp => of_arena lookedUp rfl
      | some located =>
        have rearranged : Grown admits map { map with dynamics } := of_arena searched rfl
        exact fun _ => rearranged.trans (numberName searched located.id)

theorem inlinedFrame (indexed : Indexed map) (scriptId : UInt32) (scriptOffset : UInt64)
    (address? : Option UInt64) :
    Grown admits map (map.inlinedFrame scriptId scriptOffset address?).2 := by
  cases address? with
  | none => exact refl indexed
  | some address =>
    have searched : Grown admits map (map.dynamicAt address).2 := dynamicAt indexed address
    revert searched
    rw [CodeMap.inlinedFrame]
    rcases map.dynamicAt address with ⟨_ | function, after⟩ <;> exact id

theorem inlinedFrames (indexed : Indexed map) (source : SourceInfo) (steps : Nat)
    (scriptOffset : UInt64) (inliningId : Option Nat) :
    Grown admits map (map.inlinedFrames source steps scriptOffset inliningId).2 := by
  induction steps generalizing map scriptOffset inliningId with
  | zero =>
    rw [CodeMap.inlinedFrames.eq_def]
    cases inliningId.bind (source.inlining[·]?) <;> exact refl indexed
  | succ steps inductionHypothesis =>
    rw [CodeMap.inlinedFrames.eq_def]
    cases inliningId.bind (source.inlining[·]?) with
    | none => exact refl indexed
    | some call =>
      have found : Grown admits map _ := inlinedFrame indexed source.scriptId scriptOffset
        source.inlinedFunctions[call.functionIndex]?
      exact found.trans (inductionHypothesis found.indexed call.scriptOffset call.parent)

theorem expandFrame (indexed : Indexed map) (located : Located) (isReturnAddress : Bool) :
    Grown admits map (map.expandFrame? located isReturnAddress).2 := by
  simp only [CodeMap.expandFrame?]
  split
  · exact refl indexed
  · split
    · exact refl indexed
    · exact inlinedFrames indexed _ _ _ _

end Grown

end CodeMap

end JitTrace
