import JitTrace.Proofs.Code.Indexed

/-!
# Runs of code map operations

In every code map that operations can build, the ranges of generated code lie apart
and a lookup finds exactly the code whose range holds the address. A range runs from
the start of an entry up to, and without, `rangeEnd`.
-/

namespace JitTrace.CodeMap

open SplayTree (Valid nearest?)

/-- Code without range is placed strictly inside no range but its own. -/
def Operation.Admissible (map : CodeMap) : Operation → Prop
  | .addCode start entry =>
    rangeEnd start entry.size ≤ start → Clear map.arena map.dynamics.toList start
  | .moveCode source target =>
    ∀ id, (source, id) ∈ map.dynamics.toList →
      rangeEnd target (map.entry id).size ≤ target →
        Clear map.arena (map.dynamics.toList.filter (·.1 ≠ source)) target
  | _ => True

/-- The code maps that admissible operations build from the empty one. -/
inductive Reachable : CodeMap → Prop where
  | empty : Reachable .empty
  | perform {map : CodeMap} (operation : Operation) (reachable : Reachable map)
      (admissible : operation.Admissible map) : Reachable (operation.perform map)

/-- What is true of every code map in use. -/
structure Sound (map : CodeMap) : Prop extends Indexed map where
  apart : Apart map.arena map.dynamics.toList

theorem sound_empty : Sound .empty :=
  ⟨indexed_empty, fun _ inside => absurd inside List.not_mem_nil⟩

/-! ## Operations -/

section Operations

variable {map : CodeMap}

/-- Entries lie apart as long as their ranges stay the same. -/
theorem Apart.congr {arena other : Array CodeEntry} {entries : List (UInt64 × CodeId)}
    (apart : Apart arena entries)
    (same : ∀ entry ∈ entries, stopOf other entry = stopOf arena entry) :
    Apart other entries := by
  intro first inFirst second inSecond less
  rw [same first inFirst]
  exact apart first inFirst second inSecond less

namespace Sound

theorem trim (sound : Sound map) {after : CodeMap} (trimmed : Trimmed map after) : Sound after :=
  ⟨sound.toIndexed.trim trimmed,
    (sound.apart.congr fun entry _ => trimmed.stops entry).of_subset trimmed.dynamics.subset⟩

/-- Storing an entry that no address leads to. -/
theorem addDetached (sound : Sound map) (entry : CodeEntry) :
    Sound { map with arena := map.arena.push entry } :=
  ⟨sound.toIndexed.addDetached entry,
    sound.apart.congr fun other inside => stopOf_push entry (sound.dynamicsStored other inside)⟩

/-- Placing stored code where it is clear. -/
theorem placeCode (sound : Sound map) (start : UInt64) (id : CodeId)
    (stored : id.index < map.arena.size)
    (clear : stopOf map.arena (start, id) ≤ start →
      Clear map.arena map.dynamics.toList start) :
    Sound (map.placeCode start (map.entry id).size id) := by
  obtain ⟨placed, places, -, -, mem_placed⟩ :=
    exists_placeCode start (map.entry id).size id sound.dynamics
  refine ⟨sound.toIndexed.placeCode start _ stored, ?_⟩
  rw [places]
  exact sound.apart.of_placed (mem_placed sound.apart) clear

theorem addLibrary (sound : Sound map) (start : UInt64) (entry : CodeEntry) :
    Sound (map.addLibrary start entry).2 :=
  ⟨sound.toIndexed.addLibrary start entry, (sound.addDetached entry).apart⟩

theorem addStaticCode (sound : Sound map) (start : UInt64) (entry : CodeEntry) :
    Sound (map.addStaticCode start entry).2 :=
  ⟨sound.toIndexed.addStaticCode start entry, (sound.addDetached entry).apart⟩

theorem addCode (sound : Sound map) {start : UInt64} {entry : CodeEntry}
    (clear : rangeEnd start entry.size ≤ start → Clear map.arena map.dynamics.toList start) :
    Sound (map.addCode start entry).2 := by
  have size : (({ map with arena := map.arena.push entry } : CodeMap).entry
      ⟨map.arena.size⟩).size = entry.size := by
    simp [CodeMap.entry, Array.getD_eq_getD_getElem?]
  have stored : map.arena.size < (map.arena.push entry).size := by simp
  have placed := (sound.addDetached entry).placeCode start ⟨map.arena.size⟩ stored (by
      rw [stopOf_push_self]
      intro empty other inside
      rw [stopOf_push entry (sound.dynamicsStored other inside)]
      exact clear empty other inside)
  rw [size] at placed
  exact placed

theorem moveCode (sound : Sound map) {source target : UInt64}
    (clear : ∀ id, (source, id) ∈ map.dynamics.toList →
      rangeEnd target (map.entry id).size ≤ target →
        Clear map.arena (map.dynamics.toList.filter (·.1 ≠ source)) target) :
    Sound (map.moveCode source target).2 := by
  obtain ⟨dynamics, fewer, remaining, ⟨-, -, moved⟩ | ⟨id, inside, moved⟩⟩ :=
    sound.toIndexed.moveCode_cases source target
  · rw [moved]
    exact sound.trim (sound.toIndexed.trimmed_drop fewer)
  · rw [moved]
    refine (sound.trim (sound.toIndexed.trimmed_drop fewer)).placeCode target id
      (sound.dynamicsStored _ inside) fun empty other otherInside => ?_
    exact clear id inside empty other (by simpa using (remaining other).mp otherInside)

end Sound

end Operations

/-! ## Lookups -/

section Lookups

variable {map : CodeMap}

/-- Among entries that lie apart, the one located is the one whose range holds the
address. -/
theorem locatedIn_eq_some {arena : Array CodeEntry} {entries : List (UInt64 × CodeId)}
    (ascending : AddressIndex.Ascending entries) (apart : Apart arena entries)
    {address : UInt64} {id : CodeId} {start offset : UInt64} :
    locatedIn arena entries address = some ⟨id, start, offset⟩ ↔
      (start, id) ∈ entries ∧ start ≤ address ∧ address < stopOf arena (start, id) ∧
        offset = address - start := by
  constructor
  · intro found
    obtain ⟨⟨_, _⟩, nearest, holds⟩ := Option.bind_eq_some_iff.mp found
    obtain ⟨inside, -, -⟩ := AddressIndex.nearest?_eq_some ascending nearest
    split at holds
    · rename_i within
      cases holds
      exact ⟨inside, within.1, within.2, rfl⟩
    · contradiction
  · rintro ⟨inside, starts, ends, rfl⟩
    cases nearest : nearest? address (·.isLE) .left entries with
    | none =>
      have above := AddressIndex.lt_of_nearest?_none nearest _ inside
      exact absurd starts (UInt64.not_le.mpr above)
    | some entry =>
      obtain ⟨entryInside, below, others⟩ := AddressIndex.nearest?_eq_some ascending nearest
      -- An entry in between would start inside the range.
      rcases others _ inside starts with rfl | less
      · simp [locatedIn, nearest, starts, ends]
      · have apartFrom := apart _ inside entry entryInside less
        exact absurd ends (UInt64.not_lt.mpr (UInt64.le_trans apartFrom below))

/-- Nothing is located exactly when no range holds the address. -/
theorem locatedIn_eq_none {arena : Array CodeEntry} {entries : List (UInt64 × CodeId)}
    (ascending : AddressIndex.Ascending entries) (apart : Apart arena entries)
    {address : UInt64} :
    locatedIn arena entries address = none ↔
      ∀ entry ∈ entries, ¬(entry.1 ≤ address ∧ address < stopOf arena entry) := by
  constructor
  · rintro nothing ⟨start, id⟩ inside ⟨starts, ends⟩
    have found := (locatedIn_eq_some ascending apart).mpr ⟨inside, starts, ends, rfl⟩
    simp [nothing] at found
  · intro nowhere
    cases found : locatedIn arena entries address with
    | none => rfl
    | some located =>
      obtain ⟨id, start, offset⟩ := located
      obtain ⟨inside, starts, ends, -⟩ := (locatedIn_eq_some ascending apart).mp found
      exact absurd ⟨starts, ends⟩ (nowhere _ inside)

/-- A lookup of an address on no page of a library locates it among the live code. -/
theorem Sound.findAddress_unmarked (sound : Sound map) {address : UInt64}
    (unmarked : map.isMarked address = false) :
    (map.findAddress address).1 = locatedIn map.arena map.dynamics.toList address :=
  (sound.toIndexed.findAddress_eq_lookup? address).trans
    (sound.toIndexed.lookup?_unmarked unmarked)

end Lookups

/-! ## Runs -/

/-- An admissible operation keeps a code map sound. -/
theorem Sound.perform {map : CodeMap} (sound : Sound map) (operation : Operation)
    (admissible : operation.Admissible map) : Sound (operation.perform map) := by
  cases operation with
  | addLibrary start entry => exact sound.addLibrary start entry
  | addStaticCode start entry => exact sound.addStaticCode start entry
  | addCode start entry => exact sound.addCode admissible
  | moveCode source target => exact sound.moveCode admissible
  | deleteCode start => exact sound.trim (sound.toIndexed.trimmed_deleteCode start)
  | retainDynamic keep state =>
    exact sound.trim (sound.toIndexed.trimmed_retainDynamicWith keep state)
  | findAddress address => exact sound.trim (sound.toIndexed.trimmed_findAddress address)
  | dynamicAt start => exact sound.trim (sound.toIndexed.trimmed_dynamicAt start)

/-- Every reachable code map is sound. -/
theorem Reachable.sound {map : CodeMap} (reachable : Reachable map) : Sound map := by
  induction reachable with
  | empty => exact sound_empty
  | perform operation _ admissible inductionHypothesis =>
    exact inductionHypothesis.perform operation admissible

/-- In every reachable code map the ranges of live code lie apart, and a lookup of an
address on no page of a library finds the live code whose range holds it, and nothing
when there is none. -/
theorem Reachable.lookup_exact {map : CodeMap} (reachable : Reachable map) :
    (∀ first ∈ map.dynamics.toList, ∀ second ∈ map.dynamics.toList, first.1 < second.1 →
      rangeEnd first.1 (map.entry first.2).size ≤ second.1) ∧
    ∀ address, map.isMarked address = false →
      (∀ id start offset, (map.findAddress address).1 = some ⟨id, start, offset⟩ ↔
        (start, id) ∈ map.dynamics.toList ∧ start ≤ address ∧
          address < rangeEnd start (map.entry id).size ∧ offset = address - start) ∧
      ((map.findAddress address).1 = none ↔ ∀ entry ∈ map.dynamics.toList,
        ¬(entry.1 ≤ address ∧ address < rangeEnd entry.1 (map.entry entry.2).size)) := by
  have sound := reachable.sound
  have ascending := AddressIndex.ascending_of_valid sound.dynamics
  refine ⟨sound.apart, fun address unmarked => ?_⟩
  rw [sound.findAddress_unmarked unmarked]
  exact ⟨fun _ _ _ => locatedIn_eq_some ascending sound.apart,
    locatedIn_eq_none ascending sound.apart⟩

/-- Two pieces of code, the first of which is then moved over the second from within
its own range. -/
def movedMap : CodeMap :=
  let code := CodeEntry.dynamic 0x20 "f" "JS"
  [.addCode 0x1000 code, .addCode 0x1028 code, .moveCode 0x1000 0x1010].foldl Operation.perform
    .empty

theorem reachable_movedMap : Reachable movedMap := by
  refine .perform (.moveCode 0x1000 0x1010) (.perform (.addCode 0x1028 _) (.perform
    (.addCode 0x1000 _) .empty ?_) ?_) ?_
  · exact fun empty => absurd empty (by decide)
  · exact fun empty => absurd empty (by decide)
  · rintro id inside empty
    obtain rfl : id = ⟨0⟩ := by
      have listed : ((0x1000, id) : UInt64 × CodeId) ∈
          [(0x1000, (⟨0⟩ : CodeId)), (0x1028, ⟨1⟩)] := by
        convert inside using 1
        decide +kernel
      simpa using listed
    exact absurd empty (by decide +kernel)

/-- The code that was moved is found at its new place alone. -/
theorem lookup_exact_movedMap :
    Reachable movedMap ∧ movedMap.isMarked 0x1018 = false ∧
      (movedMap.findAddress 0x1018).1 = some ⟨⟨0⟩, 0x1010, 0x8⟩ := by
  have unmarked : movedMap.isMarked 0x1018 = false := by decide +kernel
  have exact := reachable_movedMap.lookup_exact.2 0x1018 unmarked
  exact ⟨reachable_movedMap, unmarked, (exact.1 _ _ _).mpr (by decide +kernel)⟩

end JitTrace.CodeMap
