import JitTrace.Proofs.Code.Lookup

/-!
# Entries that no address leads to

A profile works on its code map by operations and by changes of entries that an address
leads to. An entry to which no address leads is out of reach for both: it stays as it is,
and no address ever comes to lead to it.
-/

namespace JitTrace.CodeMap

variable {map before middle after : CodeMap} {id : CodeId}

/-- One of the indices leads from an address to an entry. -/
def Leads (map : CodeMap) (id : CodeId) : Prop :=
  ∃ start, (start, id) ∈ map.dynamics.toList ∨ (start, id) ∈ map.statics.toList ∨
    (start, id) ∈ map.libraries.toList

/-- An entry as it is registered, and whether it is registered as generated code. -/
structure Registration where
  entry : CodeEntry
  generated : Bool

/-- What an operation registers. -/
def Operation.registration? : Operation → Option Registration
  | .addCode _ entry => some ⟨entry, true⟩
  | .addStaticCode _ entry => some ⟨entry, false⟩
  | .addLibrary _ entry => some ⟨entry, false⟩
  | _ => none

/-- A map is worked on by operations, and by changes of entries that addresses lead to. Entries
are registered without a source mapping, and get only such as are admitted. -/
inductive Worked (admits : SourceInfo → Prop) (before : CodeMap) : CodeMap → Prop
  | refl : Worked admits before before
  | perform {map : CodeMap} (operation : Operation)
    (unmapped : operation.registration?.all (·.entry.source.isNone) = true) :
    Worked admits before map → Worked admits before (operation.perform map)
  | modifyEntry {map : CodeMap} {id : CodeId} (change : CodeEntry → CodeEntry)
    (maps : ∀ entry source, (change entry).source = some source →
      entry.source = some source ∨ admits source) :
    map.Leads id → Worked admits before map → Worked admits before (map.modifyEntry id change)

variable {admits : SourceInfo → Prop}

theorem Worked.trans (first : Worked admits before middle) (second : Worked admits middle after) :
    Worked admits before after := by
  induction second with
  | refl => exact first
  | perform operation unmapped _ worked => exact .perform operation unmapped worked
  | modifyEntry change maps leads _ worked => exact .modifyEntry change maps leads worked

theorem Worked.indexed (worked : Worked admits before after) (indexed : Indexed before) :
    Indexed after := by
  induction worked with
  | refl => exact indexed
  | perform operation _ _ indexed => exact indexed.perform operation
  | modifyEntry change _ _ _ indexed => exact indexed.modifyEntry _ change

/-! ## Operations -/

/-- The index of generated code leads from an address to an entry, or one of the others does. -/
def Lists (map : CodeMap) (generated : Bool) (id : CodeId) : Prop :=
  match generated with
  | true => ∃ start, (start, id) ∈ map.dynamics.toList
  | false => ∃ start, (start, id) ∈ map.statics.toList ∨ (start, id) ∈ map.libraries.toList

theorem leads_iff : map.Leads id ↔ ∃ generated, map.Lists generated id := by
  constructor
  · rintro ⟨start, inDynamics | fixed⟩
    · exact ⟨true, start, inDynamics⟩
    · exact ⟨false, start, fixed⟩
  · rintro ⟨_ | _, start, listed⟩
    · exact ⟨start, .inr listed⟩
    · exact ⟨start, .inl listed⟩

/-- What the trimmed map lists, the map it comes from lists. -/
theorem Lists.of_trimmed {generated : Bool} (trimmed : Trimmed before after)
    (lists : after.Lists generated id) : before.Lists generated id := by
  cases generated with
  | true => exact lists.imp fun _ => trimmed.dynamics.subset _
  | false => exact lists.imp fun _ => .imp (trimmed.statics.subset _) (trimmed.libraries.subset _)

theorem Leads.of_trimmed (trimmed : Trimmed before after) (leads : after.Leads id) :
    before.Leads id := by
  obtain ⟨generated, lists⟩ := leads_iff.mp leads
  exact leads_iff.mpr ⟨generated, .of_trimmed trimmed lists⟩

namespace Indexed

/-- Placed code is the only entry that is newly listed. -/
theorem lists_placeCode (indexed : Indexed map) {start size : UInt64} {placed : CodeId}
    {generated : Bool} (lists : (map.placeCode start size placed).Lists generated id) :
    map.Lists generated id ∨ generated = true ∧ id = placed := by
  obtain ⟨dynamics, places, -, origin, -⟩ := exists_placeCode start size placed indexed.dynamics
  rw [places] at lists
  cases generated with
  | true =>
    obtain ⟨address, inDynamics⟩ := lists
    exact (origin _ inDynamics).symm.imp (fun old => ⟨address, old⟩)
      fun isPlaced => ⟨rfl, congrArg Prod.snd isPlaced⟩
  | false => exact .inl lists

/-- What is newly listed has just been registered, in the index where it is listed. -/
theorem lists_perform (indexed : Indexed map) (operation : Operation) {generated : Bool}
    (lists : (operation.perform map).Lists generated id) :
    map.Lists generated id ∨ ∃ registration ∈ operation.registration?,
      registration.generated = generated ∧ id = ⟨map.arena.size⟩ := by
  cases operation with
  | addLibrary start entry =>
    cases generated with
    | true => exact .inl lists
    | false =>
      obtain ⟨address, inStatics | inLibraries⟩ := lists
      · exact .inl ⟨address, .inl inStatics⟩
      · obtain ⟨_, inserts, -, contents⟩ :=
          indexed.libraries.exists_insert start ⟨map.arena.size⟩
        change _ ∈ (map.libraries.insert start ⟨map.arena.size⟩).2.toList at inLibraries
        rw [inserts, contents] at inLibraries
        exact (AddressIndex.of_mem_inserted inLibraries).imp (fun old => ⟨address, .inr old⟩)
          fun new => ⟨_, rfl, rfl, congrArg Prod.snd new⟩
  | addStaticCode start entry =>
    cases generated with
    | true => exact .inl lists
    | false =>
      obtain ⟨address, inStatics | inLibraries⟩ := lists
      · obtain ⟨_, inserts, -, contents⟩ :=
          indexed.statics.exists_insert start ⟨map.arena.size⟩
        change _ ∈ (map.statics.insert start ⟨map.arena.size⟩).2.toList at inStatics
        rw [inserts, contents] at inStatics
        exact (AddressIndex.of_mem_inserted inStatics).imp (fun old => ⟨address, .inl old⟩)
          fun new => ⟨_, rfl, rfl, congrArg Prod.snd new⟩
      · exact .inl ⟨address, .inr inLibraries⟩
  | addCode start entry =>
    refine ((indexed.addDetached entry).lists_placeCode lists).imp_right ?_
    rintro ⟨rfl, rfl⟩
    exact ⟨_, rfl, rfl, rfl⟩
  | moveCode source target =>
    refine .inl ?_
    obtain ⟨dynamics, fewer, -, ⟨-, -, moved⟩ | ⟨placed, inside, moved⟩⟩ :=
      indexed.moveCode_cases source target
    · have trimmed : Trimmed map (map.moveCode source target).2 :=
        (congrArg Prod.snd moved).symm ▸ indexed.trimmed_drop fewer
      exact .of_trimmed trimmed lists
    · rw [Operation.perform, moved] at lists
      have trimmed := indexed.trimmed_drop fewer
      rcases (indexed.trim trimmed).lists_placeCode lists with old | ⟨rfl, rfl⟩
      · exact .of_trimmed trimmed old
      · exact ⟨source, inside⟩
  | deleteCode start => exact .inl (.of_trimmed (indexed.trimmed_deleteCode start) lists)
  | retainDynamic keep state =>
    exact .inl (.of_trimmed (indexed.trimmed_retainDynamicWith keep state) lists)
  | findAddress address => exact .inl (.of_trimmed (indexed.trimmed_findAddress address) lists)
  | dynamicAt start => exact .inl (.of_trimmed (indexed.trimmed_dynamicAt start) lists)

/-- Addresses come to lead to new entries alone. -/
theorem leads_perform (indexed : Indexed map) (operation : Operation)
    (leads : (operation.perform map).Leads id) : map.Leads id ∨ id = ⟨map.arena.size⟩ := by
  obtain ⟨generated, lists⟩ := leads_iff.mp leads
  rcases indexed.lists_perform operation lists with old | ⟨-, -, -, new⟩
  · exact .inl (leads_iff.mpr ⟨generated, old⟩)
  · exact .inr new

/-- A lookup renames nothing but what an address leads to. -/
theorem entry_findAddress (indexed : Indexed map) (address : UInt64) (leadless : ¬map.Leads id) :
    (map.findAddress address).2.entry id = map.entry id := by
  obtain ⟨searched, alike, finds⟩ := indexed.exists_findAddress address
  have searchedEntry : searched.entry id = map.entry id := congrFun alike.entry_eq id
  rw [finds]
  cases marked : map.isMarked address with
  | true => exact searchedEntry
  | false =>
    cases found : map.lookup? address with
    | none => exact searchedEntry
    | some located =>
      have live := (indexed.live_of_lookup? marked found).1
      have other : id ≠ located.id := fun same => leadless ⟨located.start, .inl (same ▸ live)⟩
      change (searched.numberName located.id).entry id = _
      rcases numberName_cases searched located.id with same | ⟨name, names, numbered⟩
      · rw [same, searchedEntry]
      · rw [numbered]
        change (searched.modifyEntry located.id _).entry id = _
        rw [entry_modifyEntry, if_neg fun renamed => other renamed.1, searchedEntry]

/-- An operation that is no lookup stores what it registers and changes no entry and no name. -/
theorem stores_perform (indexed : Indexed map) (operation : Operation)
    (noLookup : ∀ address, operation ≠ .findAddress address) :
    (operation.perform map).names = map.names ∧
      (operation.perform map).arena =
        operation.registration?.elim map.arena (map.arena.push ·.entry) := by
  cases operation with
  | addCode start entry =>
    obtain ⟨dynamics, added⟩ := indexed.exists_dynamics_addCode start entry
    rw [Operation.perform, added]
    exact ⟨rfl, rfl⟩
  | moveCode source target =>
    obtain ⟨dynamics, moved⟩ := indexed.exists_dynamics_moveCode source target
    rw [Operation.perform, moved]
    exact ⟨rfl, rfl⟩
  | findAddress address => exact absurd rfl (noLookup address)
  | _ => exact ⟨rfl, rfl⟩

/-- An operation drops no entry, and leaves those alone to which no address leads. -/
theorem entry_perform (indexed : Indexed map) (operation : Operation)
    (stored : id.index < map.arena.size) (leadless : ¬map.Leads id) :
    id.index < (operation.perform map).arena.size ∧
      (operation.perform map).entry id = map.entry id := by
  by_cases lookup : ∃ address, operation = .findAddress address
  · obtain ⟨address, rfl⟩ := lookup
    exact ⟨(indexed.trimmed_findAddress address).size ▸ stored,
      indexed.entry_findAddress address leadless⟩
  · obtain ⟨-, arena⟩ := indexed.stores_perform operation fun address isLookup =>
      lookup ⟨address, isLookup⟩
    rw [CodeMap.entry, arena]
    cases operation.registration? with
    | none => exact ⟨stored, rfl⟩
    | some registration =>
      rw [Option.elim_some, Grown.entry_push, if_neg (Nat.ne_of_lt stored), Array.size_push]
      exact ⟨Nat.lt_succ_of_lt stored, rfl⟩

end Indexed

/-! ## Detached entries -/

/-- A stored entry to which no address leads. -/
structure Detached (map : CodeMap) (id : CodeId) : Prop where
  stored : id.index < map.arena.size
  leadless : ¬map.Leads id

/-- A detached entry stays as it is, and stays detached. -/
theorem Worked.detached (worked : Worked admits before after) (indexed : Indexed before)
    (detached : Detached before id) : Detached after id ∧ after.entry id = before.entry id := by
  induction worked with
  | refl => exact ⟨detached, rfl⟩
  | perform operation _ worked inductionHypothesis =>
    obtain ⟨⟨stored, leadless⟩, same⟩ := inductionHypothesis
    have stillIndexed := worked.indexed indexed
    obtain ⟨storedStill, unchanged⟩ := stillIndexed.entry_perform operation stored leadless
    refine ⟨⟨storedStill, fun leads => ?_⟩, unchanged.trans same⟩
    rcases stillIndexed.leads_perform operation leads with old | rfl
    · exact leadless old
    · exact Nat.lt_irrefl _ stored
  | modifyEntry change _ leads _ inductionHypothesis =>
    obtain ⟨⟨stored, leadless⟩, same⟩ := inductionHypothesis
    refine ⟨⟨Nat.lt_of_lt_of_eq stored Array.size_modify.symm, leadless⟩, ?_⟩
    rw [entry_modifyEntry, if_neg, same]
    rintro ⟨rfl, -⟩
    exact leadless leads

end JitTrace.CodeMap
