import JitTrace.Proofs.Code.Detached

/-!
# The pages of libraries

The page of an address decides whether a lookup asks the libraries with their symbols or the
generated code. All pages that the range of a library touches are marked when it is registered,
and no mark is ever taken back, so an address in the range of a library is never taken for
one of generated code, whatever generated code has been placed there.
-/

namespace JitTrace.CodeMap

open SplayTree (nearest?)

variable {map after : CodeMap} {start stop address : UInt64}

/-! ## Pages -/

/-- The address lies on a page that `[start, stop)` touches. An empty range touches the page
that it starts on. -/
def OnPages (start stop address : UInt64) : Prop :=
  pageOf start ≤ pageOf address ∧
    pageOf address ≤ pageOf (max (Number.saturatingSub stop 1) start)

instance (start stop address : UInt64) : Decidable (OnPages start stop address) :=
  inferInstanceAs (Decidable (_ ∧ _))

/-- Pages are in the order of their addresses. -/
theorem pageOf_mono {low high : UInt64} (ordered : low ≤ high) : pageOf low ≤ pageOf high := by
  rw [UInt64.le_iff_toNat_le] at ordered ⊢
  rw [pageOf, pageOf, UInt64.toNat_shiftRight, UInt64.toNat_shiftRight, Nat.shiftRight_eq_div_pow,
    Nat.shiftRight_eq_div_pow]
  exact Nat.div_le_div_right ordered

/-- A range that ends later touches no fewer pages. -/
theorem OnPages.mono (on : OnPages start stop address) {later : UInt64} (ends : stop ≤ later) :
    OnPages start later address := by
  refine ⟨on.1, UInt64.le_trans on.2 (pageOf_mono ?_)⟩
  rw [UInt64.le_iff_toNat_le] at ends
  rw [UInt64.le_iff_toNat_le, UInt64.toNat_max, UInt64.toNat_max, Number.toNat_saturatingSub,
    Number.toNat_saturatingSub]
  omega

/-- A library is registered with all its pages. -/
theorem isMarked_addLibrary (map : CodeMap) (start address : UInt64) (entry : CodeEntry) :
    (map.addLibrary start entry).2.isMarked address = true ↔
      OnPages start (rangeEnd start entry.size) address ∨ map.isMarked address = true := by
  simp [addLibrary, addDetached, markPages, isMarked, OnPages]

/-! ## Operations -/

namespace Indexed

/-- A lookup leaves the contents of the indices and the pages alone. -/
theorem sameIndices_findAddress (indexed : Indexed map) (address : UInt64) :
    SameIndices map (map.findAddress address).2 := by
  obtain ⟨searched, alike, finds⟩ := indexed.exists_findAddress address
  have same := SameIndices.of_alike alike
  rw [finds]
  split
  · exact same
  · cases map.lookup? address with
    | none => exact same
    | some located => exact same.numberName located.id

/-- Libraries and pages change only when a library is registered. -/
theorem libraries_perform (indexed : Indexed map) (operation : Operation)
    (noLibrary : ∀ start entry, operation ≠ .addLibrary start entry) :
    (operation.perform map).libraries.toList = map.libraries.toList ∧
      (operation.perform map).pages = map.pages := by
  cases operation with
  | addLibrary start entry => exact absurd rfl (noLibrary start entry)
  | addCode start entry =>
    obtain ⟨dynamics, added⟩ := indexed.exists_dynamics_addCode start entry
    rw [Operation.perform, added]
    exact ⟨rfl, rfl⟩
  | moveCode source target =>
    obtain ⟨dynamics, moved⟩ := indexed.exists_dynamics_moveCode source target
    rw [Operation.perform, moved]
    exact ⟨rfl, rfl⟩
  | findAddress address =>
    have same := indexed.sameIndices_findAddress address
    exact ⟨same.libraries, same.pages⟩
  | _ => exact ⟨rfl, rfl⟩

/-- Operations leave the ranges of stored entries alone. -/
theorem stopOf_perform (indexed : Indexed map) (operation : Operation)
    {entry : UInt64 × CodeId} (stored : entry.2.index < map.arena.size) :
    stopOf (operation.perform map).arena entry = stopOf map.arena entry := by
  by_cases lookup : ∃ address, operation = .findAddress address
  · obtain ⟨address, rfl⟩ := lookup
    exact (indexed.trimmed_findAddress address).stops entry
  · obtain ⟨-, arena⟩ := indexed.stores_perform operation fun address isLookup =>
      lookup ⟨address, isLookup⟩
    rw [arena]
    cases operation.registration? with
    | none => rfl
    | some registration => exact stopOf_push registration.entry stored

end Indexed

/-- All pages that the range of a library touches are routed to the libraries. -/
def LibrariesMarked (map : CodeMap) : Prop :=
  ∀ entry ∈ map.libraries.toList, ∀ address, OnPages entry.1 (stopOf map.arena entry) address →
    map.isMarked address = true

namespace LibrariesMarked

/-- Other libraries come with their pages, and the old ones keep their ranges and pages. -/
theorem of_pages (marked : LibrariesMarked map)
    (libraries : ∀ entry ∈ after.libraries.toList, entry ∉ map.libraries.toList →
      ∀ address, OnPages entry.1 (stopOf after.arena entry) address →
        after.isMarked address = true)
    (stops : ∀ entry ∈ map.libraries.toList, stopOf after.arena entry = stopOf map.arena entry)
    (pages : ∀ address, map.isMarked address = true → after.isMarked address = true) :
    LibrariesMarked after := by
  intro entry inside address on
  by_cases old : entry ∈ map.libraries.toList
  · rw [stops entry old] at on
    exact pages address (marked entry old address on)
  · exact libraries entry inside old address on

theorem addLibrary (marked : LibrariesMarked map) (indexed : Indexed map) (start : UInt64)
    (entry : CodeEntry) : LibrariesMarked (map.addLibrary start entry).2 := by
  refine marked.of_pages (fun other inside new address on => ?_)
    (fun other inside => stopOf_push entry (indexed.librariesStored other inside))
    fun address old => (isMarked_addLibrary map start address entry).mpr (.inr old)
  obtain ⟨libraries, inserts, -, contents⟩ :=
    indexed.libraries.exists_insert start (⟨map.arena.size⟩ : CodeId)
  change other ∈ (map.libraries.insert start ⟨map.arena.size⟩).2.toList at inside
  rw [inserts, contents] at inside
  obtain rfl := (AddressIndex.of_mem_inserted inside).resolve_left new
  have stops : stopOf (map.addLibrary start entry).2.arena (start, ⟨map.arena.size⟩) =
      rangeEnd start entry.size := stopOf_push_self map.arena entry start
  rw [stops] at on
  exact (isMarked_addLibrary map start address entry).mpr (.inl on)

theorem perform (marked : LibrariesMarked map) (indexed : Indexed map) (operation : Operation) :
    LibrariesMarked (operation.perform map) := by
  by_cases registers : ∃ start entry, operation = .addLibrary start entry
  · obtain ⟨start, entry, rfl⟩ := registers
    exact marked.addLibrary indexed start entry
  · obtain ⟨libraries, pages⟩ := indexed.libraries_perform operation fun start entry isLibrary =>
      registers ⟨start, entry, isLibrary⟩
    refine marked.of_pages (fun other inside new => absurd (libraries ▸ inside) new)
      (fun other inside => indexed.stopOf_perform operation (indexed.librariesStored other inside))
      fun address old => ?_
    rwa [isMarked, pages]

end LibrariesMarked

/-- The code maps in use: they are built as any others are, but stored entries are changed
without changing their sizes. -/
inductive InUse : CodeMap → Prop
  | empty : InUse .empty
  | perform {map : CodeMap} (operation : Operation) : InUse map → InUse (operation.perform map)
  | addDetached {map : CodeMap} (entry : CodeEntry) : InUse map → InUse (map.addDetached entry).2
  | modifyEntry {map : CodeMap} (id : CodeId) (change : CodeEntry → CodeEntry) :
    (change (map.entry id)).size = (map.entry id).size → InUse map →
      InUse (map.modifyEntry id change)

theorem InUse.built (inUse : InUse map) : Built map := by
  induction inUse with
  | empty => exact .empty
  | perform operation _ built => exact .perform operation built
  | addDetached entry _ built => exact .addDetached entry built
  | modifyEntry id change _ _ built => exact .modifyEntry id change built

theorem stopOf_modifyEntry {id : CodeId} {change : CodeEntry → CodeEntry}
    (sameSize : (change (map.entry id)).size = (map.entry id).size) (entry : UInt64 × CodeId) :
    stopOf (map.modifyEntry id change).arena entry = stopOf map.arena entry := by
  have sizes : ((map.modifyEntry id change).entry entry.2).size = (map.entry entry.2).size := by
    rw [entry_modifyEntry]
    split
    · simp [*]
    · rfl
  exact congrArg (rangeEnd entry.1) sizes

theorem InUse.librariesMarked (inUse : InUse map) : LibrariesMarked map := by
  induction inUse with
  | empty => exact fun _ inside => absurd inside List.not_mem_nil
  | perform operation inUse marked => exact marked.perform inUse.built.indexed operation
  | addDetached entry inUse marked =>
    exact marked.of_pages (fun _ inside new => absurd inside new)
      (fun other inside => stopOf_push entry (inUse.built.indexed.librariesStored other inside))
      fun _ old => old
  | modifyEntry id change sameSize _ marked =>
    exact marked.of_pages (fun _ inside new => absurd inside new)
      (fun other _ => stopOf_modifyEntry sameSize other) fun _ old => old

/-! ## Lookups -/

section Located

variable {arena : Array CodeEntry} {entries : List (UInt64 × CodeId)} {entry : UInt64 × CodeId}

end Located

end JitTrace.CodeMap
