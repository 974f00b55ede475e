import JitTrace.Proofs.Code.LibraryPages

/-!
# Libraries registered again

Where a library is registered, the index of libraries takes no second one. The pages that the
second one would have are routed to the libraries all the same, so the generated code on them
is still live, and no lookup finds it any longer.
-/

namespace JitTrace.CodeMap

variable {map : CodeMap} {start address : UInt64} {library : CodeId}

/-- What lookups answer on the pages of libraries: a symbol, or else a library. -/
def nativeAt? (map : CodeMap) (address : UInt64) : Option Located :=
  (peekIn? map.arena map.statics address).or (peekIn? map.arena map.libraries address)

theorem lookup?_eq_nativeAt? (marked : map.isMarked address = true) :
    map.lookup? address = map.nativeAt? address :=
  if_pos marked

namespace Indexed

theorem nativeAt?_eq (indexed : Indexed map) (address : UInt64) :
    map.nativeAt? address = (locatedIn map.arena map.statics.toList address).or
      (locatedIn map.arena map.libraries.toList address) := by
  rw [nativeAt?, peekIn?_eq map.arena indexed.statics, peekIn?_eq map.arena indexed.libraries]

/-- An address holds the first library registered there. -/
theorem libraries_addLibrary_again (indexed : Indexed map)
    (taken : (start, library) ∈ map.libraries.toList) (entry : CodeEntry) :
    (map.addLibrary start entry).2.libraries.toList = map.libraries.toList := by
  obtain ⟨libraries, inserts, -, contents⟩ :=
    indexed.libraries.exists_insert start (⟨map.arena.size⟩ : CodeId)
  change (map.libraries.insert start ⟨map.arena.size⟩).2.toList = _
  rw [inserts, contents]
  exact AddressIndex.inserted_of_mem (AddressIndex.ascending_of_valid indexed.libraries) taken _

/-- Symbols and libraries are located as before. -/
theorem nativeAt?_addLibrary_again (indexed : Indexed map)
    (taken : (start, library) ∈ map.libraries.toList) (entry : CodeEntry) (address : UInt64) :
    (map.addLibrary start entry).2.nativeAt? address = map.nativeAt? address := by
  rw [(indexed.addLibrary start entry).nativeAt?_eq, indexed.nativeAt?_eq,
    indexed.libraries_addLibrary_again taken]
  exact congrArg₂ Option.or
    (locatedIn_push entry (AddressIndex.ascending_of_valid indexed.statics) indexed.staticsStored
      address)
    (locatedIn_push entry (AddressIndex.ascending_of_valid indexed.libraries)
      indexed.librariesStored address)

/-- Generated code is located as before where it is still asked. -/
theorem lookup?_addLibrary_unmarked (indexed : Indexed map) (start : UInt64) (entry : CodeEntry)
    (unmarked : map.isMarked address = false)
    (off : ¬OnPages start (rangeEnd start entry.size) address) :
    (map.addLibrary start entry).2.lookup? address = map.lookup? address := by
  have still : (map.addLibrary start entry).2.isMarked address = false := by
    rw [← Bool.not_eq_true]
    intro marked
    rcases (isMarked_addLibrary ..).mp marked with on | old
    · exact off on
    · simp [unmarked] at old
  rw [(indexed.addLibrary start entry).lookup?_unmarked still, indexed.lookup?_unmarked unmarked]
  exact locatedIn_push entry (AddressIndex.ascending_of_valid indexed.dynamics)
    indexed.dynamicsStored address

/-- The pages of the library that the index refuses lead to symbols and libraries, and all
other pages to where they led before. -/
theorem lookup?_addLibrary_again (indexed : Indexed map)
    (taken : (start, library) ∈ map.libraries.toList) (entry : CodeEntry) (address : UInt64) :
    (map.addLibrary start entry).2.lookup? address =
      if OnPages start (rangeEnd start entry.size) address then map.nativeAt? address
      else map.lookup? address := by
  have native (routed : OnPages start (rangeEnd start entry.size) address ∨
      map.isMarked address = true) :
      (map.addLibrary start entry).2.lookup? address = map.nativeAt? address :=
    (lookup?_eq_nativeAt? ((isMarked_addLibrary ..).mpr routed)).trans
      (indexed.nativeAt?_addLibrary_again taken entry address)
  split
  · next on => exact native (.inl on)
  · next off =>
    -- An address marked before has been answered with native code all along.
    cases marked : map.isMarked address with
    | true => rw [native (.inr marked), lookup?_eq_nativeAt? marked]
    | false => exact indexed.lookup?_addLibrary_unmarked start entry marked off

end Indexed

/-- A library registered where one is registered already leaves the index of libraries and the
generated code alone. Lookups answer as before, but for addresses on its pages that were not
routed to the libraries before: there they answer with native code, and lose the generated
code. -/
theorem Built.lookups_addLibrary_again (built : Built map)
    (taken : (start, library) ∈ map.libraries.toList) (entry : CodeEntry) (address : UInt64) :
    let after := (map.addLibrary start entry).2
    let rerouted :=
      map.isMarked address = false ∧ OnPages start (rangeEnd start entry.size) address
    after.libraries.toList = map.libraries.toList ∧ after.dynamics = map.dynamics ∧
      (¬rerouted → after.lookup? address = map.lookup? address ∧
        (after.findAddress address).1 = (map.findAddress address).1) ∧
      (rerouted → after.lookup? address = map.nativeAt? address ∧
        (after.findAddress address).1 = map.nativeAt? address) := by
  intro after rerouted
  have indexed := built.indexed
  have found := indexed.lookup?_addLibrary_again taken entry address
  rw [(indexed.addLibrary start entry).findAddress_eq_lookup?, indexed.findAddress_eq_lookup?,
    and_self, and_self]
  refine ⟨indexed.libraries_addLibrary_again taken entry, rfl, fun kept => ?_, fun lost => ?_⟩
  · rw [found]
    split
    · next on =>
      exact (lookup?_eq_nativeAt? (Bool.of_not_eq_false fun unmarked => kept ⟨unmarked, on⟩)).symm
    · rfl
  · rw [found, if_pos lost.2]

/-- A library on one page, and generated code on another page that is not far behind it. -/
def codeBehindLibrary : CodeMap :=
  run [.addLibrary 0x1000 (.plain 0x1000 "libx.so" CodeEntry.libraryType),
    .addCode 0x5000 (.dynamic 0x100 "f" "JS")]

/-- A greater library at the same address hides the code, which is still live. -/
theorem lookups_addLibrary_again_codeBehindLibrary :
    Built codeBehindLibrary ∧ (0x1000, ⟨0⟩) ∈ codeBehindLibrary.libraries.toList ∧
      codeBehindLibrary.lookup? 0x5010 = some ⟨⟨1⟩, 0x5000, 0x10⟩ ∧
      let after := (codeBehindLibrary.addLibrary 0x1000
        (.plain 0x8000 "libx.so" CodeEntry.libraryType)).2
      (0x5000, ⟨1⟩) ∈ after.dynamics.toList ∧
        after.lookup? 0x5010 = none ∧ (after.findAddress 0x5010).1 = none := by
  have built : Built codeBehindLibrary := built_run _
  have taken : ((0x1000, ⟨0⟩) : UInt64 × CodeId) ∈ codeBehindLibrary.libraries.toList := by
    decide +kernel
  have live : ((0x5000, ⟨1⟩) : UInt64 × CodeId) ∈ codeBehindLibrary.dynamics.toList := by
    decide +kernel
  have nothingNative : codeBehindLibrary.nativeAt? 0x5010 = none := by decide +kernel
  obtain ⟨-, dynamics, -, lost⟩ := built.lookups_addLibrary_again taken
    (.plain 0x8000 "libx.so" CodeEntry.libraryType) 0x5010
  obtain ⟨notLooked, notFound⟩ := lost (by decide +kernel)
  refine ⟨built, taken, by decide +kernel, ?_, notLooked.trans nothingNative,
    notFound.trans nothingNative⟩
  rw [dynamics]
  exact live

/-- Libraries that are refused change what lookups answer. -/
theorem lookups_addLibrary_again_differ :
    ¬∀ (map : CodeMap) (start address : UInt64) (library : CodeId) (entry : CodeEntry),
      Built map → (start, library) ∈ map.libraries.toList →
        (map.addLibrary start entry).2.lookup? address = map.lookup? address ∧
          ((map.addLibrary start entry).2.findAddress address).1 =
            (map.findAddress address).1 := by
  intro unchanged
  have same := (unchanged codeBehindLibrary 0x1000 0x5010 ⟨0⟩
    (.plain 0x8000 "libx.so" CodeEntry.libraryType) (built_run _) (by decide +kernel)).1
  revert same
  decide +kernel

/-! ## Libraries that are no larger -/

/-- A range of greater size ends no earlier. -/
theorem rangeEnd_mono {size greater : UInt64} (ordered : size ≤ greater) :
    rangeEnd start size ≤ rangeEnd start greater := by
  rw [UInt64.le_iff_toNat_le] at ordered
  rw [UInt64.le_iff_toNat_le, rangeEnd, rangeEnd, Number.toNat_saturatingAdd,
    Number.toNat_saturatingAdd]
  omega

/-- A library that is no larger than the one registered there before it changes no lookup. -/
theorem InUse.lookups_addLibrary_noLarger (inUse : InUse map)
    (taken : (start, library) ∈ map.libraries.toList) {entry : CodeEntry}
    (noLarger : entry.size ≤ (map.entry library).size) (address : UInt64) :
    (map.addLibrary start entry).2.lookup? address = map.lookup? address ∧
      ((map.addLibrary start entry).2.findAddress address).1 = (map.findAddress address).1 := by
  have indexed := inUse.built.indexed
  rw [(indexed.addLibrary start entry).findAddress_eq_lookup?, indexed.findAddress_eq_lookup?,
    and_self, indexed.lookup?_addLibrary_again taken]
  split
  · next on =>
    have marked := inUse.librariesMarked _ taken address (on.mono (rangeEnd_mono noLarger))
    exact (lookup?_eq_nativeAt? marked).symm
  · rfl

end JitTrace.CodeMap
