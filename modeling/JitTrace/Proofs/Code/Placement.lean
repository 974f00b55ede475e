import JitTrace.Proofs.Code.Run

/-!
# What new code replaces

Where the ranges of generated code lie apart, code that is placed with a range of its own takes
the place of the code that starts where it does and of the code that its range overlaps, and of
no other. Code that is moved is taken out before, so it is not in its own way.
-/

namespace JitTrace.CodeMap

open SplayTree (Valid)

/-- Each range ends no later than the next one starts. -/
def InTurn (arena : Array CodeEntry) (entries : List (UInt64 × CodeId)) : Prop :=
  entries.IsChain fun first second => stopOf arena first ≤ second.1

instance (arena : Array CodeEntry) (entries : List (UInt64 × CodeId)) :
    Decidable (InTurn arena entries) :=
  inferInstanceAs (Decidable (List.IsChain _ entries))

/-- The second entries are the first ones, but for `id` that starts at `start` in place of
what started there or overlaps `[start, stop)`. -/
def Replaces (arena : Array CodeEntry) (start stop : UInt64) (id : CodeId)
    (before after : List (UInt64 × CodeId)) : Prop :=
  ∀ entry, entry ∈ after ↔ entry = (start, id) ∨
    entry ∈ before ∧ entry.1 ≠ start ∧ ¬ Overlaps arena start stop entry

variable {arena : Array CodeEntry} {entries : List (UInt64 × CodeId)} {map : CodeMap}

/-- Ranges in turn lie apart, however far from each other they stand. -/
theorem InTurn.apart (inTurn : InTurn arena entries) (ascending : AddressIndex.Ascending entries) :
    Apart arena entries := by
  have trans : IsTrans (UInt64 × CodeId) fun first second => stopOf arena first ≤ second.1 :=
    ⟨fun _ _ _ ends next => UInt64.le_trans ends (UInt64.le_trans (le_rangeEnd ..) next)⟩
  have order := List.pairwise_iff_getElem.mp ascending
  have turns := List.pairwise_iff_getElem.mp inTurn.pairwise
  intro first inFirst second inSecond less
  obtain ⟨i, insideFirst, rfl⟩ := List.getElem_of_mem inFirst
  obtain ⟨j, insideSecond, rfl⟩ := List.getElem_of_mem inSecond
  rcases Nat.lt_trichotomy i j with before | same | behind
  · exact turns i j insideFirst insideSecond before
  · subst same
    exact absurd less (UInt64.lt_irrefl _)
  · exact absurd (order j i insideSecond insideFirst behind) (UInt64.lt_asymm less)

/-- A range of some size that overlaps another one is not empty. It would be at the end of
the address space, and no range goes on behind that. -/
theorem Overlaps.lt_rangeEnd {start size : UInt64} {entry : UInt64 × CodeId} (sized : size ≠ 0)
    (overlaps : Overlaps arena start (rangeEnd start size) entry) :
    start < rangeEnd start size := by
  have ends := overlaps.2
  have positive : size.toNat ≠ 0 := fun isZero => sized (UInt64.toNat_inj.mp isZero)
  rw [stopOf, UInt64.lt_iff_toNat_lt, rangeEnd, Number.toNat_saturatingAdd] at ends
  rw [UInt64.lt_iff_toNat_lt, rangeEnd, Number.toNat_saturatingAdd]
  omega

theorem size_ne_zero {start size : UInt64} (nonempty : start < rangeEnd start size) : size ≠ 0 := by
  rintro rfl
  rw [UInt64.lt_iff_toNat_lt, rangeEnd, Number.toNat_saturatingAdd] at nonempty
  rw [UInt64.toNat_zero] at nonempty
  omega

/-- Placed code of some size replaces what starts where it does or overlaps it. -/
theorem exists_placeCode_of_size (map : CodeMap) (valid : Valid map.dynamics)
    (apart : Apart map.arena map.dynamics.toList) (start : UInt64) {size : UInt64} (id : CodeId)
    (sized : size ≠ 0) :
    ∃ dynamics, map.placeCode start size id = { map with dynamics } ∧ Valid dynamics ∧
      Replaces map.arena start (rangeEnd start size) id map.dynamics.toList dynamics.toList := by
  obtain ⟨placed, places, placedValid, -, mem_placed⟩ := exists_placeCode start size id valid
  refine ⟨placed, places, placedValid, fun entry => ?_⟩
  rw [mem_placed apart, and_iff_right_of_imp (Overlaps.lt_rangeEnd sized)]

namespace Indexed

variable (indexed : Indexed map) (apart : Apart map.arena map.dynamics.toList)

include indexed

section Apart

include apart

theorem exists_addCode (start : UInt64) {entry : CodeEntry} (sized : entry.size ≠ 0) :
    ∃ dynamics, map.addCode start entry =
        (⟨map.arena.size⟩, { map with arena := map.arena.push entry, dynamics }) ∧
      Valid dynamics ∧ Replaces map.arena start (rangeEnd start entry.size) ⟨map.arena.size⟩
        map.dynamics.toList dynamics.toList := by
  have stops : ∀ other ∈ map.dynamics.toList,
      stopOf (map.arena.push entry) other = stopOf map.arena other :=
    fun other inside => stopOf_push entry (indexed.dynamicsStored other inside)
  obtain ⟨dynamics, places, valid, replaces⟩ := exists_placeCode_of_size
    { map with arena := map.arena.push entry } indexed.dynamics (apart.congr stops) start
    ⟨map.arena.size⟩ sized
  refine ⟨dynamics, congrArg (Prod.mk _) places, valid, fun other => (replaces other).trans ?_⟩
  refine or_congr_right (and_congr_right fun inside => ?_)
  rw [Overlaps, Overlaps, stops other inside]

/-- Code that is moved is placed as if it had not been there. -/
theorem exists_moveCode {source : UInt64} {id : CodeId}
    (live : (source, id) ∈ map.dynamics.toList) (sized : (map.entry id).size ≠ 0)
    (target : UInt64) :
    ∃ dynamics, map.moveCode source target = (.ok (), { map with dynamics }) ∧ Valid dynamics ∧
      Replaces map.arena target (rangeEnd target (map.entry id).size) id
        (map.dynamics.toList.filter (·.1 ≠ source)) dynamics.toList := by
  obtain ⟨taken, fewer, others, ⟨vacant, -⟩ | ⟨moved, movedLive, moves⟩⟩ :=
    indexed.moveCode_cases source target
  · exact absurd live (vacant id)
  · obtain rfl : moved = id := congrArg Prod.snd <|
      (AddressIndex.ascending_of_valid indexed.dynamics).eq_of_start movedLive live rfl
    obtain ⟨dynamics, places, valid, replaces⟩ := exists_placeCode_of_size
      { map with dynamics := taken } fewer.valid (apart.of_subset fewer.subset) target moved sized
    refine ⟨dynamics, moves.trans (congrArg (Prod.mk _) places), valid, fun entry => ?_⟩
    rw [replaces, others, List.mem_filter, decide_eq_true_eq]

end Apart

/-- Where no code starts, there is nothing to be moved. -/
theorem exists_moveCode_of_vacant {source : UInt64}
    (vacant : ∀ id, (source, id) ∉ map.dynamics.toList) (target : UInt64) :
    ∃ dynamics, map.moveCode source target =
        (.error (.codeNotFound source), { map with dynamics }) ∧
      Valid dynamics ∧ dynamics.toList = map.dynamics.toList := by
  obtain ⟨dynamics, fewer, -, ⟨-, same, fails⟩ | ⟨id, live, -⟩⟩ :=
    indexed.moveCode_cases source target
  · exact ⟨dynamics, fails, fewer.valid, same⟩
  · exact absurd live (vacant id)

end Indexed

/-- Where ranges of generated code are in turn, new code with a range replaces exactly what
starts where it does or overlaps it, and so does moved code, wherever it is moved to. Moving
code from where none starts fails and changes nothing. -/
theorem placement_exact (indexed : Indexed map) (inTurn : InTurn map.arena map.dynamics.toList) :
    (∀ start entry, start < rangeEnd start entry.size →
      ∃ dynamics, map.addCode start entry =
          (⟨map.arena.size⟩, { map with arena := map.arena.push entry, dynamics }) ∧
        Valid dynamics ∧ Replaces map.arena start (rangeEnd start entry.size) ⟨map.arena.size⟩
          map.dynamics.toList dynamics.toList) ∧
    (∀ source target id, (source, id) ∈ map.dynamics.toList →
      source < rangeEnd source (map.entry id).size →
      ∃ dynamics, map.moveCode source target = (.ok (), { map with dynamics }) ∧
        Valid dynamics ∧ Replaces map.arena target (rangeEnd target (map.entry id).size) id
          (map.dynamics.toList.filter (·.1 ≠ source)) dynamics.toList) ∧
    (∀ source target, (∀ id, (source, id) ∉ map.dynamics.toList) →
      ∃ dynamics, map.moveCode source target =
          (.error (.codeNotFound source), { map with dynamics }) ∧
        Valid dynamics ∧ dynamics.toList = map.dynamics.toList) := by
  have apart := inTurn.apart (AddressIndex.ascending_of_valid indexed.dynamics)
  refine ⟨fun start entry nonempty => ?_, fun source target id live nonempty => ?_,
    fun source target vacant => ?_⟩
  · exact indexed.exists_addCode apart start (size_ne_zero nonempty)
  · exact indexed.exists_moveCode apart live (size_ne_zero nonempty) target
  · exact indexed.exists_moveCode_of_vacant vacant target

/-- Three pieces of code, each of which starts where the one before it ends. -/
def adjoining : CodeMap :=
  run [.addCode 0x1000 (.dynamic 0x40 "f" "JS"), .addCode 0x1040 (.dynamic 0x40 "g" "JS"),
    .addCode 0x1080 (.dynamic 0x40 "h" "JS")]

/-- New code over the second piece and a part of the third one, and the second piece moved
over a part of the first one and of itself. -/
theorem placement_exact_adjoining :
    Indexed adjoining ∧ InTurn adjoining.arena adjoining.dynamics.toList ∧
    (∃ dynamics, adjoining.addCode 0x1040 (.dynamic 0x50 "k" "JS") =
        (⟨3⟩, { adjoining with arena := adjoining.arena.push (.dynamic 0x50 "k" "JS"), dynamics }) ∧
      Valid dynamics ∧ Replaces adjoining.arena 0x1040 0x1090 ⟨3⟩ adjoining.dynamics.toList
        dynamics.toList) ∧
    (∃ dynamics, adjoining.moveCode 0x1040 0x1020 = (.ok (), { adjoining with dynamics }) ∧
      Valid dynamics ∧ Replaces adjoining.arena 0x1020 0x1060 ⟨1⟩
        (adjoining.dynamics.toList.filter (·.1 ≠ 0x1040)) dynamics.toList) ∧
    (∃ dynamics, adjoining.moveCode 0x1048 0x1020 =
        (.error (.codeNotFound 0x1048), { adjoining with dynamics }) ∧
      Valid dynamics ∧ dynamics.toList = adjoining.dynamics.toList) := by
  have listed : adjoining.dynamics.toList = [(0x1000, ⟨0⟩), (0x1040, ⟨1⟩), (0x1080, ⟨2⟩)] := by
    decide +kernel
  have indexed : Indexed adjoining := indexed_run _
  have inTurn : InTurn adjoining.arena adjoining.dynamics.toList := by
    rw [listed]
    decide +kernel
  have size : (adjoining.entry ⟨1⟩).size = 0x40 := by decide +kernel
  have exact := placement_exact indexed inTurn
  have moved := exact.2.1 0x1040 0x1020 ⟨1⟩ (by simp [listed]) (by rw [size]; decide)
  rw [size] at moved
  exact ⟨indexed, inTurn, exact.1 0x1040 _ (by decide), moved,
    exact.2.2 0x1048 0x1020 (by simp [listed])⟩

end JitTrace.CodeMap
