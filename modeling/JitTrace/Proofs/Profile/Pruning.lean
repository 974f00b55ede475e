import JitTrace.Proofs.Profile.Growth

/-!
# Pruned functions

Finalizing marks the functions that live code was compiled from and then sweeps the index of
generated code. What counts is what is live then: code that an address led to earlier marks
nothing, although its entry is still stored, and what other code of a function has gone
through does not unmark it.
-/

namespace JitTrace

open SplayTree (Valid)

namespace CodeMap

/-- A function that no live code was compiled from. -/
def Unused (map : CodeMap) (id : CodeId) : Prop :=
  (map.entry id).isSharedFunction = true ∧
    ∀ entry ∈ map.dynamics.toList, (map.entry entry.2).function? ≠ some id

instance (map : CodeMap) (id : CodeId) : Decidable (map.Unused id) :=
  inferInstanceAs (Decidable (_ ∧ _))

/-- A test leaves the generated code that passes it, and the number of entries dropped is that
of the entries that do not. -/
theorem Indexed.exists_retainDynamic {map : CodeMap} (indexed : Indexed map)
    (keep : UInt64 → CodeId → CodeEntry → Bool) :
    let passes := fun entry : UInt64 × CodeId => keep entry.1 entry.2 (map.entry entry.2)
    ∃ dynamics, map.retainDynamic keep =
        (map.dynamics.toList.countP fun entry => !passes entry, { map with dynamics }) ∧
      Valid dynamics ∧ dynamics.toList = map.dynamics.toList.filter passes := by
  intro passes
  obtain ⟨dynamics, retains, valid, contents⟩ := indexed.dynamics.exists_retainWith
    (fun (_ : Unit) start id => (keep start id (map.entry id), id, ())) ()
  have kept : dynamics.toList = map.dynamics.toList.filter passes :=
    contents.trans (SplayTree.retained_eq_filter _ (fun _ _ _ => rfl) passes
      (fun _ _ _ => rfl) () _)
  have dropped : map.dynamics.size - dynamics.size =
      map.dynamics.toList.countP fun entry => !passes entry := by
    have split := map.dynamics.toList.length_eq_countP_add_countP passes
    simp only [Bool.not_eq_true, Bool.decide_eq_false] at split
    rw [indexed.dynamics.size_eq, valid.size_eq, kept, ← List.countP_eq_length_filter, split,
      Nat.add_sub_cancel_left]
  refine ⟨dynamics, ?_, valid, kept⟩
  simp only [retainDynamic, retainDynamicWith, retains, dropped]

end CodeMap

namespace Profile

open CodeMap (Indexed)

/-- What is marked is what some live code was compiled from. -/
theorem mem_usedFunctions {map : CodeMap} {id : CodeId} :
    id ∈ usedFunctions map ↔
      ∃ entry ∈ map.dynamics.toList, (map.entry entry.2).function? = some id := by
  simp [usedFunctions]

/-- The sweep keeps what is in use, and what is no function. -/
theorem sweeps_iff (map : CodeMap) (id : CodeId) :
    (!(map.entry id).isSharedFunction || (usedFunctions map).contains id) =
      !decide (map.Unused id) := by
  rw [← decide_not, Bool.eq_iff_iff, decide_eq_true_iff, CodeMap.Unused,
    Decidable.not_and_iff_or_not]
  simp [mem_usedFunctions]

/-- Finalizing a profile for the first time takes from the index of generated code the functions
that no code live at that moment was compiled from, counts them, and changes nothing else about
code. Whatever became of other code of a function, it stays when some live code was compiled
from it. -/
theorem finalize_prunes_unused {settings : ProfileSettings} {provider : ScriptProvider}
    {requests : List Request} (recording : (run settings provider requests).finalized = false) :
    let profile := run settings provider requests
    let before := profile.codeMap
    let after := profile.finalize.2.codeMap
    after = { before with dynamics := after.dynamics } ∧ Indexed after ∧
      after.dynamics.toList =
        before.dynamics.toList.filter (fun entry => ¬before.Unused entry.2) ∧
      profile.finalize.1.prunedFunctions =
        before.dynamics.toList.countP (fun entry => before.Unused entry.2) ∧
      ∀ address function start code, (address, function) ∈ before.dynamics.toList →
        (start, code) ∈ before.dynamics.toList → (before.entry code).function? = some function →
          (address, function) ∈ after.dynamics.toList := by
  intro profile before after
  have indexed : Indexed before := indexed_run settings provider requests
  obtain ⟨dynamics, prunes, -, contents⟩ := indexed.exists_retainDynamic fun _ id entry =>
    !entry.isSharedFunction || (usedFunctions before).contains id
  simp only [sweeps_iff, Bool.not_not] at prunes contents
  have finalizes : (profile.finalize.1.prunedFunctions, after) =
      (before.dynamics.toList.countP fun entry => decide (before.Unused entry.2),
        { before with dynamics }) := by
    rw [← prunes]
    simp only [after, finalize, recording, profile, Bool.false_eq_true, if_false]
    rfl
  obtain ⟨counted, kept⟩ := Prod.mk.inj finalizes
  have live : after.dynamics.toList =
      before.dynamics.toList.filter (fun entry => ¬before.Unused entry.2) := by
    simp only [kept, contents, decide_not]
  refine ⟨by rw [kept], indexed_perform indexed .finalize, live, counted, ?_⟩
  intro address function start code functionLive codeLive compiled
  rw [live, List.mem_filter]
  exact ⟨functionLive, decide_eq_true fun unused => unused.2 _ codeLive compiled⟩

/-- Two pieces of code of the function at 0x9000, of which the first is deleted and the second
moves onto the only code of the function at 0xa000. -/
def outlived : List Request :=
  let code (name : String) (start : UInt64) : CodeCreation :=
    { codeType := "JS", name, timestamp := 1, start, size := 0x100, kind := none }
  [ .addFunctionCode (code "used a.js:1:1" 0x1000) 0x9000 .interpreted,
    .addFunctionCode (code "used a.js:1:1" 0x2000) 0x9000 .turbofan,
    .addFunctionCode (code "unused a.js:9:1" 0x3000) 0xa000 .turbofan,
    .deleteCode 0x1000,
    .moveCode 0x2000 0x2f80 ]

/-- The function whose other code lives on stays, and the one whose only code was evicted goes,
although that code is still stored. -/
theorem finalize_prunes_unused_outlived :
    let profile := run {} ScriptProvider.none outlived
    profile.finalized = false ∧
      profile.codeMap.dynamics.toList = [(0x2f80, ⟨7⟩), (0x9000, ⟨5⟩), (0xa000, ⟨8⟩)] ∧
      (profile.entry ⟨9⟩).function? = some ⟨8⟩ ∧
      profile.finalize.1.prunedFunctions = 1 ∧
      profile.finalize.2.codeMap.dynamics.toList = [(0x2f80, ⟨7⟩), (0x9000, ⟨5⟩)] := by
  intro profile
  have recording : profile.finalized = false := by decide +kernel
  obtain ⟨-, -, live, counted, -⟩ := finalize_prunes_unused recording
  refine ⟨recording, by decide +kernel, by decide +kernel, ?_, ?_⟩
  · rw [counted]
    decide +kernel
  · rw [live]
    decide +kernel

end Profile

end JitTrace
