import JitTrace.Proofs.Profile.FunctionReferences
import JitTrace.Proofs.Profile.Relocation

/-!
# Code that is reported again

A report of generated code names the address of its function. The function is found there or
created, and then the code is found where it starts or placed. A function has no range, so code
around it does not evict it unless the function starts inside the code. After the report both
are there as it has them, and a second report finds what it would write.
-/

namespace JitTrace

open CodeMap (FunctionsEmpty Indexed Overlaps rangeEnd)
open SplayTree (Valid found?)

namespace CodeMap

/-- A change that leaves an entry as it is leaves the map as it is. -/
theorem modifyEntry_eq_self {map : CodeMap} {id : CodeId} {change : CodeEntry → CodeEntry}
    (same : change (map.entry id) = map.entry id) : map.modifyEntry id change = map := by
  have unchanged : map.arena.modify id.index change = map.arena := by
    refine Array.ext Array.size_modify fun index _ inside => ?_
    rw [Array.getElem_modify]
    split
    · rename_i here
      subst here
      rwa [entry, Array.getD_eq_getD_getElem?, Array.getElem?_eq_getElem inside] at same
    · rfl
  rw [modifyEntry, unchanged]

/-- Generated code that starts at an address is what a look there finds. -/
theorem Indexed.exists_dynamicAt_of_mem {map : CodeMap} (indexed : Indexed map) {start : UInt64}
    {id : CodeId} (live : (start, id) ∈ map.dynamics.toList) :
    ∃ dynamics, map.dynamicAt start = (some id, { map with dynamics }) ∧
      Indexed { map with dynamics } ∧ dynamics.toList = map.dynamics.toList := by
  obtain ⟨dynamics, finds, searched, same⟩ := indexed.exists_dynamicAt start
  rw [indexed.found?_eq_some.mpr live] at finds
  exact ⟨dynamics, finds, searched, same⟩

end CodeMap

namespace Profile

variable {profile : Profile} {map : CodeMap} {creation : CodeCreation} {address : UInt64}
  {state : FunctionState} {id function : CodeId}

/-! ## What a report leaves -/

/-- The entry is a function, lives at the address and has the name. -/
structure FunctionAt (map : CodeMap) (address : UInt64) (name : String) (function : CodeId) :
    Prop where
  live : (address, function) ∈ map.dynamics.toList
  shared : (map.entry function).isSharedFunction = true
  empty : (map.entry function).size = 0
  name : (map.entry function).name = name

/-- The code and its function are there as a report has them. -/
structure Reported (map : CodeMap) (creation : CodeCreation) (address : UInt64)
    (state : FunctionState) (id function : CodeId) : Prop where
  there : FunctionAt map address creation.name function
  live : (creation.start, id) ∈ map.dynamics.toList
  size : (map.entry id).size = creation.size
  flavor : (map.entry id).flavor = .compiled function state
  kind : creation.kind.or (map.entry id).kind = (map.entry id).kind

/-- The function at an address is there, under the name reported last. -/
theorem functionAt_functionAt (indexed : Indexed map) (empty : FunctionsEmpty map)
    (address : UInt64) (name : String)
    (finds : ∀ id, (address, id) ∈ map.dynamics.toList → (map.entry id).isSharedFunction = true) :
    let naming := functionAt map address name
    Indexed naming.2 ∧ FunctionAt naming.2 address name naming.1 := by
  intro naming
  refine ⟨indexed_functionAt indexed address name, ?_⟩
  rcases functionAt_cases indexed address name with
    ⟨function, searched, live, named, arena, -, same⟩ | ⟨after, named, -, pushed, -, live⟩
  · have old : searched.entry function = map.entry function := by
      rw [CodeMap.entry, CodeMap.entry, arena]
    have renamed : (searched.modifyEntry function fun entry => { entry with name }).entry function =
        { map.entry function with name } := by
      rw [CodeMap.entry_modifyEntry, arena, if_pos ⟨rfl, indexed.dynamicsStored _ live⟩, old]
    rw [show naming = _ from named]
    refine ⟨same ▸ live, ?_, ?_, ?_⟩
    · rw [renamed]
      exact finds function live
    · rw [renamed]
      exact empty function (finds function live)
    · rw [renamed]
  · have added : after.entry ⟨map.arena.size⟩ = .sharedFunction name := by
      rw [CodeMap.entry, pushed, CodeMap.Grown.entry_push]
      exact if_pos rfl
    rw [show naming = _ from named]
    refine ⟨live, ?_, ?_, ?_⟩ <;> rw [added] <;> rfl

/-- Code that is placed does not evict a function that starts elsewhere outside of it. -/
theorem reported_addCode (state : FunctionState) (indexed : Indexed map)
    (there : FunctionAt map address creation.name function) (elsewhere : address ≠ creation.start)
    (outside : ¬(creation.start ≤ address ∧
      address < rangeEnd creation.start creation.size)) :
    let entry := { CodeEntry.compiled creation.size creation.codeType function state with
      kind := creation.kind, timestamp := some creation.timestamp }
    let placing := map.addCode creation.start entry
    Indexed placing.2 ∧ Reported placing.2 creation address state placing.1 function := by
  intro entry placing
  have placed : Indexed placing.2 := indexed.addCode creation.start entry
  have stored : Indexed (map.addDetached entry).2 := indexed.addDetached entry
  have arena : placing.2.arena = map.arena.push entry := CodeMap.Grown.arena_placeCode stored ..
  have code : placing.2.entry placing.1 = entry := by
    rw [CodeMap.entry, arena, CodeMap.Grown.entry_push]
    exact if_pos rfl
  have other : placing.2.entry function = map.entry function := by
    rw [CodeMap.entry, arena, CodeMap.Grown.entry_push,
      if_neg (Nat.ne_of_lt (indexed.dynamicsStored _ there.live))]
    rfl
  have spared : ¬Overlaps (map.addDetached entry).2.arena creation.start
      (rangeEnd creation.start entry.size) (address, function) := by
    have range : CodeMap.stopOf (map.addDetached entry).2.arena (address, function) = address := by
      rw [CodeMap.addDetached, CodeMap.stopOf_push entry (indexed.dynamicsStored _ there.live)]
      exact (congrArg (rangeEnd address) there.empty).trans (CodeMap.rangeEnd_zero address)
    rintro ⟨below, above⟩
    rw [range] at above
    exact outside ⟨UInt64.le_of_lt above, below⟩
  refine ⟨placed, ⟨?_, ?_, ?_, ?_⟩, CodeMap.mem_placeCode _ _ _ stored.dynamics, ?_, ?_, ?_⟩
  · exact CodeMap.mem_placeCode_of_spared stored.dynamics there.live elsewhere spared
  · rw [other, there.shared]
  · rw [other, there.empty]
  · rw [other, there.name]
  · rw [code]
    rfl
  · rw [code]
    rfl
  · rw [code]
    exact Option.or_self

/-- Code that was reported before takes on its tier. -/
theorem reported_modifyEntry (state : FunctionState) (indexed : Indexed map)
    (there : FunctionAt map address creation.name function)
    (live : (creation.start, id) ∈ map.dynamics.toList)
    (before : isReported map id function creation.size) :
    let after := map.modifyEntry id fun entry =>
      { entry with flavor := .compiled function state, kind := creation.kind.or entry.kind }
    Indexed after ∧ Reported after creation address state id function := by
  intro after
  simp only [isReported, Bool.and_eq_true, beq_iff_eq] at before
  have different : function ≠ id := by
    rintro rfl
    have unshared := CodeEntry.isSharedFunction_of_function? before.2
    rw [there.shared] at unshared
    contradiction
  have code : after.entry id = { map.entry id with
      flavor := .compiled function state, kind := creation.kind.or (map.entry id).kind } := by
    rw [CodeMap.entry_modifyEntry, if_pos ⟨rfl, indexed.dynamicsStored _ live⟩]
  have other : after.entry function = map.entry function := by
    rw [CodeMap.entry_modifyEntry, if_neg fun isCode => different isCode.1]
  refine ⟨indexed.modifyEntry id _, ⟨there.live, ?_, ?_, ?_⟩, live, ?_, ?_, ?_⟩
  · rw [other, there.shared]
  · rw [other, there.empty]
  · rw [other, there.name]
  · rw [code, before.1]
  · rw [code]
  · rw [code, ← Option.or_assoc, Option.or_self]

/-! ## The first report -/

/-- Once the function is there, a report leaves the code there too, placed or as it was found. -/
theorem exists_reported (indexed : Indexed profile.codeMap) (empty : FunctionsEmpty profile.codeMap)
    (recording : profile.finalized = false) (elsewhere : address ≠ creation.start)
    (outside : ¬(creation.start ≤ address ∧
      address < rangeEnd creation.start creation.size))
    (finds : Request.FindsFunction profile (.addFunctionCode creation address state)) :
    ∃ id function codeMap,
      profile.addFunctionCode creation address state = (.ok id, { profile with codeMap }) ∧
        Indexed codeMap ∧ Reported codeMap creation address state id function := by
  let naming := functionAt profile.codeMap address creation.name
  obtain ⟨named, there⟩ := functionAt_functionAt indexed empty address creation.name finds
  obtain ⟨dynamics, looks, searched, same⟩ := named.exists_dynamicAt creation.start
  have thereStill : FunctionAt { naming.2 with dynamics } address creation.name naming.1 :=
    { there with live := same ▸ there.live }
  simp only [addFunctionCode, whileRecording, recording, Bool.false_eq_true, if_false]
  rw [show functionAt profile.codeMap address creation.name = (naming.1, naming.2) from rfl]
  dsimp only
  rw [looks]
  cases found : (found? creation.start naming.2.dynamics.toList).map (·.2) with
  | none =>
    obtain ⟨placed, reported⟩ :=
      reported_addCode state searched thereStill elsewhere outside
    exact ⟨_, naming.1, _, rfl, placed, reported⟩
  | some existing =>
    have live : (creation.start, existing) ∈ dynamics.toList :=
      same ▸ named.found?_eq_some.mp found
    dsimp only
    split
    · rename_i before
      obtain ⟨kept, reported⟩ := reported_modifyEntry state searched thereStill live before
      exact ⟨existing, naming.1, _, rfl, kept, reported⟩
    · obtain ⟨dropped, removes, droppedValid, contents⟩ :=
        searched.dynamics.exists_remove creation.start
      have deletes : (({ naming.2 with dynamics } : CodeMap).deleteCode creation.start).2 =
          { naming.2 with dynamics := dropped } := by
        simp only [CodeMap.deleteCode, removes]
      have deleted : Indexed { naming.2 with dynamics := dropped } :=
        deletes ▸ searched.trim (searched.trimmed_deleteCode creation.start)
      have thereStill : FunctionAt { naming.2 with dynamics := dropped } address creation.name
          naming.1 := by
        refine { there with live := ?_ }
        rw [contents, AddressIndex.mem_removed]
        exact ⟨thereStill.live, elsewhere⟩
      obtain ⟨placed, reported⟩ :=
        reported_addCode state deleted thereStill elsewhere outside
      rw [deletes]
      exact ⟨_, naming.1, _, rfl, placed, reported⟩

/-! ## The second report -/

/-- A report of what is there as reported rearranges an index and changes nothing else. -/
theorem Reported.exists_again
    (reported : Reported profile.codeMap creation address state id function)
    (indexed : Indexed profile.codeMap) (recording : profile.finalized = false) :
    ∃ dynamics, profile.addFunctionCode creation address state =
        (.ok id, { profile with codeMap := { profile.codeMap with dynamics } }) ∧
      dynamics.toList = profile.codeMap.dynamics.toList := by
  obtain ⟨looked, looks, lookedIndexed, lookedSame⟩ :=
    indexed.exists_dynamicAt_of_mem reported.there.live
  have names : functionAt profile.codeMap address creation.name =
      (function, { profile.codeMap with dynamics := looked }) := by
    rw [functionAt, looks]
    refine congrArg (Prod.mk function) (CodeMap.modifyEntry_eq_self ?_)
    change { profile.codeMap.entry function with name := creation.name } =
      profile.codeMap.entry function
    rw [← reported.there.name]
  obtain ⟨dynamics, finds, -, same⟩ :=
    lookedIndexed.exists_dynamicAt_of_mem (lookedSame ▸ reported.live)
  have before : isReported { profile.codeMap with dynamics } id function creation.size := by
    simp only [isReported, Bool.and_eq_true, beq_iff_eq]
    refine ⟨reported.size, ?_⟩
    change (profile.codeMap.entry id).function? = some function
    rw [CodeEntry.function?, reported.flavor]
  have keeps : ({ profile.codeMap with dynamics } : CodeMap).modifyEntry id (fun entry =>
      { entry with flavor := .compiled function state, kind := creation.kind.or entry.kind }) =
      { profile.codeMap with dynamics } := by
    refine CodeMap.modifyEntry_eq_self ?_
    change { profile.codeMap.entry id with
      flavor := .compiled function state
      kind := creation.kind.or (profile.codeMap.entry id).kind } = profile.codeMap.entry id
    rw [reported.kind, ← reported.flavor]
  refine ⟨dynamics, ?_, same.trans lookedSame⟩
  simp only [addFunctionCode, whileRecording, recording, Bool.false_eq_true, if_false, names, finds,
    before, if_true, keeps]

/-- Reporting code of a function a second time, at whatever time, is answered with the same id
and only rearranges the index of generated code. The function must start outside the code and
may be new. After either report the code is there, and it refers to the function at the reported
address under the reported name. -/
theorem addFunctionCode_again {settings : ProfileSettings} {provider : ScriptProvider}
    {requests : List Request} {creation : CodeCreation} {address : UInt64} {state : FunctionState}
    (recording : (run settings provider requests).finalized = false)
    (elsewhere : address ≠ creation.start)
    (outside : ¬(creation.start ≤ address ∧ address < rangeEnd creation.start creation.size))
    (finds : Request.FindsFunction (run settings provider requests)
      (.addFunctionCode creation address state))
    (timestamp : UInt64) :
    let first := (run settings provider requests).addFunctionCode creation address state
    let second := first.2.addFunctionCode { creation with timestamp } address state
    ∃ id function dynamics, first.1 = .ok id ∧ second.1 = .ok id ∧
      second.2 = { first.2 with codeMap := { first.2.codeMap with dynamics } } ∧
      dynamics.toList = first.2.codeMap.dynamics.toList ∧
      ∀ map ∈ [first.2.codeMap, second.2.codeMap],
        (creation.start, id) ∈ map.dynamics.toList ∧ (map.entry id).function? = some function ∧
        (address, function) ∈ map.dynamics.toList ∧
        (map.entry function).isSharedFunction = true ∧
        (map.entry function).name = creation.name := by
  intro first second
  obtain ⟨id, function, codeMap, reports, indexed, reported⟩ :=
    exists_reported (indexed_run settings provider requests)
      (functionsEmpty_run settings provider requests) recording elsewhere outside finds
  have firstIs : first = (.ok id, { run settings provider requests with codeMap }) := reports
  have recordingStill : first.2.finalized = false := by
    rw [firstIs]
    exact recording
  have reportedStill : Reported first.2.codeMap { creation with timestamp } address state id
      function := by
    rw [firstIs]
    exact { reported with }
  obtain ⟨dynamics, repeats, same⟩ :=
    reportedStill.exists_again (by rw [firstIs]; exact indexed) recordingStill
  have secondIs : second = (.ok id,
      { first.2 with codeMap := { first.2.codeMap with dynamics } }) := repeats
  have compiled : (first.2.codeMap.entry id).function? = some function := by
    rw [CodeEntry.function?, reportedStill.flavor]
  refine ⟨id, function, dynamics, by rw [firstIs], by rw [secondIs], by rw [secondIs], same, ?_⟩
  rw [secondIs]
  intro map isOne
  simp only [List.mem_cons, List.not_mem_nil, or_false] at isOne
  obtain rfl | rfl := isOne
  · exact ⟨reportedStill.live, compiled, reportedStill.there.live, reportedStill.there.shared,
      reportedStill.there.name⟩
  · exact ⟨same ▸ reportedStill.live, compiled, same ▸ reportedStill.there.live,
      reportedStill.there.shared, reportedStill.there.name⟩

/-- Code of a known function with other code in front of it. -/
def crowded : List Request :=
  [ .addCode
      { codeType := "Builtin", name := "Wide", timestamp := 1, start := 0x1000, size := 0x100
        kind := none },
    .addFunctionCode
      { codeType := "JS", name := "f a.js:1:1", timestamp := 1, start := 0x1100, size := 0x100
        kind := none }
      0x9000 .interpreted ]

/-- Code in the way of both, up to where its function starts. -/
def intruder : CodeCreation where
  codeType := "JS"
  name := "g a.js:5:1"
  timestamp := 2
  start := 0x1080
  size := 0x100
  kind := none

/-- The code evicts both others, but not its function, and once it is there it stays. -/
theorem addFunctionCode_again_crowded :
    let first := (run {} ScriptProvider.none crowded).addFunctionCode intruder 0x1180 .turbofan
    let second := first.2.addFunctionCode { intruder with timestamp := 3 } 0x1180 .turbofan
    second.1 = .ok ⟨9⟩ ∧ second.2.codeMap.arena.size = 10 ∧
      second.2.codeMap.dynamics.toList = [(0x1080, ⟨9⟩), (0x1180, ⟨8⟩), (0x9000, ⟨6⟩)] := by
  intro first second
  have nothing : Request.FindsFunction (run {} ScriptProvider.none crowded)
      (.addFunctionCode intruder 0x1180 .turbofan) := by
    have listed : (run {} ScriptProvider.none crowded).codeMap.dynamics.toList =
        [(0x1000, ⟨5⟩), (0x1100, ⟨7⟩), (0x9000, ⟨6⟩)] := by decide +kernel
    rintro id live
    rw [listed] at live
    simp at live
  obtain ⟨id, function, dynamics, firstIs, secondIs, rest, same, -⟩ :=
    addFunctionCode_again (by decide +kernel) (by decide) (by decide) nothing 3
  have answer : first.1.toOption = some ⟨9⟩ := by decide +kernel
  rw [firstIs] at answer
  obtain rfl : id = ⟨9⟩ := Option.some.inj answer
  have stored : first.2.codeMap.arena.size = 10 := by decide +kernel
  have listed : first.2.codeMap.dynamics.toList =
      [(0x1080, ⟨9⟩), (0x1180, ⟨8⟩), (0x9000, ⟨6⟩)] := by decide +kernel
  refine ⟨secondIs, ?_, ?_⟩
  · rw [rest]
    exact stored
  · rw [rest]
    exact same.trans listed

end Profile

end JitTrace
