import JitTrace.Proofs.Profile.NamingRun
import JitTrace.Proofs.Profile.Skipping

/-!
# The unknown caller

A builtin that calls a function on someone's behalf hides who called it, so its frame is
followed by one for an unknown caller. Such a builtin is told by what it is called once it
has been found. That is what it was registered under only if no other code has been found
under its name before; otherwise it has got a number, and is not told any more.
-/

namespace JitTrace

open CodeMap (Carries Indexed WellNamed Worked)

/-! ## Labels -/

namespace Skip

/-- The names of the builtins that call a function on someone's behalf. -/
def applyBuiltins : List String :=
  ["FunctionPrototypeApply", "FunctionPrototypeCall", "ReflectApply"]

/-- These builtins are told by their names. -/
theorem isApplyBuiltin_iff {label : String} :
    isApplyBuiltin label = true ↔ ∃ name ∈ applyBuiltins, label = "Builtin: " ++ name := by
  simp [isApplyBuiltin, applyBuiltins, or_assoc]

theorem plainName_of_mem_applyBuiltins {name : String} (member : name ∈ applyBuiltins) :
    PlainName name := by
  have all : ∀ name ∈ applyBuiltins, PlainName name := by decide +kernel
  exact all name member

/-- With a number, a builtin is not told any more. -/
theorem isApplyBuiltin_numbered (label : String) (count : Nat) :
    isApplyBuiltin (label ++ " \x7b" ++ toString count ++ "\x7d") = false := by
  have plain : ∀ name ∈ applyBuiltins, PlainName ("Builtin: " ++ name) := by decide +kernel
  rw [Bool.eq_false_iff]
  intro told
  obtain ⟨name, member, same⟩ := isApplyBuiltin_iff.mp told
  exact not_plainName_numbered label count (same ▸ plain name member)

end Skip

namespace Profile

variable {profile : Profile} {map : CodeMap}

/-! ## What the frames are of -/

/-- The frames of an address are of code that some address leads to. -/
theorem leads_of_mem_frames (indexed : Indexed map) (address : UInt64) (isReturnAddress : Bool)
    {frame : LogicalFrame}
    (member : frame ∈ (resolveAddress map address isReturnAddress).1.frames) :
    map.Leads frame.entry := by
  have trimmed := indexed.trimmed_findAddress address
  have answer := indexed.findAddress_eq_lookup? address
  rw [resolveAddress] at member
  split at member <;> rename_i finds <;> rw [finds] at trimmed answer
  · contradiction
  · rename_i located _
    obtain ⟨frames?, expanded, expands, -, -, sources⟩ :=
      (indexed.trim trimmed).exists_expandFrame located isReturnAddress
    rw [expands] at member
    rcases sources frame member with isLocated | ⟨start, live⟩
    · exact isLocated ▸ indexed.leads_of_lookup? answer.symm
    · exact .of_trimmed trimmed ⟨start, .inl live⟩

/-- No address stands for the unknown caller. -/
theorem entry_ne_unresolved (registered : Registered map) {address : UInt64}
    {isReturnAddress : Bool} {frame : LogicalFrame}
    (member : frame ∈ (resolveAddress map address isReturnAddress).1.frames) :
    frame.entry ≠ PseudoFunction.unresolved.id := fun same =>
  (registered.detached .unresolved).leadless
    (same ▸ leads_of_mem_frames registered.indexed address isReturnAddress member)

/-- Behind the innermost address, the unknown caller is not added. -/
theorem entry_ne_unresolved_of_outer (registered : Registered profile.codeMap) (kind : StackKind)
    (position : Nat) (search : NativeEntrySearch) (stack : List UInt64) :
    ∀ frame ∈ (profile.resolveStack kind (position + 1) search stack).1,
      frame.entry ≠ PseudoFunction.unresolved.id := by
  induction stack generalizing profile position search with
  | nil => simp [resolveStack]
  | cons address stack inductionHypothesis =>
    have worked := worked_resolveAddress registered.indexed address (!position + 1 == 0)
    rw [← codeMap_resolveOne profile (position + 1) search] at worked
    intro frame member
    rw [resolveStack_cons] at member
    rcases List.mem_append.mp member with own | outer
    · have kept : frame ∈ (resolveAddress profile.codeMap address (!position + 1 == 0)).1.frames :=
        List.mem_of_mem_filter own
      exact entry_ne_unresolved registered kept
    · exact inductionHypothesis (registered.worked worked) _ _ frame outer

/-- The stack of a tick outside of callbacks, without a top of its own. -/
theorem physicalStack_outside {tick : Tick}
    (outside : (Tick.physicalStack map tick).1 = ⟨false, false⟩) :
    Tick.physicalStack map tick = (⟨false, false⟩, tick.programCounter :: tick.stack) := by
  grind [Tick.physicalStack]

/-- The calls of the address on top of such a stack. -/
theorem logicalFrames_outside (filter : SkipFilter) (resolved : ResolvedAddress) :
    logicalFrames filter ⟨false, false⟩ true resolved = unskipped filter resolved.frames ++
      if Skip.isApplyBuiltin resolved.label then [unresolvedFrame] else [] := by
  simp only [logicalFrames, unskipped]
  split <;> rename_i told <;> simp_all

/-- The calls on such a stack are those of the program counter, and those of the callers. -/
theorem exists_logicalStack (registered : Registered profile.codeMap) {tick : Tick}
    (outside : (Tick.physicalStack profile.codeMap tick).1 = ⟨false, false⟩) :
    let resolved := (resolveAddress profile.codeMap tick.programCounter false).1
    ∃ outer, profile.logicalStack tick =
        logicalFrames profile.skip ⟨false, false⟩ true resolved ++ outer ∧
      ∀ frame ∈ unskipped profile.skip resolved.frames ++ outer,
        frame.entry ≠ PseudoFunction.unresolved.id := by
  intro resolved
  have physical := physicalStack_outside outside
  let counted := (profile.observeTime tick.timestamp).countTick tick.vmState
  let search := (NativeEntrySearch.step {} true resolved).2
  have worked : Worked (fun _ => False) profile.codeMap
      (counted.resolveOne 0 {} tick.programCounter).codeMap := by
    rw [codeMap_resolveOne]
    exact worked_resolveAddress registered.indexed tick.programCounter false
  refine ⟨((counted.resolveOne 0 {} tick.programCounter).resolveStack ⟨false, false⟩ 1 search
    tick.stack).1, ?_, fun frame member => ?_⟩
  · rw [logicalStack, resolveTick, physical]
    dsimp only
    rw [resolveStack_cons]
    dsimp only
    rw [skip_resolveOne]
    rfl
  · rcases List.mem_append.mp member with own | outer
    · exact entry_ne_unresolved registered (List.mem_of_mem_filter own)
    · exact entry_ne_unresolved_of_outer (registered.worked worked) _ 0 search _ frame outer

/-! ## Registered builtins -/

/-- Generated code carries the name that it is registered under. -/
theorem carries_addCode (indexed : Indexed profile.codeMap) {creation : CodeCreation} {id : CodeId}
    (registers : (profile.addCode creation).1 = .ok id) :
    Carries (profile.addCode creation).2.codeMap id creation.codeType creation.name := by
  rw [addCode, whileRecording] at registers ⊢
  split at registers
  · contradiction
  rename_i recording
  cases registers
  rw [if_neg recording]
  let new := { CodeEntry.dynamic creation.size creation.name creation.codeType with
    kind := creation.kind, timestamp := some creation.timestamp }
  change Carries (profile.codeMap.addCode creation.start new).2 ⟨profile.codeMap.arena.size⟩ _ _
  have arena : (profile.codeMap.addCode creation.start new).2.arena =
      profile.codeMap.arena.push new :=
    CodeMap.Grown.arena_placeCode (indexed.addDetached new) creation.start new.size _
  have added : (profile.codeMap.addCode creation.start new).2.entry
      ⟨profile.codeMap.arena.size⟩ = new := by
    rw [CodeMap.entry, arena, CodeMap.Grown.entry_push, if_pos rfl]
  refine ⟨?_, ?_, ?_, .inl ?_⟩
  · rw [arena, Array.size_push]
    exact Nat.lt_succ_self _
  all_goals
    rw [added]
    rfl

/-- What code is called that carries a name and is found at an address. -/
theorem label_cases (indexed : Indexed map) (wellNamed : WellNamed map) {id : CodeId}
    {codeType name : String} (carries : Carries map id codeType name) (plain : PlainName name)
    {address : UInt64} (unmarked : map.isMarked address = false) {located : Located}
    (found : map.lookup? address = some located) (isCode : located.id = id)
    (isReturnAddress : Bool) :
    let label := (resolveAddress map address isReturnAddress).1.label
    label = codeType ++ ": " ++ name ∧ (∀ other, other ≠ id → ¬map.Bears name other) ∨
      (∃ count : Nat,
        label = codeType ++ ": " ++ name ++ " \x7b" ++ toString count ++ "\x7d") ∧
      ∃ other, other ≠ id ∧ map.Bears name other := by
  subst isCode
  intro label
  obtain ⟨searched, alike, finds⟩ := indexed.exists_findAddress address
  rw [unmarked, found] at finds
  have rearranged : CodeMap.NameSteps map searched := .of_alike alike
  have extent : (searched.entry located.id).size ≠ 0 := by
    rw [alike.entry_eq]
    exact indexed.extent_of_lookup? unmarked found
  have numbers : CodeMap.NameSteps map (searched.numberName located.id) :=
    rearranged.tail (.number extent)
  -- Being found may give this code another name, but what other code bears stays the same.
  obtain ⟨numbered, others⟩ := (carries.steps rearranged).found plain extent
  have called : label = (searched.numberName located.id).displayName located.id := by
    simp only [label, resolveAddress, finds]
    rfl
  have same {other : CodeId} (isOther : other ≠ located.id) :
      (searched.numberName located.id).Bears name other ↔ map.Bears name other := by
    rw [others other isOther, CodeMap.Bears, CodeMap.Bears, alike.entry_eq]
  rw [called]
  rcases (carries.steps numbers).displayName_cases (wellNamed.steps numbers) plain numbered with
    ⟨named, alone⟩ | ⟨named, other, isOther, borne⟩
  · exact .inl ⟨named, fun other isOther borne =>
      isOther (alone other ((same isOther).mpr borne))⟩
  · exact .inr ⟨named, other, isOther, (same isOther).mp borne⟩

/-- Generated code in a run carries the name that it was registered under, as long as no other
code is taken for a function. -/
theorem carries_run {settings : ProfileSettings} {provider : ScriptProvider}
    {before after : List Request} {creation : CodeCreation} {id : CodeId}
    (registers : ((run settings provider before).addCode creation).1 = .ok id)
    (finds : FindsFunctions settings provider (before ++ .addCode creation :: after)) :
    Carries (run settings provider (before ++ .addCode creation :: after)).codeMap id
      creation.codeType creation.name := by
  have registered := carries_addCode (indexed_run settings provider before) registers
  rw [List.append_cons] at finds ⊢
  have steps := nameSteps_run (before ++ [.addCode creation]) after finds
  rw [run_append] at steps
  exact registered.steps steps

/-- The program counter of a tick lies in this generated code. The tick is outside of
callbacks and its stack has no top of its own. -/
structure TicksIn (profile : Profile) (tick : Tick) (id : CodeId) : Prop where
  outside : (Tick.physicalStack profile.codeMap tick).1 = ⟨false, false⟩
  unmarked : profile.codeMap.isMarked tick.programCounter = false
  found : ∃ located, profile.codeMap.lookup? tick.programCounter = some located ∧ located.id = id

/-- A builtin is told if no other code has been found under its name. -/
theorem isApplyBuiltin_label (indexed : Indexed map) (wellNamed : WellNamed map) {id : CodeId}
    {name : String} (isApply : name ∈ Skip.applyBuiltins) (carries : Carries map id "Builtin" name)
    {address : UInt64} (unmarked : map.isMarked address = false)
    (found : ∃ located, map.lookup? address = some located ∧ located.id = id)
    (isReturnAddress : Bool) :
    Skip.isApplyBuiltin (resolveAddress map address isReturnAddress).1.label = true ↔
      ∀ other, other ≠ id → ¬map.Bears name other := by
  obtain ⟨located, isFound, isCode⟩ := found
  have plain := Skip.plainName_of_mem_applyBuiltins isApply
  rcases label_cases indexed wellNamed carries plain unmarked isFound isCode isReturnAddress with
    ⟨label, alone⟩ | ⟨⟨count, label⟩, other, isOther, borne⟩
  · exact iff_of_true (Skip.isApplyBuiltin_iff.mpr ⟨name, isApply, label⟩) alone
  · rw [label, Skip.isApplyBuiltin_numbered]
    exact iff_of_false Bool.false_ne_true fun alone => alone other isOther borne

/-- In a run that takes no other code for a function, the stack of a tick in a builtin that
calls a function on someone's behalf has the unknown caller directly behind the frames of
the builtin, if no other code has been found under its name. Otherwise the unknown caller
is nowhere on the stack. -/
theorem logicalStack_applyBuiltin (settings : ProfileSettings) (provider : ScriptProvider)
    (before after : List Request) (creation : CodeCreation) (id : CodeId) (tick : Tick)
    (isBuiltin : creation.codeType = "Builtin") (isApply : creation.name ∈ Skip.applyBuiltins)
    (registers : ((run settings provider before).addCode creation).1 = .ok id)
    (finds : FindsFunctions settings provider (before ++ .addCode creation :: after))
    (ticksIn : (run settings provider (before ++ .addCode creation :: after)).TicksIn tick id) :
    let profile := run settings provider (before ++ .addCode creation :: after)
    let own := unskipped profile.skip
      (resolveAddress profile.codeMap tick.programCounter false).1.frames
    ∃ outer,
      ((∀ other, other ≠ id → ¬profile.codeMap.Bears creation.name other) →
        profile.logicalStack tick = own ++ unresolvedFrame :: outer) ∧
      ((∃ other, other ≠ id ∧ profile.codeMap.Bears creation.name other) →
        profile.logicalStack tick = own ++ outer) ∧
      ∀ frame ∈ own ++ outer, frame.entry ≠ PseudoFunction.unresolved.id := by
  intro profile own
  have registered : Registered profile.codeMap := .run settings provider _
  have carries := carries_run registers finds
  rw [isBuiltin] at carries
  have told := isApplyBuiltin_label registered.indexed (wellNamed_run finds) isApply carries
    ticksIn.unmarked ticksIn.found false
  obtain ⟨outer, stack, resolved⟩ := exists_logicalStack registered ticksIn.outside
  rw [logicalFrames_outside] at stack
  refine ⟨outer, fun alone => ?_, fun ⟨other, isOther, borne⟩ => ?_, resolved⟩
  · rw [stack, if_pos (told.mpr alone), List.append_assoc]
    rfl
  · rw [stack, if_neg fun isTold => told.mp isTold other isOther borne, List.append_nil]

/-- A piece of code of a builtin that calls a function on someone's behalf. -/
def applyCreation (start : UInt64) : CodeCreation where
  codeType := "Builtin"
  name := "FunctionPrototypeApply"
  timestamp := 1
  start
  size := 0x100
  kind := none

/-- Two pieces of code of that builtin, and a builtin that calls them. -/
def alikeBuiltins : List Request :=
  [.addCode (applyCreation 0x1000), .addCode (applyCreation 0x2000),
    .addCode { applyCreation 0x3000 with name := "Main" }]

/-- Settings under which nothing is skipped. -/
def separated : ProfileSettings where
  separateBytecodes := true

/-- A tick that the last builtin has led to. -/
def builtinTick (programCounter : UInt64) : Tick where
  programCounter
  timestamp := 2
  inCallback := false
  callbackOrTop := 0
  vmState := .js
  stack := [0x3004]

/-- The first tick is in the first piece, while nothing has the name yet. -/
theorem logicalStack_firstApply :
    let profile := run separated ScriptProvider.none alikeBuiltins
    FindsFunctions separated ScriptProvider.none alikeBuiltins ∧
      profile.TicksIn (builtinTick 0x1004) ⟨5⟩ ∧
      ∃ outer, (profile.logicalStack (builtinTick 0x1004)).map (·.entry) =
        ⟨5⟩ :: PseudoFunction.unresolved.id :: outer := by
  intro profile
  have finds : FindsFunctions separated ScriptProvider.none alikeBuiltins :=
    findsFunctions_of_forall (by simp [alikeBuiltins])
  have ticksIn : profile.TicksIn (builtinTick 0x1004) ⟨5⟩ :=
    ⟨by decide +kernel, by decide +kernel, ⟨⟨5⟩, 0x1000, 0x4⟩, by decide +kernel, rfl⟩
  have unfound : ∀ entry ∈ profile.codeMap.arena, entry.numbered = false := by decide +kernel
  let own := unskipped profile.skip (resolveAddress profile.codeMap 0x1004 false).1.frames
  have ownEntries : own.map (·.entry) = [⟨5⟩] := by decide +kernel
  obtain ⟨outer, alone, -⟩ := logicalStack_applyBuiltin separated ScriptProvider.none [] _
    (applyCreation 0x1000) ⟨5⟩ (builtinTick 0x1004) rfl (by decide) rfl finds ticksIn
  have stack : profile.logicalStack (builtinTick 0x1004) = own ++ unresolvedFrame :: outer :=
    alone fun other _ => CodeMap.not_bears unfound _ other
  refine ⟨finds, ticksIn, outer.map (·.entry), ?_⟩
  rw [stack, List.map_append, ownEntries]
  rfl

/-- Once the first piece has been found it has the name, and a tick in the second piece has no
unknown caller. -/
theorem logicalStack_secondApply :
    let profile := run separated ScriptProvider.none
      (alikeBuiltins ++ [.recordTick (builtinTick 0x1004)])
    ((run separated ScriptProvider.none [.addCode (applyCreation 0x1000)]).addCode
        (applyCreation 0x2000)).1 = .ok ⟨6⟩ ∧
      profile.finalized = false ∧ profile.TicksIn (builtinTick 0x2004) ⟨6⟩ ∧
      ∀ frame ∈ profile.logicalStack (builtinTick 0x2004),
        frame.entry ≠ PseudoFunction.unresolved.id := by
  intro profile
  have finds : FindsFunctions separated ScriptProvider.none
      (alikeBuiltins ++ [.recordTick (builtinTick 0x1004)]) :=
    findsFunctions_of_forall (by simp [alikeBuiltins])
  have ticksIn : profile.TicksIn (builtinTick 0x2004) ⟨6⟩ :=
    ⟨by decide +kernel, by decide +kernel, ⟨⟨6⟩, 0x2000, 0x4⟩, by decide +kernel, rfl⟩
  have isApply : (applyCreation 0x1000).name ∈ Skip.applyBuiltins := by decide
  have registered : Registered profile.codeMap := .run separated ScriptProvider.none _
  have wellNamed : WellNamed profile.codeMap := wellNamed_run finds
  have first : Carries profile.codeMap ⟨5⟩ "Builtin" "FunctionPrototypeApply" :=
    @carries_run separated ScriptProvider.none [] _ (applyCreation 0x1000) ⟨5⟩ rfl finds
  have second : Carries profile.codeMap ⟨6⟩ "Builtin" "FunctionPrototypeApply" :=
    @carries_run separated ScriptProvider.none [.addCode (applyCreation 0x1000)] _
      (applyCreation 0x2000) ⟨6⟩ rfl finds
  have unnumbered : (profile.codeMap.entry ⟨6⟩).numbered = false := by decide +kernel
  obtain ⟨bearer, borne⟩ := first.exists_bears wellNamed
    (Skip.plainName_of_mem_applyBuiltins isApply) (by decide +kernel)
  have isOther : bearer ≠ ⟨6⟩ := by
    rintro rfl
    exact absurd (borne.1.symm.trans unnumbered) (by decide)
  have told := isApplyBuiltin_label registered.indexed wellNamed isApply second ticksIn.unmarked
    ticksIn.found false
  obtain ⟨outer, stack, resolved⟩ := exists_logicalStack registered ticksIn.outside
  rw [logicalFrames_outside, if_neg fun isTold => told.mp isTold bearer isOther borne,
    List.append_nil] at stack
  exact ⟨rfl, rfl, ticksIn, stack ▸ resolved⟩

end Profile

end JitTrace
