import JitTrace.Proofs.Code.Growth
import JitTrace.Proofs.Profile.Run

/-!
# Growth of profiles

Whatever is requested of a profile, its code map grows: what is stored in it stays and
remains what it is. Only a request that names the function of generated code can give an
entry another name, and only such a request adds functions and compiled code.
-/

namespace JitTrace

open CodeMap (Grown Indexed)
open SplayTree (Valid found?)

namespace Profile

variable {admits : CodeEntry → Prop} {profile : Profile}

/-- A refused change changes nothing. -/
theorem grown_whileRecording {Result : Type} (indexed : Indexed profile.codeMap)
    (operation : ProfileOperation) (change : Profile → Outcome Result)
    (grown : Grown admits profile.codeMap (change profile).2.codeMap) :
    Grown admits profile.codeMap (profile.whileRecording operation change).2.codeMap := by
  rw [whileRecording]
  split
  · exact .refl indexed
  · exact grown

/-! ## Ticks -/

theorem grown_resolveAddress {map : CodeMap} (indexed : Indexed map) (address : UInt64)
    (isReturnAddress : Bool) : Grown admits map (resolveAddress map address isReturnAddress).2 := by
  have found : Grown admits map (map.findAddress address).2 := .findAddress indexed address
  revert found
  rw [resolveAddress]
  rcases map.findAddress address with ⟨_ | located, after⟩
  · exact id
  · exact fun found => found.trans (.expandFrame found.indexed located isReturnAddress)

theorem codeMap_countNativeEntry (profile : Profile) (entered : Option String) :
    (profile.countNativeEntry entered).codeMap = profile.codeMap := by
  cases entered <;> rfl

theorem codeMap_reportMissing (profile : Profile) (position : Nat) (address : UInt64) :
    (profile.reportMissing position address).codeMap = profile.codeMap := by
  rw [reportMissing]
  split <;> rfl

theorem codeMap_resolveOne (profile : Profile) (position : Nat) (search : NativeEntrySearch)
    (address : UInt64) :
    (profile.resolveOne position search address).codeMap =
      (resolveAddress profile.codeMap address (!position == 0)).2 :=
  read_resolveOne (·.codeMap) codeMap_reportMissing codeMap_countNativeEntry ..

theorem grown_resolveStack (kind : StackKind) (position : Nat) (search : NativeEntrySearch)
    (indexed : Indexed profile.codeMap) (stack : List UInt64) :
    Grown admits profile.codeMap (profile.resolveStack kind position search stack).2.codeMap := by
  induction stack generalizing profile position search with
  | nil => exact .refl indexed
  | cons address stack inductionHypothesis =>
    have found : Grown admits profile.codeMap
        (resolveAddress profile.codeMap address (!position == 0)).2 :=
      grown_resolveAddress indexed address _
    rw [← codeMap_resolveOne profile position search] at found
    rw [resolveStack_cons]
    exact found.trans (inductionHypothesis _ _ found.indexed)

theorem grown_recordTick (indexed : Indexed profile.codeMap) (tick : Tick) :
    Grown admits profile.codeMap (profile.recordTick tick).2.codeMap := by
  apply grown_whileRecording indexed
  have counted : Indexed
      ((profile.observeTime tick.timestamp).countTick tick.vmState).codeMap := indexed
  exact grown_resolveStack _ 0 {} counted _

/-! ## Code events -/

theorem grown_moveCode (indexed : Indexed profile.codeMap) (source target : UInt64) :
    Grown admits profile.codeMap (profile.moveCode source target).2.codeMap := by
  apply grown_whileRecording indexed
  have moved : Grown admits profile.codeMap (profile.codeMap.moveCode source target).2 :=
    .moveCode indexed source target
  revert moved
  split <;> rename_i outcome <;> rw [outcome] <;> exact id

theorem grown_deleteCode (indexed : Indexed profile.codeMap) (start : UInt64) :
    Grown admits profile.codeMap (profile.deleteCode start).2.codeMap := by
  apply grown_whileRecording indexed
  have deleted : Grown admits profile.codeMap (profile.codeMap.deleteCode start).2 :=
    .deleteCode indexed start
  revert deleted
  split <;> rename_i outcome <;> rw [outcome] <;> exact id

theorem grown_moveFunction (indexed : Indexed profile.codeMap) (source target : UInt64) :
    Grown admits profile.codeMap (profile.moveFunction source target).2.codeMap := by
  apply grown_whileRecording indexed
  have found : Grown admits profile.codeMap (profile.codeMap.dynamicAt source).2 :=
    .dynamicAt indexed source
  revert found
  split <;> rename_i outcome <;> rw [outcome]
  · exact id
  · exact fun found => found.trans (.moveCode found.indexed source target)

theorem grown_addSourcePositions (indexed : Indexed profile.codeMap) (start : UInt64)
    (record : SourceRecord) :
    Grown admits profile.codeMap (profile.addSourcePositions start record).2.codeMap := by
  apply grown_whileRecording indexed
  have found : Grown admits profile.codeMap (profile.codeMap.dynamicAt start).2 :=
    .dynamicAt indexed start
  revert found
  split <;> rename_i outcome <;> rw [outcome]
  · exact id
  · split
    · exact id
    · exact fun found => found.trans
        (.modifyEntry found.indexed _ ⟨⟨rfl, rfl, rfl⟩, .inl ⟨rfl, rfl⟩⟩)

theorem grown_addDeoptReason (indexed : Indexed profile.codeMap) (address : UInt64)
    (reason : String) :
    Grown admits profile.codeMap (profile.addDeoptReason address reason).2.codeMap := by
  apply grown_whileRecording indexed
  split
  · exact .refl indexed
  · exact .modifyEntry indexed _ ⟨⟨rfl, rfl, rfl⟩, .inl ⟨rfl, rfl⟩⟩

theorem grown_finalize (indexed : Indexed profile.codeMap) :
    Grown admits profile.codeMap profile.finalize.2.codeMap := by
  rw [finalize]
  split
  · exact .refl indexed
  · dsimp only [pruneFunctions]
    exact .retainDynamic indexed _

/-! ## Code of known functions -/

/-- The function at an address is the code that starts there, under another name, or else
it is new and placed there. -/
theorem functionAt_cases {map : CodeMap} (indexed : Indexed map) (address : UInt64)
    (name : String) :
    (∃ function searched, (address, function) ∈ map.dynamics.toList ∧
      functionAt map address name =
        (function, searched.modifyEntry function fun entry => { entry with name }) ∧
      searched.arena = map.arena ∧ Indexed searched ∧
      searched.dynamics.toList = map.dynamics.toList) ∨
    ∃ named, functionAt map address name = (⟨map.arena.size⟩, named) ∧
      (∀ id, (address, id) ∉ map.dynamics.toList) ∧
      named.arena = map.arena.push (.sharedFunction name) ∧ Indexed named ∧
      (address, ⟨map.arena.size⟩) ∈ named.dynamics.toList := by
  obtain ⟨dynamics, finds, searched, same⟩ := indexed.exists_dynamicAt address
  rw [functionAt, finds]
  cases found : (found? address map.dynamics.toList).map (·.2) with
  | some function =>
    exact .inl ⟨function, _, indexed.found?_eq_some.mp found, rfl, rfl, searched, same⟩
  | none =>
    refine .inr ⟨_, rfl, fun id inside => ?_, ?_, searched.addCode address _,
      CodeMap.mem_placeCode address _ _ (searched.addDetached _).dynamics⟩
    · rw [indexed.found?_eq_some.mpr inside] at found
      contradiction
    · exact Grown.arena_placeCode (searched.addDetached _) address _ _

theorem indexed_functionAt {map : CodeMap} (indexed : Indexed map) (address : UInt64)
    (name : String) : Indexed (functionAt map address name).2 := by
  rcases functionAt_cases indexed address name with
    ⟨function, searched, -, named, -, stillIndexed, -⟩ | ⟨after, named, -, -, stillIndexed, -⟩
  · rw [named]
    exact stillIndexed.modifyEntry function _
  · rwa [named]

/-- Another name for the code at an address changes nothing but that name. -/
theorem entry_renamed {map searched : CodeMap} (same : searched.arena = map.arena)
    (function id : CodeId) (name : String) :
    let renamed := searched.modifyEntry function fun entry => { entry with name }
    renamed.entry id = map.entry id ∨
      id = function ∧ renamed.entry id = { map.entry id with name } := by
  intro renamed
  have entries : searched.entry = map.entry := by
    funext other
    rw [CodeMap.entry, CodeMap.entry, same]
  rw [CodeMap.entry_modifyEntry, entries]
  split
  · rename_i isFunction
    exact .inr ⟨isFunction.1, by rw [isFunction.1]⟩
  · exact .inl rfl

/-- Naming the function at an address leaves all entries what they are, or adds a function. -/
theorem roles_functionAt {map : CodeMap} (indexed : Indexed map) (address : UInt64)
    (name : String) :
    ((address, (functionAt map address name).1) ∈ map.dynamics.toList ∧
      ∀ id, (map.entry id).SameRole ((functionAt map address name).2.entry id)) ∨
    (∀ id, (address, id) ∉ map.dynamics.toList) ∧
      Grown (· = .sharedFunction name) map (functionAt map address name).2 ∧
      (functionAt map address name).2.entry (functionAt map address name).1 =
        .sharedFunction name := by
  rcases functionAt_cases indexed address name with
    ⟨function, searched, live, named, same, -⟩ | ⟨after, named, nothing, pushed, afterIndexed, -⟩
  · rw [named]
    refine .inl ⟨live, fun id => ?_⟩
    rcases entry_renamed same function id name with unchanged | ⟨-, renamed⟩
    · rw [unchanged]
      exact .refl _
    · rw [renamed]
      exact ⟨rfl, rfl, rfl⟩
  · rw [named]
    refine .inr ⟨nothing, .of_push afterIndexed pushed rfl, ?_⟩
    rw [CodeMap.entry, pushed, Grown.entry_push, if_pos rfl]

/-- Naming the function at an address leaves all other entries alone. -/
theorem entry_functionAt {map : CodeMap} (indexed : Indexed map) (address : UInt64)
    (name : String) {id : CodeId} (stored : id.index < map.arena.size) :
    id.index < (functionAt map address name).2.arena.size ∧
      ((functionAt map address name).2.entry id = map.entry id ∨
        (address, id) ∈ map.dynamics.toList ∧
          (functionAt map address name).2.entry id = { map.entry id with name }) := by
  rcases functionAt_cases indexed address name with
    ⟨function, searched, live, named, same, -⟩ | ⟨after, named, -, pushed, -⟩
  · rw [named]
    refine ⟨by simpa [CodeMap.modifyEntry, same] using stored, ?_⟩
    rcases entry_renamed same function id name with unchanged | ⟨rfl, renamed⟩
    · exact .inl unchanged
    · exact .inr ⟨live, renamed⟩
  · rw [named, CodeMap.entry, pushed, Grown.entry_push, if_neg (Nat.ne_of_lt stored),
      Array.size_push]
    exact ⟨Nat.lt_succ_of_lt stored, .inl rfl⟩

/-- The entry was compiled from a function. -/
abbrev CodeOf (function : CodeId) (entry : CodeEntry) : Prop :=
  entry.function? = some function

/-- Placing code of a function. -/
theorem exists_addCompiled {map : CodeMap} {function : CodeId} (indexed : Indexed map)
    (start : UInt64) {new : CodeEntry} (code : CodeOf function new) :
    Grown (CodeOf function) map (map.addCode start new).2 ∧
      ∃ id, CodeOf function ((map.addCode start new).2.entry id) := by
  have grown : Grown (CodeOf function) map (map.addCode start new).2 :=
    .addCode indexed start code
  refine ⟨grown, ⟨map.arena.size⟩, ?_⟩
  rw [CodeMap.entry, show (map.addCode start new).2.arena = map.arena.push new from
    Grown.arena_placeCode (indexed.addDetached new) start new.size _, Grown.entry_push, if_pos rfl]
  exact code

/-- Code that is reported again keeps its function, whatever its tier is now. -/
theorem exists_reportAgain {map : CodeMap} {function existing : CodeId} (indexed : Indexed map)
    {start size : UInt64} (live : (start, existing) ∈ map.dynamics.toList)
    (reported : isReported map existing function size) (state : FunctionState)
    (kind : Option CodeKind) :
    let after := map.modifyEntry existing fun entry =>
      { entry with flavor := .compiled function state, kind := kind.or entry.kind }
    Grown (CodeOf function) map after ∧ ∃ id, CodeOf function (after.entry id) := by
  intro after
  simp only [isReported, Bool.and_eq_true, beq_iff_eq] at reported
  have stored := indexed.dynamicsStored _ live
  refine ⟨.modifyEntry indexed existing ⟨⟨rfl, ?_, ?_⟩, .inl ⟨rfl, rfl⟩⟩, existing, ?_⟩
  · exact reported.2.symm
  · exact (CodeEntry.isSharedFunction_of_function? reported.2).symm
  · rw [CodeMap.entry_modifyEntry, if_pos ⟨rfl, stored⟩]
    rfl

/-- Once the function is there, code of it is, and no other entry is added. -/
theorem exists_addFunctionCode (indexed : Indexed profile.codeMap)
    (recording : profile.finalized = false) (creation : CodeCreation) (address : UInt64)
    (state : FunctionState) :
    let naming := functionAt profile.codeMap address creation.name
    let after := (profile.addFunctionCode creation address state).2
    Grown (CodeOf naming.1) naming.2 after.codeMap ∧
      ∃ id, CodeOf naming.1 (after.entry id) := by
  intro naming after
  have named : Indexed naming.2 := indexed_functionAt indexed address creation.name
  obtain ⟨dynamics, finds, searched, same⟩ := named.exists_dynamicAt creation.start
  have rearranged : Grown (CodeOf naming.1) naming.2 { naming.2 with dynamics } :=
    .of_arena searched rfl
  have code : CodeOf naming.1 { CodeEntry.compiled creation.size creation.codeType naming.1 state
      with kind := creation.kind, timestamp := some creation.timestamp } := rfl
  have placed (map : CodeMap) (mapIndexed : Indexed map) :=
    exists_addCompiled mapIndexed creation.start code
  simp only [after, addFunctionCode, whileRecording, recording, Bool.false_eq_true, if_false]
  rw [show functionAt profile.codeMap address creation.name = (naming.1, naming.2) from rfl]
  dsimp only
  rw [finds]
  cases found : (found? creation.start naming.2.dynamics.toList).map (·.2) with
  | none => exact ⟨rearranged.trans (placed _ searched).1, (placed _ searched).2⟩
  | some existing =>
    have live : (creation.start, existing) ∈ dynamics.toList :=
      same ▸ named.found?_eq_some.mp found
    dsimp only
    split
    · rename_i reported
      obtain ⟨grown, compiled⟩ :=
        exists_reportAgain searched live reported state creation.kind
      exact ⟨rearranged.trans grown, compiled⟩
    · have dropped : Grown (CodeOf naming.1) _ _ := .deleteCode searched creation.start
      obtain ⟨grown, compiled⟩ := placed _ dropped.indexed
      exact ⟨(rearranged.trans dropped).trans grown, compiled⟩

/-! ## Requests -/

/-- A request adds ordinary entries alone, unless it names the function of code that is
generated. -/
theorem grown_perform (indexed : Indexed profile.codeMap) (request : Request) :
    Grown CodeEntry.Ordinary profile.codeMap (profile.perform request).codeMap ∨
      profile.finalized = false ∧
        ∃ creation address state, request = .addFunctionCode creation address state := by
  cases request with
  | addFunctionCode creation address state =>
    cases recording : profile.finalized with
    | true =>
      have refused : (profile.addFunctionCode creation address state).2 = profile := by
        simp [addFunctionCode, whileRecording, recording]
      rw [perform, refused]
      exact .inl (.refl indexed)
    | false => exact .inr ⟨rfl, creation, address, state, rfl⟩
  | addLibrary name start stop =>
    exact .inl (grown_whileRecording indexed _ _
      (.addLibrary indexed _ (CodeEntry.ordinary_plain ..)))
  | addStaticCode name start stop =>
    exact .inl (grown_whileRecording indexed _ _
      (.addStaticCode indexed _ (CodeEntry.ordinary_plain ..)))
  | addCode creation =>
    exact .inl (grown_whileRecording indexed _ _ (.addCode indexed _ ⟨rfl, rfl⟩))
  | moveCode source target => exact .inl (grown_moveCode indexed source target)
  | deleteCode start => exact .inl (grown_deleteCode indexed start)
  | moveFunction source target => exact .inl (grown_moveFunction indexed source target)
  | addSourcePositions start record =>
    exact .inl (grown_addSourcePositions indexed start record)
  | addDeoptReason address reason => exact .inl (grown_addDeoptReason indexed address reason)
  | disableOptimization name reason =>
    have marked : ∀ entry : CodeEntry,
        entry.Kept { entry with optimizationDisabled := some reason } :=
      fun _ => ⟨⟨rfl, rfl, rfl⟩, .inl ⟨rfl, rfl⟩⟩
    exact .inl (grown_whileRecording indexed _ _ (.foldl_modifyEntry _ marked indexed))
  | addScriptSource id url text =>
    exact .inl (grown_whileRecording indexed _ _ (.refl indexed))
  | addScriptDetails id url => exact .inl (grown_whileRecording indexed _ _ (.refl indexed))
  | recordTick tick => exact .inl (grown_recordTick indexed tick)
  | finalize => exact .inl (grown_finalize indexed)

theorem indexed_perform (indexed : Indexed profile.codeMap) (request : Request) :
    Indexed (profile.perform request).codeMap := by
  rcases grown_perform indexed request with grown | ⟨recording, creation, address, state, rfl⟩
  · exact grown.indexed
  · exact (exists_addFunctionCode indexed recording creation address state).1.indexed

/-- What a request does to an entry there is: it keeps its role, and it gets the name of a
function only when it is taken for one. -/
theorem kept_perform (indexed : Indexed profile.codeMap) (request : Request) {id : CodeId}
    (stored : id.index < profile.codeMap.arena.size) :
    id.index < (profile.perform request).codeMap.arena.size ∧
      (profile.entry id).SameRole ((profile.perform request).entry id) ∧
      ((profile.entry id).Numbered ((profile.perform request).entry id) ∨
        ∃ creation address state, request = .addFunctionCode creation address state ∧
          (address, id) ∈ profile.codeMap.dynamics.toList ∧
          CodeEntry.Numbered { profile.entry id with name := creation.name }
            ((profile.perform request).entry id)) := by
  rcases grown_perform indexed request with grown | ⟨recording, creation, address, state, rfl⟩
  · have kept := grown.kept id stored
    exact ⟨Nat.lt_of_lt_of_le stored grown.size, kept.toSameRole, .inl kept.name⟩
  · obtain ⟨storedStill, named⟩ := entry_functionAt indexed address creation.name stored
    obtain ⟨grown, -⟩ := exists_addFunctionCode indexed recording creation address state
    have kept := grown.kept id storedStill
    refine ⟨Nat.lt_of_lt_of_le storedStill grown.size, ?_⟩
    rcases named with same | ⟨live, renamed⟩
    · rw [same] at kept
      exact ⟨kept.toSameRole, .inl kept.name⟩
    · rw [renamed] at kept
      exact ⟨⟨kept.size, kept.function, kept.shared⟩,
        .inr ⟨creation, address, state, rfl, live, kept.name⟩⟩

/-! ## Runs -/

/-- A new profile has the entries of the engine's own functions. -/
theorem grown_new (settings : ProfileSettings) (provider : ScriptProvider) :
    Grown CodeEntry.Ordinary .empty (new settings provider).codeMap := by
  suffices ∀ functions : List PseudoFunction, ∀ map : CodeMap, Indexed map →
      Grown CodeEntry.Ordinary map (functions.foldl
        (fun map function => (map.addDetached (CodeEntry.pseudo function.label)).2) map) from
    this PseudoFunction.all .empty CodeMap.indexed_empty
  intro functions
  induction functions with
  | nil => exact fun map indexed => .refl indexed
  | cons function functions inductionHypothesis =>
    intro map indexed
    have added : Grown CodeEntry.Ordinary map
        (map.addDetached (CodeEntry.pseudo function.label)).2 :=
      .addDetached indexed (CodeEntry.ordinary_pseudo function.label)
    exact added.trans (inductionHypothesis _ added.indexed)

/-- Whatever has been requested, the code map of a profile is indexed. -/
theorem indexed_run (settings : ProfileSettings) (provider : ScriptProvider)
    (requests : List Request) : Indexed (run settings provider requests).codeMap := by
  suffices ∀ profile : Profile, Indexed profile.codeMap →
      Indexed (requests.foldl perform profile).codeMap from
    this _ (grown_new settings provider).indexed
  induction requests with
  | nil => exact fun _ indexed => indexed
  | cons request requests inductionHypothesis =>
    exact fun profile indexed => inductionHypothesis _ (indexed_perform indexed request)

end Profile

end JitTrace
