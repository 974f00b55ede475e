import JitTrace.Proofs.Code.Detached
import JitTrace.Proofs.Profile.Growth

/-!
# The engine's own functions

A new profile stores an entry for each of the engine's own functions, and no address leads
to any of them. Requests work on the code map by its operations, and by changes of what
addresses lead to, so these entries are the same in every profile at any time.
-/

namespace JitTrace

open CodeMap (Detached Indexed Worked)
open SplayTree (found?)

namespace CodeMap

variable {admits : SourceInfo → Prop} {map : CodeMap}

/-- Asking for the code that starts at an address is an operation, and the address leads to
what is found. -/
theorem Indexed.exists_worked_dynamicAt (indexed : Indexed map) (start : UInt64) :
    ∃ found after, map.dynamicAt start = (found, after) ∧ Worked admits map after ∧
      ∀ id ∈ found, after.Leads id := by
  obtain ⟨dynamics, finds, -, same⟩ := indexed.exists_dynamicAt start
  have worked : Worked admits map (map.dynamicAt start).2 :=
    .perform (.dynamicAt start) rfl .refl
  rw [finds] at worked
  refine ⟨_, _, finds, worked, fun id isFound => ⟨start, .inl ?_⟩⟩
  exact same ▸ indexed.found?_eq_some.mp isFound

/-- An address leads to what a lookup finds there. -/
theorem Indexed.leads_of_lookup? (indexed : Indexed map) {address : UInt64} {located : Located}
    (found : map.lookup? address = some located) : map.Leads located.id := by
  cases marked : map.isMarked address with
  | false => exact ⟨_, .inl (indexed.live_of_lookup? marked found).1⟩
  | true =>
    rw [indexed.lookup?_marked marked, Option.or_eq_some_iff] at found
    rcases found with inStatics | ⟨-, inLibraries⟩
    · have ascending := AddressIndex.ascending_of_valid indexed.statics
      exact ⟨_, .inr (.inl (mem_of_locatedIn ascending inStatics).1)⟩
    · have ascending := AddressIndex.ascending_of_valid indexed.libraries
      exact ⟨_, .inr (.inr (mem_of_locatedIn ascending inLibraries).1)⟩

/-- Changing what addresses lead to, one entry after the other. -/
theorem worked_foldl_modifyEntry (ids : List CodeId) {change : CodeEntry → CodeEntry}
    (keeps : ∀ entry, (change entry).source = entry.source)
    (leads : ∀ id ∈ ids, map.Leads id) :
    Worked admits map (ids.foldl (fun map id => map.modifyEntry id change) map) := by
  induction ids generalizing map with
  | nil => exact .refl
  | cons id ids inductionHypothesis =>
    have first : Worked admits map (map.modifyEntry id change) :=
      .modifyEntry change (fun entry _ mapped => .inl ((keeps entry).symm.trans mapped))
        (leads id List.mem_cons_self) .refl
    exact first.trans (inductionHypothesis fun other inside =>
      leads other (List.mem_cons_of_mem id inside))

/-! ## Frames -/

theorem worked_inlinedFrame (indexed : Indexed map) (scriptId : UInt32) (scriptOffset : UInt64)
    (address? : Option UInt64) :
    Worked admits map (map.inlinedFrame scriptId scriptOffset address?).2 := by
  cases address? with
  | none => exact .refl
  | some address =>
    obtain ⟨found, after, finds, worked, -⟩ := indexed.exists_worked_dynamicAt address
    rw [inlinedFrame]
    dsimp only
    rw [finds]
    cases found <;> exact worked

theorem worked_inlinedFrames (indexed : Indexed map) (source : SourceInfo) (steps : Nat)
    (scriptOffset : UInt64) (inliningId : Option Nat) :
    Worked admits map (map.inlinedFrames source steps scriptOffset inliningId).2 := by
  induction steps generalizing map scriptOffset inliningId with
  | zero =>
    rw [inlinedFrames.eq_def]
    cases inliningId.bind (source.inlining[·]?) <;> exact .refl
  | succ steps inductionHypothesis =>
    rw [inlinedFrames.eq_def]
    cases inliningId.bind (source.inlining[·]?) with
    | none => exact .refl
    | some call =>
      have first : Worked admits map _ := worked_inlinedFrame indexed source.scriptId scriptOffset
        source.inlinedFunctions[call.functionIndex]?
      exact first.trans
        (inductionHypothesis (first.indexed indexed) call.scriptOffset call.parent)

theorem worked_expandFrame (indexed : Indexed map) (located : Located) (isReturnAddress : Bool) :
    Worked admits map (map.expandFrame? located isReturnAddress).2 := by
  simp only [expandFrame?]
  split
  · exact .refl
  · split
    · exact .refl
    · exact worked_inlinedFrames indexed _ _ _ _

end CodeMap

namespace Profile

variable {admits : SourceInfo → Prop} {profile : Profile}

/-! ## Ticks -/

theorem worked_resolveAddress {map : CodeMap} (indexed : Indexed map) (address : UInt64)
    (isReturnAddress : Bool) :
    Worked (fun _ => False) map (resolveAddress map address isReturnAddress).2 := by
  have searched : Worked (fun _ => False) map (map.findAddress address).2 :=
    .perform (.findAddress address) rfl .refl
  rw [resolveAddress]
  split <;> rename_i finds <;> rw [finds] at searched
  · exact searched
  · exact searched.trans (CodeMap.worked_expandFrame (searched.indexed indexed) _ _)

theorem worked_resolveStack (indexed : Indexed profile.codeMap) (kind : StackKind)
    (position : Nat) (search : NativeEntrySearch) (stack : List UInt64) :
    Worked (fun _ => False) profile.codeMap
      (profile.resolveStack kind position search stack).2.codeMap := by
  induction stack generalizing profile position search with
  | nil => exact .refl
  | cons address stack inductionHypothesis =>
    have first := worked_resolveAddress indexed address (!position == 0)
    rw [← codeMap_resolveOne profile position search] at first
    rw [resolveStack_cons]
    exact first.trans (inductionHypothesis (first.indexed indexed) _ _)

theorem worked_resolveTick (indexed : Indexed profile.codeMap) (tick : Tick) :
    Worked (fun _ => False) profile.codeMap (profile.resolveTick tick).2.codeMap := by
  have counted : Indexed
      ((profile.observeTime tick.timestamp).countTick tick.vmState).codeMap := indexed
  exact worked_resolveStack counted _ 0 {} _

/-! ## Requests -/

/-- The source mapping that a request attaches to code, if its tables can be read. -/
def Request.Maps (request : Request) (source : SourceInfo) : Prop :=
  match request with
  | .addSourcePositions _ record =>
    PositionText.sourceInfo record.scriptId record.start record.stop record.positions
      record.inlining record.functions = .ok source
  | _ => False

theorem worked_whileRecording {Result : Type} (operation : ProfileOperation)
    {change : Profile → Outcome Result}
    (worked : Worked admits profile.codeMap (change profile).2.codeMap) :
    Worked admits profile.codeMap (profile.whileRecording operation change).2.codeMap := by
  rw [whileRecording]
  split
  · exact .refl
  · exact worked

/-- The function at an address is found there, or it is placed there. -/
theorem worked_functionAt {map : CodeMap} (indexed : Indexed map) (address : UInt64)
    (name : String) : Worked admits map (functionAt map address name).2 := by
  obtain ⟨found, after, finds, worked, leads⟩ := indexed.exists_worked_dynamicAt address
  rw [functionAt, finds]
  cases found with
  | some function => exact .modifyEntry _ (fun _ _ => .inl) (leads function rfl) worked
  | none => exact .perform (.addCode address _) rfl worked

theorem worked_addFunctionCode (indexed : Indexed profile.codeMap) (creation : CodeCreation)
    (address : UInt64) (state : FunctionState) :
    Worked admits profile.codeMap (profile.addFunctionCode creation address state).2.codeMap := by
  refine worked_whileRecording _ ?_
  have named : Worked admits profile.codeMap _ := worked_functionAt indexed address creation.name
  obtain ⟨found, after, finds, worked, leads⟩ :=
    (named.indexed indexed).exists_worked_dynamicAt creation.start
  have searched := named.trans worked
  dsimp only
  rw [finds]
  cases found with
  | none => exact .perform (.addCode creation.start _) rfl searched
  | some existing =>
    dsimp only
    split
    · exact .modifyEntry _ (fun _ _ => .inl) (leads existing rfl) searched
    · exact .perform (.addCode creation.start _) rfl
        (.perform (.deleteCode creation.start) rfl searched)

theorem worked_moveFunction (indexed : Indexed profile.codeMap) (source target : UInt64) :
    Worked admits profile.codeMap (profile.moveFunction source target).2.codeMap := by
  refine worked_whileRecording _ ?_
  obtain ⟨found, after, finds, worked, -⟩ := indexed.exists_worked_dynamicAt source
  dsimp only
  rw [finds]
  cases found with
  | none => exact worked
  | some function => exact .perform (.moveCode source target) rfl worked

theorem worked_addSourcePositions (indexed : Indexed profile.codeMap) (start : UInt64)
    (record : SourceRecord) :
    Worked (Request.addSourcePositions start record).Maps profile.codeMap
      (profile.addSourcePositions start record).2.codeMap := by
  refine worked_whileRecording _ ?_
  obtain ⟨found, after, finds, worked, leads⟩ := indexed.exists_worked_dynamicAt start
  dsimp only
  rw [finds]
  cases found with
  | none => exact worked
  | some id =>
    dsimp only
    split
    · exact worked
    · rename_i info parsed
      refine .modifyEntry _ ?_ (leads id rfl) worked
      rintro _ _ ⟨⟩
      exact .inr parsed

/-- A request works on the code map by operations and by changes of what addresses lead to, and
attaches no source mapping but its own. -/
theorem worked_perform (indexed : Indexed profile.codeMap) (request : Request) :
    Worked request.Maps profile.codeMap (profile.perform request).codeMap := by
  cases request with
  | addLibrary name start stop =>
    exact worked_whileRecording _ (.perform (.addLibrary start _) rfl .refl)
  | addStaticCode name start stop =>
    exact worked_whileRecording _ (.perform (.addStaticCode start _) rfl .refl)
  | addCode creation =>
    exact worked_whileRecording _ (.perform (.addCode creation.start _) rfl .refl)
  | addFunctionCode creation address state =>
    exact worked_addFunctionCode indexed creation address state
  | moveCode source target =>
    have moved : Worked (Request.moveCode source target).Maps profile.codeMap
        (profile.codeMap.moveCode source target).2 :=
      .perform (.moveCode source target) rfl .refl
    refine worked_whileRecording _ ?_
    split <;> rename_i outcome <;> rwa [outcome] at moved
  | deleteCode start =>
    have deleted : Worked (Request.deleteCode start).Maps profile.codeMap
        (profile.codeMap.deleteCode start).2 :=
      .perform (.deleteCode start) rfl .refl
    refine worked_whileRecording _ ?_
    split <;> rename_i outcome <;> rwa [outcome] at deleted
  | moveFunction source target => exact worked_moveFunction indexed source target
  | addSourcePositions start record => exact worked_addSourcePositions indexed start record
  | addDeoptReason address reason =>
    refine worked_whileRecording _ ?_
    split
    · exact .refl
    · rename_i found
      exact .modifyEntry _ (fun _ _ => .inl) (indexed.leads_of_lookup? found) .refl
  | disableOptimization name reason =>
    refine worked_whileRecording _ (CodeMap.worked_foldl_modifyEntry _ (fun _ => rfl)
      fun id named => ?_)
    obtain ⟨⟨start, other⟩, live, rfl⟩ := List.mem_map.mp (List.mem_filter.mp named).1
    exact ⟨start, .inl live⟩
  | addScriptSource id url text => exact worked_whileRecording _ .refl
  | addScriptDetails id url => exact worked_whileRecording _ .refl
  | recordTick tick => exact worked_whileRecording _ (worked_resolveTick indexed tick)
  | finalize =>
    have pruned : Worked Request.finalize.Maps profile.codeMap (pruneFunctions profile.codeMap).2 :=
      .perform (.retainDynamic (fun _ _ id entry =>
        (!entry.isSharedFunction || (usedFunctions profile.codeMap).contains id, ())) ()) rfl .refl
    rw [perform, finalize]
    split
    · exact .refl
    · exact pruned

/-! ## Entries of the engine's own functions -/

/-- The engine's own functions have the entries that they got first, and no address leads to
them. -/
structure Registered (map : CodeMap) : Prop where
  indexed : Indexed map
  detached : ∀ function : PseudoFunction, Detached map function.id
  entry : ∀ function : PseudoFunction,
    map.entry function.id = CodeEntry.pseudo function.label

namespace Registered

variable {admits : SourceInfo → Prop} {map after : CodeMap}

theorem worked (registered : Registered map) (worked : Worked admits map after) :
    Registered after where
  indexed := worked.indexed registered.indexed
  detached function :=
    (worked.detached registered.indexed (registered.detached function)).1
  entry function :=
    (worked.detached registered.indexed (registered.detached function)).2.trans
      (registered.entry function)

/-- In call trees, the engine's own functions have their own names. -/
theorem displayName (registered : Registered map) (function : PseudoFunction) :
    map.displayName function.id = function.label := by
  rw [CodeMap.displayName, registered.entry]
  rfl

theorem new (settings : ProfileSettings) (provider : ScriptProvider) :
    Registered (new settings provider).codeMap where
  indexed := (grown_new settings provider).indexed
  detached function := by
    have five : function.id.index < 5 := by cases function <;> decide
    refine ⟨five, ?_⟩
    rintro ⟨start, inDynamics | inStatics | inLibraries⟩ <;> contradiction
  entry function := by cases function <;> rfl

theorem foldl_perform (registered : Registered profile.codeMap) (requests : List Request) :
    Registered (requests.foldl perform profile).codeMap := by
  induction requests generalizing profile with
  | nil => exact registered
  | cons request requests inductionHypothesis =>
    exact inductionHypothesis (registered.worked (worked_perform registered.indexed request))

theorem run (settings : ProfileSettings) (provider : ScriptProvider) (requests : List Request) :
    Registered (run settings provider requests).codeMap :=
  (new settings provider).foldl_perform requests

end Registered

end Profile

end JitTrace
