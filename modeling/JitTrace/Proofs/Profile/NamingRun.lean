import JitTrace.Proofs.Profile.FunctionReferences
import JitTrace.Proofs.Profile.Inlining
import JitTrace.Proofs.Profile.Naming
import JitTrace.Proofs.Profile.PseudoFunctions

/-!
# Names along runs

Requests give names and change titles in the steps of which `NameSteps` consists, unless
code that is no function is taken for one. So names are given out once in every run in
which that does not happen, and code carries the name it was registered under to the end.
-/

namespace JitTrace

namespace Profile

open CodeMap (Carries Indexed NameSteps WellNamed)
open SplayTree (found?)

variable {profile : Profile}

/-! ## Ticks -/

theorem nameSteps_resolveAddress {map : CodeMap} (indexed : Indexed map) (address : UInt64)
    (isReturnAddress : Bool) : NameSteps map (resolveAddress map address isReturnAddress).2 := by
  have searched : NameSteps map (map.findAddress address).2 :=
    indexed.nameSteps_perform (.findAddress address) trivial
  have stillIndexed : Indexed (map.findAddress address).2 := indexed.perform (.findAddress address)
  rw [resolveAddress]
  split <;> rename_i finds <;> rw [finds] at searched stillIndexed
  · exact searched
  · obtain ⟨frames?, after, expanded, alike, -⟩ :=
      stillIndexed.exists_expandFrame _ isReturnAddress
    dsimp only
    rw [expanded]
    exact searched.trans (CodeMap.NameSteps.of_alike alike)

theorem nameSteps_resolveStack (indexed : Indexed profile.codeMap) (kind : StackKind)
    (position : Nat) (search : NativeEntrySearch) (stack : List UInt64) :
    NameSteps profile.codeMap (profile.resolveStack kind position search stack).2.codeMap := by
  induction stack generalizing profile position search with
  | nil => exact .refl
  | cons address stack inductionHypothesis =>
    have first := nameSteps_resolveAddress indexed address (!position == 0)
    have firstIndexed := (worked_resolveAddress indexed address (!position == 0)).indexed indexed
    rw [← codeMap_resolveOne profile position search] at first firstIndexed
    rw [resolveStack_cons]
    exact first.trans (inductionHypothesis firstIndexed _ _)

/-! ## Requests -/

theorem nameSteps_whileRecording {Result : Type} (operation : ProfileOperation)
    {change : Profile → Outcome Result}
    (steps : profile.finalized = false → NameSteps profile.codeMap (change profile).2.codeMap) :
    NameSteps profile.codeMap (profile.whileRecording operation change).2.codeMap := by
  rw [whileRecording]
  split
  · exact .refl
  · rename_i recording
    exact steps (Bool.eq_false_iff.mpr recording)

/-- A function that is named has another name, or it is new. -/
theorem nameSteps_functionAt {map : CodeMap} (indexed : Indexed map) (address : UInt64)
    (name : String)
    (finds : ∀ id, (address, id) ∈ map.dynamics.toList →
      (map.entry id).isSharedFunction = true) :
    NameSteps map (functionAt map address name).2 := by
  obtain ⟨found, after, asks, asked, searched, same, live⟩ :=
    indexed.exists_rearranged_dynamicAt address
  rw [functionAt, asks]
  cases found with
  | some function =>
    have shared := finds function (live function rfl)
    rw [← same] at shared
    exact asked.tail (.rename shared name)
  | none =>
    exact asked.trans
      (searched.nameSteps_perform (.addCode address (.sharedFunction name)) ⟨rfl, fun _ => rfl⟩)

theorem nameSteps_addFunctionCode (indexed : Indexed profile.codeMap) (creation : CodeCreation)
    (address : UInt64) (state : FunctionState)
    (finds : profile.finalized = false →
      Request.FindsFunction profile (.addFunctionCode creation address state)) :
    NameSteps profile.codeMap (profile.addFunctionCode creation address state).2.codeMap := by
  refine nameSteps_whileRecording _ fun recording => ?_
  have named := nameSteps_functionAt indexed address creation.name (finds recording)
  have namedIndexed := indexed_functionAt indexed address creation.name
  obtain ⟨found, after, asks, asked, searched, -⟩ :=
    namedIndexed.exists_rearranged_dynamicAt creation.start
  have reached := named.trans asked
  have placed {map : CodeMap} (mapIndexed : Indexed map) (new : CodeEntry)
      (unfound : new.Unfound) : NameSteps map (map.addCode creation.start new).2 :=
    mapIndexed.nameSteps_perform (.addCode creation.start new) unfound
  dsimp only
  rw [asks]
  cases found with
  | none => exact reached.trans (placed searched _ ⟨rfl, nofun⟩)
  | some existing =>
    dsimp only
    split
    · rename_i reported
      simp only [isReported, Bool.and_eq_true, beq_iff_eq] at reported
      -- Code that is reported again was compiled before, so it was of no unknown function.
      refine reached.tail (.change ⟨rfl, rfl, rfl, rfl, ?_, fun isDynamic => ?_⟩)
      · exact (CodeEntry.isSharedFunction_of_function? reported.2).symm
      · simp [CodeEntry.function?, isDynamic] at reported
    · have dropped := searched.nameSteps_perform (.deleteCode creation.start) trivial
      exact (reached.trans dropped).trans
        (placed (searched.perform (.deleteCode creation.start)) _ ⟨rfl, nofun⟩)

theorem nameSteps_moveFunction (indexed : Indexed profile.codeMap) (source target : UInt64) :
    NameSteps profile.codeMap (profile.moveFunction source target).2.codeMap := by
  refine nameSteps_whileRecording _ fun _ => ?_
  obtain ⟨found, after, asks, asked, searched, -⟩ := indexed.exists_rearranged_dynamicAt source
  dsimp only
  rw [asks]
  cases found with
  | none => exact asked
  | some function =>
    exact asked.trans (searched.nameSteps_perform (.moveCode source target) trivial)

theorem nameSteps_addSourcePositions (indexed : Indexed profile.codeMap) (start : UInt64)
    (record : SourceRecord) :
    NameSteps profile.codeMap (profile.addSourcePositions start record).2.codeMap := by
  refine nameSteps_whileRecording _ fun _ => ?_
  obtain ⟨found, after, asks, asked, -⟩ := indexed.exists_rearranged_dynamicAt start
  dsimp only
  rw [asks]
  cases found with
  | none => exact asked
  | some code =>
    dsimp only
    split
    · exact asked
    · exact asked.tail (.change ⟨rfl, rfl, rfl, rfl, rfl, id⟩)

/-- Requests do to names what steps do, as long as no other code is taken for a function. -/
theorem nameSteps_perform (indexed : Indexed profile.codeMap) {request : Request}
    (finds : profile.finalized = false → request.FindsFunction profile) :
    NameSteps profile.codeMap (profile.perform request).codeMap := by
  have operates (operation : CodeMap.Operation) (unfound : operation.StoresUnfound) :
      NameSteps profile.codeMap (operation.perform profile.codeMap) :=
    indexed.nameSteps_perform operation unfound
  cases request with
  | addLibrary name start stop =>
    exact nameSteps_whileRecording _ fun _ => operates (.addLibrary start _) ⟨rfl, nofun⟩
  | addStaticCode name start stop =>
    exact nameSteps_whileRecording _ fun _ => operates (.addStaticCode start _) ⟨rfl, nofun⟩
  | addCode creation =>
    exact nameSteps_whileRecording _ fun _ => operates (.addCode creation.start _) ⟨rfl, nofun⟩
  | addFunctionCode creation address state =>
    exact nameSteps_addFunctionCode indexed creation address state finds
  | moveCode source target =>
    have moved := operates (.moveCode source target) trivial
    refine nameSteps_whileRecording _ fun _ => ?_
    rw [CodeMap.Operation.perform] at moved
    split <;> rename_i outcome <;> rwa [outcome] at moved
  | deleteCode start =>
    have deleted := operates (.deleteCode start) trivial
    refine nameSteps_whileRecording _ fun _ => ?_
    rw [CodeMap.Operation.perform] at deleted
    split <;> rename_i outcome <;> rwa [outcome] at deleted
  | moveFunction source target => exact nameSteps_moveFunction indexed source target
  | addSourcePositions start record => exact nameSteps_addSourcePositions indexed start record
  | addDeoptReason address reason =>
    refine nameSteps_whileRecording _ fun _ => ?_
    split
    · exact .refl
    · exact .single (.change ⟨rfl, rfl, rfl, rfl, rfl, id⟩)
  | disableOptimization name reason =>
    have keeps : ∀ entry : CodeEntry,
        entry.SameTitle { entry with optimizationDisabled := some reason } :=
      fun _ => ⟨rfl, rfl, rfl, rfl, rfl, id⟩
    exact nameSteps_whileRecording _ fun _ => CodeMap.nameSteps_foldl_modifyEntry _ keeps _
  | addScriptSource id url text => exact nameSteps_whileRecording _ fun _ => .refl
  | addScriptDetails id url => exact nameSteps_whileRecording _ fun _ => .refl
  | recordTick tick =>
    have counted : Indexed
        ((profile.observeTime tick.timestamp).countTick tick.vmState).codeMap := indexed
    exact nameSteps_whileRecording _ fun _ => nameSteps_resolveStack counted _ 0 {} _
  | finalize =>
    rw [perform, finalize]
    split
    · exact .refl
    · exact .single (.rearrange rfl rfl)

/-! ## Runs -/

/-- Every request of the run that names a function finds one, or nothing. -/
def FindsFunctions (settings : ProfileSettings) (provider : ScriptProvider)
    (requests : List Request) : Prop :=
  ∀ front request, front ++ [request] <+: requests →
    (run settings provider front).finalized = false →
      request.FindsFunction (run settings provider front)

theorem FindsFunctions.of_prefix {settings : ProfileSettings} {provider : ScriptProvider}
    {front requests : List Request} (finds : FindsFunctions settings provider requests)
    (isFront : front <+: requests) : FindsFunctions settings provider front :=
  fun earlier request isPrefix => finds earlier request (isPrefix.trans isFront)

/-- A run that names no function takes nothing for one. -/
theorem findsFunctions_of_forall {settings : ProfileSettings} {provider : ScriptProvider}
    {requests : List Request}
    (namesNone : ∀ creation address state, .addFunctionCode creation address state ∉ requests) :
    FindsFunctions settings provider requests := by
  intro front request isPrefix _
  have member : request ∈ requests := isPrefix.subset (by simp)
  cases request with
  | addFunctionCode creation address state =>
    exact absurd member (namesNone creation address state)
  | _ => trivial

/-- What a run goes on with does to names what steps do. -/
theorem nameSteps_run {settings : ProfileSettings} {provider : ScriptProvider}
    (before after : List Request) (finds : FindsFunctions settings provider (before ++ after)) :
    NameSteps (run settings provider before).codeMap
      (run settings provider (before ++ after)).codeMap := by
  induction after using List.reverseRecOn with
  | nil => rw [List.append_nil]
  | append_singleton requests request inductionHypothesis =>
    rw [← List.append_assoc] at finds ⊢
    rw [run_append settings provider (before ++ requests)]
    exact (inductionHypothesis (finds.of_prefix (List.prefix_append ..))).trans
      (nameSteps_perform (indexed_run settings provider _) (finds _ _ (List.prefix_refl _)))

/-- A new profile stores the entries of the engine's own functions, which are never found. -/
theorem nameSteps_new (settings : ProfileSettings) (provider : ScriptProvider) :
    NameSteps .empty (new settings provider).codeMap := by
  suffices ∀ functions : List PseudoFunction, ∀ map : CodeMap,
      NameSteps map (functions.foldl
        (fun map function => (map.addDetached (CodeEntry.pseudo function.label)).2) map) from
    this PseudoFunction.all .empty
  intro functions
  induction functions with
  | nil => exact fun _ => .refl
  | cons function functions inductionHypothesis =>
    have unfound : (CodeEntry.pseudo function.label).Unfound :=
      ⟨rfl, fun isFunction => by cases isFunction⟩
    exact fun map => .head (.store unfound) (inductionHypothesis _)

/-- In a run that takes no other code for a function, plain names are given out once. -/
theorem wellNamed_run {settings : ProfileSettings} {provider : ScriptProvider}
    {requests : List Request} (finds : FindsFunctions settings provider requests) :
    WellNamed (run settings provider requests).codeMap :=
  CodeMap.wellNamed_empty.steps
    ((nameSteps_new settings provider).trans (nameSteps_run [] requests finds))

end Profile

end JitTrace
