import JitTrace.Profile.Finalize
import JitTrace.Profile.Queries
import JitTrace.Profile.Ticks
import JitTrace.Proofs.Code.Likeness
import JitTrace.Proofs.Record.Faults

/-!
# Profiles with the same contents

Profiles that differ in the shapes of their indices alone cannot be told apart, and a
request that fails leaves a profile behind that cannot be told apart from the one it was
made to. The latter takes a provider without scripts, since a provider that fails is
asked only after the profile has taken note of the script.
-/

namespace JitTrace

namespace Profile

/-- Two profiles hold the same, and no script can be requested. -/
structure Alike (left right : Profile) : Prop where
  codeMap : left.codeMap.Alike right.codeMap
  rest : right = { left with codeMap := right.codeMap }
  provider : left.scripts.provider = ScriptProvider.none

/-- Where no script can be requested, seeing to the text of one does not fail. -/
theorem exists_ensureSource {registry : ScriptRegistry}
    (provider : registry.provider = ScriptProvider.none) (id : UInt32) :
    ∃ scripts, registry.ensureSource id = (.ok (), scripts) ∧
      scripts.provider = ScriptProvider.none := by
  rw [ScriptRegistry.ensureSource]
  cases registry.get? id with
  | none => exact ⟨_, rfl, provider⟩
  | some script =>
    dsimp only
    rw [provider]
    split
    · exact ⟨_, rfl, provider⟩
    · split
      · exact ⟨_, rfl, rfl⟩
      · exact ⟨_, rfl, rfl⟩

namespace Alike

variable {left right : Profile}

/-- Profiles that are alike differ in their code maps alone. -/
theorem exists_eq (alike : Alike left right) : ∃ codeMap, right = { left with codeMap } :=
  ⟨_, alike.rest⟩

theorem withCodeMap (alike : Alike left right) {first second : CodeMap}
    (codeMap : first.Alike second) :
    Alike { left with codeMap := first } { right with codeMap := second } := by
  obtain ⟨_, rfl⟩ := alike.exists_eq
  exact ⟨codeMap, rfl, alike.provider⟩

/-- A profile whose code map has been put in another shape. -/
theorem reshaped (alike : Alike left right) {codeMap : CodeMap}
    (same : codeMap.Alike right.codeMap) : Alike { left with codeMap } right :=
  ⟨same, alike.rest, alike.provider⟩

theorem reportUnknown (alike : Alike left right) (unknown : UnknownCode) :
    Alike (left.reportUnknown unknown) (right.reportUnknown unknown) := by
  obtain ⟨_, rfl⟩ := alike.exists_eq
  exact ⟨alike.codeMap, rfl, alike.provider⟩

/-- A refused change is a failure that changes nothing. -/
theorem whileRecording {Result : Type} (alike : Alike left right) (operation : ProfileOperation)
    (change : Profile → Outcome Result) (steady : Steady Alike right (change left) (change right)) :
    Steady Alike right (left.whileRecording operation change)
      (right.whileRecording operation change) := by
  have finalized : right.finalized = left.finalized := by rw [alike.rest]
  rw [Profile.whileRecording, Profile.whileRecording, finalized]
  split
  · exact .of_error alike alike rfl
  · exact steady

/-! ### Code events -/

theorem addLibrary (alike : Alike left right) (name : String) (start stop : UInt64) :
    Steady Alike right (left.addLibrary name start stop) (right.addLibrary name start stop) := by
  apply alike.whileRecording
  obtain ⟨id, first, second, onLeft, onRight, added⟩ := alike.codeMap.addLibrary start
    (CodeEntry.plain (Number.saturatingSub stop start) name CodeEntry.libraryType)
  simp only [onLeft, onRight]
  exact .of_ok (alike.withCodeMap added) id

theorem addStaticCode (alike : Alike left right) (name : String) (start stop : UInt64) :
    Steady Alike right (left.addStaticCode name start stop)
      (right.addStaticCode name start stop) := by
  apply alike.whileRecording
  obtain ⟨id, first, second, onLeft, onRight, added⟩ := alike.codeMap.addStaticCode start
    (CodeEntry.plain (Number.saturatingSub stop start) name CodeEntry.nativeType)
  simp only [onLeft, onRight]
  exact .of_ok (alike.withCodeMap added) id

theorem addCode (alike : Alike left right) (creation : CodeCreation) :
    Steady Alike right (left.addCode creation) (right.addCode creation) := by
  apply alike.whileRecording
  obtain ⟨id, first, second, onLeft, onRight, added⟩ := alike.codeMap.addCode creation.start
    { CodeEntry.dynamic creation.size creation.name creation.codeType with
      kind := creation.kind, timestamp := some creation.timestamp }
  simp only [onLeft, onRight]
  exact .of_ok (alike.withCodeMap added) id

end Alike

theorem functionAt_agree {left right : CodeMap} (alike : left.Alike right) (address : UInt64)
    (name : String) :
    Agree CodeMap.Alike (functionAt left address name) (functionAt right address name) := by
  obtain ⟨found, first, second, onLeft, onRight, searched⟩ := alike.dynamicAt address
  simp only [functionAt, onLeft, onRight]
  cases found with
  | none => exact searched.addCode address _
  | some function => exact ⟨_, _, _, rfl, rfl, searched.modifyEntry function _⟩

namespace Alike

variable {left right : Profile}

theorem addFunctionCode (alike : Alike left right) (creation : CodeCreation) (address : UInt64)
    (state : FunctionState) :
    Steady Alike right (left.addFunctionCode creation address state)
      (right.addFunctionCode creation address state) := by
  apply alike.whileRecording
  obtain ⟨function, first, second, onLeft, onRight, named⟩ :=
    functionAt_agree alike.codeMap address creation.name
  obtain ⟨found, third, fourth, onFirst, onSecond, searched⟩ := named.dynamicAt creation.start
  have placed : ∀ {one other : CodeMap}, one.Alike other → ∃ id after otherAfter,
      one.addCode creation.start { CodeEntry.compiled creation.size creation.codeType function state
        with kind := creation.kind, timestamp := some creation.timestamp } = (id, after) ∧
      other.addCode creation.start { CodeEntry.compiled creation.size creation.codeType function
        state with kind := creation.kind, timestamp := some creation.timestamp } =
          (id, otherAfter) ∧ after.Alike otherAfter :=
    fun maps => maps.addCode creation.start _
  simp only [onLeft, onRight, onFirst, onSecond]
  cases found with
  | none =>
    obtain ⟨id, after, otherAfter, onThird, onFourth, added⟩ := placed searched
    simp only [onThird, onFourth]
    exact .of_ok (alike.withCodeMap added) id
  | some existing =>
    have reported : isReported fourth existing function creation.size =
        isReported third existing function creation.size := by
      simp only [isReported, searched.entry_eq]
    simp only [reported]
    split
    · exact .of_ok (alike.withCodeMap (searched.modifyEntry existing _)) existing
    · obtain ⟨_, fifth, sixth, onThird, onFourth, dropped⟩ := searched.deleteCode creation.start
      obtain ⟨id, after, otherAfter, onFifth, onSixth, added⟩ := placed dropped
      simp only [onThird, onFourth, onFifth, onSixth]
      exact .of_ok (alike.withCodeMap added) id

theorem moveCode (alike : Alike left right) (source target : UInt64) :
    Steady Alike right (left.moveCode source target) (right.moveCode source target) := by
  apply alike.whileRecording
  obtain ⟨⟨result, first, second, onLeft, onRight, moved⟩, failed⟩ :=
    alike.codeMap.moveCode source target
  rw [onLeft] at failed
  simp only [onLeft, onRight]
  cases result with
  | ok _ => exact .of_ok (alike.withCodeMap moved) ()
  | error fault =>
    obtain ⟨goesOn, unchanged⟩ := failed fault rfl
    cases fault with
    | codeNotFound address => exact .of_ok ((alike.withCodeMap moved).reportUnknown _) ()
    | _ => exact .of_error (alike.withCodeMap moved) (alike.reshaped unchanged) goesOn

theorem deleteCode (alike : Alike left right) (start : UInt64) :
    Steady Alike right (left.deleteCode start) (right.deleteCode start) := by
  apply alike.whileRecording
  obtain ⟨found, first, second, onLeft, onRight, dropped⟩ := alike.codeMap.deleteCode start
  simp only [onLeft, onRight]
  cases found with
  | none => exact .of_ok ((alike.withCodeMap dropped).reportUnknown _) ()
  | some id => exact .of_ok (alike.withCodeMap dropped) ()

theorem moveFunction (alike : Alike left right) (source target : UInt64) :
    Steady Alike right (left.moveFunction source target) (right.moveFunction source target) := by
  apply alike.whileRecording
  obtain ⟨found, first, second, onLeft, onRight, searched⟩ := alike.codeMap.dynamicAt source
  simp only [onLeft, onRight]
  cases found with
  | none => exact .of_ok (alike.withCodeMap searched) ()
  | some id =>
    have sought := alike.codeMap.dynamicAt_unchanged source
    rw [onLeft] at sought
    obtain ⟨⟨_, third, fourth, onFirst, onSecond, moved⟩, -⟩ := searched.moveCode source target
    obtain ⟨-, failed⟩ := sought.moveCode source target
    rw [onFirst] at failed
    simp only [onFirst, onSecond]
    refine ⟨⟨_, _, _, rfl, rfl, alike.withCodeMap moved⟩, fun fault isFault => ?_⟩
    obtain ⟨goesOn, unchanged⟩ := failed fault isFault
    exact ⟨goesOn, alike.reshaped unchanged⟩

theorem addSourcePositions (alike : Alike left right) (start : UInt64) (record : SourceRecord) :
    Steady Alike right (left.addSourcePositions start record)
      (right.addSourcePositions start record) := by
  apply alike.whileRecording
  obtain ⟨found, first, second, onLeft, onRight, searched⟩ := alike.codeMap.dynamicAt start
  simp only [onLeft, onRight]
  cases found with
  | none => exact .of_ok (alike.withCodeMap searched) ()
  | some id =>
    have sought := alike.codeMap.dynamicAt_unchanged start
    rw [onLeft] at sought
    cases parsed : PositionText.sourceInfo record.scriptId record.start record.stop
        record.positions record.inlining record.functions with
    | error fault =>
      have ofLine := PositionText.ofLine_sourceInfo _ _ _ _ _ _ fault parsed
      exact .of_error (alike.withCodeMap searched) (alike.reshaped sought)
        (Fault.isCancellation_of_isOfLine ofLine)
    | ok info =>
      obtain ⟨scripts, ensured, provider⟩ := exists_ensureSource alike.provider record.scriptId
      obtain ⟨_, rfl⟩ := alike.exists_eq
      simp only [ensured]
      exact .of_ok ⟨searched.modifyEntry id _, rfl, provider⟩ ()

theorem addScriptSource (alike : Alike left right) (id : UInt32) (url text : String) :
    Steady Alike right (left.addScriptSource id url text) (right.addScriptSource id url text) := by
  apply alike.whileRecording
  obtain ⟨_, rfl⟩ := alike.exists_eq
  exact .of_ok ⟨alike.codeMap, rfl, alike.provider⟩ ()

theorem addScriptDetails (alike : Alike left right) (id : UInt32) (url : String) :
    Steady Alike right (left.addScriptDetails id url) (right.addScriptDetails id url) := by
  apply alike.whileRecording
  obtain ⟨_, rfl⟩ := alike.exists_eq
  exact .of_ok ⟨alike.codeMap, rfl, alike.provider⟩ ()

theorem addDeoptReason (alike : Alike left right) (address : UInt64) (reason : String) :
    Steady Alike right (left.addDeoptReason address reason)
      (right.addDeoptReason address reason) := by
  apply alike.whileRecording
  simp only [alike.codeMap.lookup?_eq]
  cases left.codeMap.lookup? address with
  | none => exact .of_ok alike none
  | some located => exact .of_ok (alike.withCodeMap (alike.codeMap.modifyEntry located.id _)) _

theorem disableOptimization (alike : Alike left right) (name reason : String) :
    Steady Alike right (left.disableOptimization name reason)
      (right.disableOptimization name reason) := by
  apply alike.whileRecording
  have named : functionsNamed right.codeMap name = functionsNamed left.codeMap name := by
    simp only [functionsNamed, alike.codeMap.dynamics.toList_eq, alike.codeMap.entry_eq]
  have marked : ∀ functions : List CodeId,
      (functions.foldl (fun map id => map.modifyEntry id fun entry =>
        { entry with optimizationDisabled := some reason }) left.codeMap).Alike
      (functions.foldl (fun map id => map.modifyEntry id fun entry =>
        { entry with optimizationDisabled := some reason }) right.codeMap) :=
    fun functions => alike.codeMap.foldl_modifyEntry functions _
  rw [named]
  exact .of_ok (alike.withCodeMap (marked _)) _

end Alike

end Profile

end JitTrace
