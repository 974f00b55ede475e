import JitTrace.Proofs.Profile.Likeness
import JitTrace.Proofs.Profile.Run
import JitTrace.Proofs.Profile.TickAgreement
import JitTrace.Proofs.Trace.Faults
import JitTrace.Trace.Analyzer

/-!
# Profiles and analyzers with the same contents

Resolving a stack looks up every address of it, so it rearranges the indices, but what it
finds depends on their entries alone. Profiles with the same contents therefore attribute
a tick alike, and finalizing them prunes and smooths alike. Analyzers that differ in the shapes
of the indices of their profiles alone react to an event alike. An event that cannot be read or
applied leaves behind an analyzer that cannot be told apart from the one it was given to.
-/

/-! ## Ticks -/

namespace JitTrace

/-- Code maps with the same contents answer alike. -/
theorem CodeMap.indistinct_alike : Indistinct id Alike where
  entry alike id := by rw [alike.entry_eq, CodeEntry.readdressed_id]
  lookup? alike := alike.lookup?_eq
  findAddress alike address := alike.findAddress address
  dynamicAt alike address := alike.dynamicAt address

namespace Profile.Alike

variable {left right : Profile}

theorem recordTick (alike : Alike left right) (tick : Tick) :
    Steady Alike right (left.recordTick tick) (right.recordTick tick) := by
  have equal : EqualOver CodeMap.Alike left right := ⟨alike.codeMap, alike.rest⟩
  obtain ⟨result, first, second, onLeft, onRight, recorded⟩ :=
    equal.recordTick CodeMap.indistinct_alike tick
  have provider : first.scripts.provider = ScriptProvider.none := by
    have continues : Continues left (left.recordTick tick).2 := .recordTick left tick
    rw [onLeft] at continues
    exact continues.provider.trans alike.provider
  refine ⟨⟨result, first, second, onLeft, onRight, recorded.codeMap, recorded.rest, provider⟩, ?_⟩
  -- Once it is recorded that there is a tick, nothing fails any more.
  rintro fault failed
  rw [Profile.recordTick, Profile.whileRecording] at failed ⊢
  split at failed
  · rename_i finalized
    rw [if_pos finalized]
    cases failed
    exact ⟨rfl, alike⟩
  · contradiction

theorem finalize (alike : Alike left right) : Agree Alike left.finalize right.finalize := by
  have used : usedFunctions right.codeMap = usedFunctions left.codeMap := by
    simp only [usedFunctions, alike.codeMap.dynamics.toList_eq, alike.codeMap.entry_eq]
  obtain ⟨pruned, first, second, onLeft, onRight, kept⟩ := alike.codeMap.retainDynamic
    fun _ id entry => !entry.isSharedFunction || (usedFunctions left.codeMap).contains id
  obtain ⟨_, rfl⟩ := alike.exists_eq
  simp only [Profile.finalize]
  split
  · exact ⟨_, _, _, rfl, rfl, alike⟩
  · simp only [pruneFunctions, used, onLeft, onRight]
    exact ⟨_, _, _, rfl, rfl, kept, rfl, alike.provider⟩

end Profile.Alike

end JitTrace

/-! ## Events -/

namespace JitTrace.Analyzer

/-- Two analyzers have learnt the same, and neither scripts nor symbols can be
requested. -/
structure Alike (left right : Analyzer) : Prop where
  profile : left.profile.Alike right.profile
  rest : right = { left with profile := right.profile }
  symbols : left.symbols = SymbolProvider.none

namespace Alike

variable {left right : Analyzer}

theorem exists_eq (alike : Alike left right) : ∃ profile, right = { left with profile } :=
  ⟨_, alike.rest⟩

/-! ### Questions -/

theorem findEntry?_eq (alike : Alike left right) :
    right.profile.findEntry? = left.profile.findEntry? := by
  funext address
  simp only [Profile.findEntry?, alike.profile.codeMap.lookup?_eq]

theorem entry_eq (alike : Alike left right) : right.profile.entry = left.profile.entry :=
  alike.profile.codeMap.entry_eq

theorem namedEntry_eq (alike : Alike left right) :
    right.profile.namedEntry = left.profile.namedEntry := by
  funext id
  simp only [Profile.namedEntry, alike.entry_eq]

theorem scriptUrl?_eq (alike : Alike left right) :
    right.profile.scriptUrl? = left.profile.scriptUrl? := by
  have scripts : right.profile.scripts = left.profile.scripts := by rw [alike.profile.rest]
  funext id
  simp only [Profile.scriptUrl?, alike.entry_eq, alike.namedEntry_eq, scripts]

theorem nameAt?_eq (alike : Alike left right) : right.nameAt? = left.nameAt? := by
  funext address
  simp only [Analyzer.nameAt?, alike.findEntry?_eq, alike.profile.codeMap.displayName_eq]

theorem uriAt_eq (alike : Alike left right) : right.uriAt = left.uriAt := by
  funext address
  simp only [Analyzer.uriAt, alike.findEntry?_eq, alike.scriptUrl?_eq]

theorem positionAt_eq (alike : Alike left right) : right.positionAt = left.positionAt := by
  funext address
  simp only [Analyzer.positionAt, alike.findEntry?_eq, alike.namedEntry_eq, alike.uriAt_eq]

/-! ### Changes -/

/-- A steady change of the profile is a steady change of the analyzer. -/
theorem changeProfile {Result : Type} (alike : Alike left right)
    (change : Profile → Profile.Outcome Result)
    (steady : Steady Profile.Alike right.profile (change left.profile) (change right.profile)) :
    Steady Alike right (left.changeProfile change) (right.changeProfile change) := by
  obtain ⟨⟨result, first, second, onLeft, onRight, changed⟩, failed⟩ := steady
  rw [onLeft] at failed
  obtain ⟨profile, rfl⟩ := alike.exists_eq
  simp only [Analyzer.changeProfile, onLeft, onRight]
  cases result with
  | ok result => exact .of_ok ⟨changed, rfl, alike.symbols⟩ ()
  | error fault =>
    obtain ⟨goesOn, unchanged⟩ := failed fault rfl
    exact .of_error ⟨changed, rfl, alike.symbols⟩ ⟨unchanged, rfl, alike.symbols⟩ goesOn

/-- Events can always be recorded. -/
theorem changeEvents (alike : Alike left right) {before : Analyzer} (change : EventLog → EventLog) :
    Steady Alike before (left.changeEvents change) (right.changeEvents change) := by
  obtain ⟨profile, rfl⟩ := alike.exists_eq
  exact .of_ok ⟨alike.profile, rfl, alike.symbols⟩ ()

theorem addLibrary (alike : Alike left right) (name : String) (start stop : UInt64) :
    Steady Alike right (left.addLibrary name start stop) (right.addLibrary name start stop) := by
  have added := alike.changeProfile (·.addLibrary name start stop)
    (alike.profile.addLibrary name start stop)
  rcases added.cases with ⟨_, first, second, onLeft, onRight, changed⟩ |
    ⟨fault, first, second, onLeft, onRight, changed, unchanged, goesOn⟩
  · have symbols : second.symbols = SymbolProvider.none := by
      rw [changed.rest]
      exact changed.symbols
    simp only [Analyzer.addLibrary, onLeft, onRight, changed.symbols, symbols, SymbolProvider.none]
    exact .of_ok changed ()
  · simp only [Analyzer.addLibrary, onLeft, onRight]
    exact .of_error changed unchanged goesOn

theorem addDeopt (alike : Alike left right) (event : DeoptEvent) :
    Steady Alike right (left.addDeopt event) (right.addDeopt event) := by
  have reasoned := alike.changeProfile (·.addDeoptReason event.code event.reason)
    (alike.profile.addDeoptReason event.code event.reason)
  simp only [Analyzer.addDeopt, alike.positionAt_eq, alike.nameAt?_eq]
  rcases reasoned.cases with ⟨_, first, second, onLeft, onRight, changed⟩ |
    ⟨fault, first, second, onLeft, onRight, changed, unchanged, goesOn⟩
  · simp only [onLeft, onRight]
    exact changed.changeEvents _
  · simp only [onLeft, onRight]
    exact .of_error changed unchanged goesOn

theorem disableOptimization (alike : Alike left right) (name reason : String) :
    Steady Alike right (left.disableOptimization name reason)
      (right.disableOptimization name reason) := by
  have disabled := alike.changeProfile (·.disableOptimization name reason)
    (alike.profile.disableOptimization name reason)
  rcases disabled.cases with ⟨_, first, second, onLeft, onRight, changed⟩ |
    ⟨fault, first, second, onLeft, onRight, changed, unchanged, goesOn⟩
  · simp only [Analyzer.disableOptimization, onLeft, onRight]
    exact changed.changeEvents _
  · simp only [Analyzer.disableOptimization, onLeft, onRight]
    exact .of_error changed unchanged goesOn

theorem addIc (alike : Alike left right) (event : IcEvent) :
    Steady Alike right (left.addIc event) (right.addIc event) := by
  simp only [Analyzer.addIc, alike.nameAt?_eq, alike.uriAt_eq]
  exact alike.changeEvents _

theorem addMapTransition (alike : Alike left right) (transition : MapTransition) :
    Steady Alike right (left.addMapTransition transition) (right.addMapTransition transition) := by
  simp only [Analyzer.addMapTransition, alike.positionAt_eq]
  exact alike.changeEvents _

/-- An event that cannot be applied changes nothing that counts. -/
theorem apply (alike : Alike left right) (event : TraceEvent) :
    Steady Alike right (left.apply event) (right.apply event) := by
  cases event with
  | version version =>
    obtain ⟨profile, rfl⟩ := alike.exists_eq
    simp only [Analyzer.apply]
    split
    · exact .of_ok alike ()
    · exact .of_ok ⟨alike.profile, rfl, alike.symbols⟩ ()
  | library name start stop => exact alike.addLibrary name start stop
  | code creation => exact alike.changeProfile (·.addCode creation) (alike.profile.addCode creation)
  | functionCode creation address state =>
    exact alike.changeProfile (·.addFunctionCode creation address state)
      (alike.profile.addFunctionCode creation address state)
  | moveCode source target =>
    exact alike.changeProfile (·.moveCode source target) (alike.profile.moveCode source target)
  | deleteCode start =>
    exact alike.changeProfile (·.deleteCode start) (alike.profile.deleteCode start)
  | moveFunction source target =>
    exact alike.changeProfile (·.moveFunction source target)
      (alike.profile.moveFunction source target)
  | sourcePositions start record =>
    exact alike.changeProfile (·.addSourcePositions start record)
      (alike.profile.addSourcePositions start record)
  | scriptSource id url text =>
    exact alike.changeProfile (·.addScriptSource id url text)
      (alike.profile.addScriptSource id url text)
  | scriptDetails id url =>
    exact alike.changeProfile (·.addScriptDetails id url) (alike.profile.addScriptDetails id url)
  | deopt event => exact alike.addDeopt event
  | disableOptimization name reason => exact alike.disableOptimization name reason
  | ic event => exact alike.addIc event
  | mapUpdate id update => exact alike.changeEvents (·.addMapUpdate id update)
  | mapTransition transition => exact alike.addMapTransition transition
  | tick tick => exact alike.changeProfile (·.recordTick tick) (alike.profile.recordTick tick)
  | timer => exact .of_ok alike ()

end Alike

end JitTrace.Analyzer
