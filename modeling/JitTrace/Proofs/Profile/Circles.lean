import JitTrace.Proofs.Profile.Answers
import JitTrace.Proofs.Profile.Inlining
import JitTrace.Proofs.Profile.PseudoFunctions

/-!
# Ticks that end

Recording a tick never ends if it falls on calls that stand in one another in a circle. Code
gets the source mappings that requests attach to it and no others, so as long as in none of
them a call stands in itself, every tick ends.
-/

namespace JitTrace

open CodeMap (Indexed Worked)

/-- No inlined call stands in itself. -/
def SourceInfo.Circleless (source : SourceInfo) : Prop :=
  ∀ id?, source.Acyclic id?

namespace CodeMap

variable {admits : SourceInfo → Prop} {map before after : CodeMap}

/-- Every source mapping in the map is admitted. -/
def MapsOnly (admits : SourceInfo → Prop) (map : CodeMap) : Prop :=
  ∀ id source, (map.entry id).source = some source → admits source

/-- A lookup changes no source mapping. -/
theorem Indexed.source_findAddress (indexed : Indexed map) (address : UInt64) (id : CodeId) :
    ((map.findAddress address).2.entry id).source = (map.entry id).source := by
  obtain ⟨searched, alike, finds⟩ := indexed.exists_findAddress address
  have same : (searched.entry id).source = (map.entry id).source := by rw [alike.entry_eq]
  rw [finds]
  dsimp only
  split
  · exact same
  · cases map.lookup? address with
    | none => exact same
    | some located =>
      rcases numberName_cases searched located.id with unchanged | ⟨name, names, numbered⟩
      · rw [Option.elim_some, unchanged, same]
      · rw [Option.elim_some, numbered, ← same]
        change ((searched.modifyEntry located.id _).entry id).source = _
        rw [entry_modifyEntry]
        split
        · rename_i isLocated
          rw [isLocated.1]
        · rfl

/-- An operation that registers no source mapping adds none. -/
theorem MapsOnly.perform (mapsOnly : MapsOnly admits map) (indexed : Indexed map)
    (operation : Operation)
    (unmapped : operation.registration?.all (·.entry.source.isNone) = true) :
    MapsOnly admits (operation.perform map) := by
  by_cases lookup : ∃ address, operation = .findAddress address
  · obtain ⟨address, rfl⟩ := lookup
    intro id source mapped
    exact mapsOnly id source ((indexed.source_findAddress address id).symm.trans mapped)
  · obtain ⟨-, arena⟩ := indexed.stores_perform operation fun address isLookup =>
      lookup ⟨address, isLookup⟩
    intro id source mapped
    rw [CodeMap.entry, arena] at mapped
    cases registers : operation.registration? with
    | none => exact mapsOnly id source (by rwa [registers] at mapped)
    | some registration =>
      rw [registers, Option.elim_some, Grown.entry_push] at mapped
      split at mapped
      · simp [registers, mapped] at unmapped
      · exact mapsOnly id source mapped

/-- Working on a map adds no source mapping but those that are admitted. -/
theorem Worked.mapsOnly {attached : SourceInfo → Prop} (worked : Worked attached before after)
    (indexed : Indexed before) (admitted : ∀ source, attached source → admits source)
    (mapsOnly : MapsOnly admits before) : MapsOnly admits after := by
  induction worked with
  | refl => exact mapsOnly
  | perform operation unmapped worked inductionHypothesis =>
    exact inductionHypothesis.perform (worked.indexed indexed) operation unmapped
  | modifyEntry change maps _ _ inductionHypothesis =>
    intro other source mapped
    rw [entry_modifyEntry] at mapped
    split at mapped
    · rcases maps _ _ mapped with old | new
      · exact inductionHypothesis _ source old
      · exact admitted source new
    · exact inductionHypothesis other source mapped

end CodeMap

namespace Profile

variable {profile : Profile}

theorem Request.isMapping_of_maps {request : Request} {source : SourceInfo}
    (maps : request.Maps source) : request.isMapping = true := by
  cases request with
  | addSourcePositions => rfl
  | _ => exact maps.elim

/-- No source mapping of the profile has a circle, and every tick so far has ended. -/
structure Circleless (profile : Profile) : Prop where
  indexed : Indexed profile.codeMap
  mapsOnly : profile.codeMap.MapsOnly SourceInfo.Circleless
  ends : profile.endless = false

/-- The calls at an address of code without circles have an end. -/
theorem endless_resolveAddress {map : CodeMap} (indexed : Indexed map)
    (mapsOnly : map.MapsOnly SourceInfo.Circleless) (address : UInt64) (isReturnAddress : Bool) :
    (resolveAddress map address isReturnAddress).1.endless = false := by
  have searched : Worked (fun _ => False) map (map.findAddress address).2 :=
    .perform (.findAddress address) rfl .refl
  have stillIndexed := searched.indexed indexed
  have stillMaps := searched.mapsOnly indexed (by simp) mapsOnly
  rw [resolveAddress]
  split
  · rfl
  · rename_i located after finds
    rw [finds] at stillIndexed stillMaps
    obtain ⟨frames?, expanded, expands, -, endless, -⟩ :=
      stillIndexed.exists_expandFrame located isReturnAddress
    dsimp only
    rw [expands]
    refine Option.isNone_eq_false_iff.mpr (Option.isSome_iff_ne_none.mpr fun nothing => ?_)
    obtain ⟨source, position, mapped, -, circular⟩ := endless.mp nothing
    exact circular (stillMaps _ source mapped _)

theorem endless_reportMissing (profile : Profile) (position : Nat) (address : UInt64) :
    (profile.reportMissing position address).endless = profile.endless := by
  rw [reportMissing]
  split <;> rfl

theorem endless_countNativeEntry (profile : Profile) (entered : Option String) :
    (profile.countNativeEntry entered).endless = profile.endless := by
  cases entered <;> rfl

/-- So have the calls of a stack. -/
theorem endless_resolveStack (circleless : Circleless profile) (kind : StackKind) (position : Nat)
    (search : NativeEntrySearch) (stack : List UInt64) :
    (profile.resolveStack kind position search stack).2.endless = false := by
  induction stack generalizing profile position search with
  | nil => exact circleless.ends
  | cons address stack inductionHypothesis =>
    have worked := worked_resolveAddress circleless.indexed address (!position == 0)
    have ends := endless_resolveAddress circleless.indexed circleless.mapsOnly address
      (!position == 0)
    have first : Circleless (profile.resolveOne position search address) := by
      refine ⟨?_, ?_, ?_⟩
      · rw [codeMap_resolveOne]
        exact worked.indexed circleless.indexed
      · rw [codeMap_resolveOne]
        exact worked.mapsOnly circleless.indexed (by simp) circleless.mapsOnly
      · rw [read_resolveOne (·.endless) endless_reportMissing endless_countNativeEntry]
        simp [circleless.ends, ends]
    rw [resolveStack_cons]
    exact inductionHypothesis first _ _

/-- While every source mapping is without circles, every tick ends. -/
theorem endless_recordTick (circleless : Circleless profile) (tick : Tick) :
    (profile.recordTick tick).2.endless = false := by
  rw [recordTick, whileRecording]
  split
  · exact circleless.ends
  · have counted : Circleless ((profile.observeTime tick.timestamp).countTick tick.vmState) :=
      ⟨circleless.indexed, circleless.mapsOnly, circleless.ends⟩
    exact endless_resolveStack counted _ 0 {} _

namespace Circleless

/-- A request that attaches no circle ends, and it leaves none. -/
theorem perform (circleless : Circleless profile) (request : Request)
    (attaches : ∀ source, request.Maps source → source.Circleless) :
    Circleless (profile.perform request) where
  indexed := indexed_perform circleless.indexed request
  mapsOnly :=
    (worked_perform circleless.indexed request).mapsOnly circleless.indexed attaches
      circleless.mapsOnly
  ends := by
    rcases profile.event_perform request with event | ⟨tick, rfl⟩ | rfl
    · rw [event.rest]
      exact circleless.ends
    · exact endless_recordTick circleless tick
    · rw [Profile.perform, finalize]
      split <;> exact circleless.ends

/-- So does one that attaches no source mapping. -/
theorem perform_ordinary (circleless : Circleless profile) (request : Request)
    (ordinary : request.isMapping = false) : Circleless (profile.perform request) :=
  circleless.perform request fun source maps => by
    simp [Request.isMapping_of_maps maps] at ordinary

/-- A new profile has no source mapping at all. -/
theorem new (settings : ProfileSettings) (provider : ScriptProvider) :
    Circleless (new settings provider) where
  indexed := (grown_new settings provider).indexed
  mapsOnly := by
    rintro ⟨index⟩ source mapped
    match index with
    | 0 | 1 | 2 | 3 | 4 | _ + 5 => cases mapped
  ends := rfl

end Circleless

end Profile

end JitTrace
