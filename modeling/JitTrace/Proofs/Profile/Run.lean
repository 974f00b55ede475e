import JitTrace.Profile.Finalize
import JitTrace.Proofs.Profile.Stack

/-!
# Runs of profiles

What can be done to a profile while it is recorded: code events, script events, ticks
and finalizing, in any order and also after the profile has been finalized.
-/

namespace JitTrace

namespace Profile

/-- A request that may change a profile. -/
inductive Request where
  | addLibrary (name : String) (start stop : UInt64)
  | addStaticCode (name : String) (start stop : UInt64)
  | addCode (creation : CodeCreation)
  | addFunctionCode (creation : CodeCreation) (address : UInt64) (state : FunctionState)
  | moveCode (source target : UInt64)
  | deleteCode (start : UInt64)
  | moveFunction (source target : UInt64)
  | addSourcePositions (start : UInt64) (record : SourceRecord)
  | addDeoptReason (address : UInt64) (reason : String)
  | disableOptimization (name reason : String)
  | addScriptSource (id : UInt32) (url text : String)
  | addScriptDetails (id : UInt32) (url : String)
  | recordTick (tick : Tick)
  | finalize

/-- The request leaves a profile that is recorded as it is. -/
def Request.goesOn : Request → Bool
  | .finalize => false
  | _ => true

/-- The profile after a request, whether it was answered or refused. -/
def perform (profile : Profile) : Request → Profile
  | .addLibrary name start stop => (profile.addLibrary name start stop).2
  | .addStaticCode name start stop => (profile.addStaticCode name start stop).2
  | .addCode creation => (profile.addCode creation).2
  | .addFunctionCode creation address state => (profile.addFunctionCode creation address state).2
  | .moveCode source target => (profile.moveCode source target).2
  | .deleteCode start => (profile.deleteCode start).2
  | .moveFunction source target => (profile.moveFunction source target).2
  | .addSourcePositions start record => (profile.addSourcePositions start record).2
  | .addDeoptReason address reason => (profile.addDeoptReason address reason).2
  | .disableOptimization name reason => (profile.disableOptimization name reason).2
  | .addScriptSource id url text => (profile.addScriptSource id url text).2
  | .addScriptDetails id url => (profile.addScriptDetails id url).2
  | .recordTick tick => (profile.recordTick tick).2
  | .finalize => profile.finalize.2

/-- A profile that began empty, after some requests. -/
def run (settings : ProfileSettings) (provider : ScriptProvider) (requests : List Request) :
    Profile :=
  requests.foldl perform (new settings provider)

theorem run_append (settings : ProfileSettings) (provider : ScriptProvider)
    (front back : List Request) :
    run settings provider (front ++ back) = back.foldl perform (run settings provider front) :=
  List.foldl_append

end Profile

/-! ## What continues along a run -/

/-- Asking for the text of a script fails with the fault of the provider. -/
theorem ScriptRegistry.provider_ensureSource (registry : ScriptRegistry) (id : UInt32) :
    (registry.ensureSource id).2.provider = registry.provider ∧
      ∀ fault, (registry.ensureSource id).1 = .error fault →
        ∃ url, registry.provider url = .error fault := by
  rw [ensureSource]
  cases registry.get? id with
  | none => exact ⟨rfl, nofun⟩
  | some script =>
    dsimp only
    split
    · exact ⟨rfl, nofun⟩
    split
    · exact ⟨rfl, nofun⟩
    cases provided : registry.provider script.url with
    | error fault =>
      refine ⟨rfl, ?_⟩
      rintro _ ⟨⟩
      exact ⟨script.url, provided⟩
    | ok text => cases text <;> exact ⟨rfl, nofun⟩

namespace Profile

variable {profile before after : Profile}

/-- What an event changes that concerns code or scripts. -/
structure Event (before after : Profile) : Prop where
  rest : after =
    { before with
      codeMap := after.codeMap, scripts := after.scripts, unknownCode := after.unknownCode }
  provider : after.scripts.provider = before.scripts.provider

theorem Event.whileRecording {Result : Type} {operation : ProfileOperation}
    {change : Profile → Outcome Result} (event : Event profile (change profile).2) :
    Event profile (profile.whileRecording operation change).2 := by
  rw [Profile.whileRecording]
  split
  · exact ⟨rfl, rfl⟩
  · exact event

/-- A request other than a tick or finalizing concerns code or scripts alone. -/
theorem event_perform (profile : Profile) (request : Request) :
    Event profile (profile.perform request) ∨ (∃ tick, request = .recordTick tick) ∨
      request = .finalize := by
  cases request with
  | recordTick tick => exact .inr (.inl ⟨tick, rfl⟩)
  | finalize => exact .inr (.inr rfl)
  | addFunctionCode creation address state =>
    refine .inl (.whileRecording ?_)
    dsimp only
    split
    · exact ⟨rfl, rfl⟩
    · split <;> exact ⟨rfl, rfl⟩
  | moveCode source target =>
    refine .inl (.whileRecording ?_)
    split <;> exact ⟨rfl, rfl⟩
  | deleteCode start =>
    refine .inl (.whileRecording ?_)
    split <;> exact ⟨rfl, rfl⟩
  | moveFunction source target =>
    refine .inl (.whileRecording ?_)
    split <;> exact ⟨rfl, rfl⟩
  | addSourcePositions start record =>
    refine .inl (.whileRecording ?_)
    split
    · exact ⟨rfl, rfl⟩
    · split
      · exact ⟨rfl, rfl⟩
      · exact ⟨rfl, (ScriptRegistry.provider_ensureSource _ _).1⟩
  | addDeoptReason address reason =>
    refine .inl (.whileRecording ?_)
    split <;> exact ⟨rfl, rfl⟩
  | _ => exact .inl (.whileRecording ⟨rfl, rfl⟩)

/-- The second profile is recorded as the first one is, from the same provider of scripts. -/
structure Continues (before after : Profile) : Prop where
  finalized : after.finalized = before.finalized
  provider : after.scripts.provider = before.scripts.provider

namespace Continues

theorem refl (profile : Profile) : Continues profile profile :=
  ⟨rfl, rfl⟩

theorem trans {middle : Profile} (left : Continues before middle) (right : Continues middle after) :
    Continues before after :=
  ⟨right.finalized.trans left.finalized, right.provider.trans left.provider⟩

theorem resolveStack (profile : Profile) (kind : StackKind) (position : Nat)
    (search : NativeEntrySearch) (stack : List UInt64) :
    Continues profile (profile.resolveStack kind position search stack).2 := by
  let read := fun profile : Profile => (profile.finalized, profile.scripts.provider)
  have counts (profile : Profile) (entered : Option String) :
      read (profile.countNativeEntry entered) = read profile := by
    cases entered <;> rfl
  have reports (profile : Profile) (position : Nat) (address : UInt64) :
      read (profile.reportMissing position address) = read profile := by
    simp only [read, reportMissing]
    split <;> rfl
  have same := read_resolveStack read reports counts (fun _ _ _ => rfl) profile kind position search
    stack
  exact ⟨congrArg Prod.fst same, congrArg Prod.snd same⟩

theorem recordTick (profile : Profile) (tick : Tick) :
    Continues profile (profile.recordTick tick).2 := by
  rw [Profile.recordTick, Profile.whileRecording]
  split
  · exact refl profile
  have counted : Continues profile
      ((profile.observeTime tick.timestamp).countTick tick.vmState) := ⟨rfl, rfl⟩
  let physical := Tick.physicalStack profile.codeMap tick
  have resolved := counted.trans (resolveStack _ physical.1 0 {} physical.2)
  exact resolved.trans ⟨rfl, rfl⟩

/-- No request but that to finalize the profile ends the recording. -/
theorem perform (profile : Profile) {request : Request} (goesOn : request.goesOn = true) :
    Continues profile (profile.perform request) := by
  rcases profile.event_perform request with event | ⟨tick, rfl⟩ | rfl
  · rw [event.rest]
    exact ⟨rfl, event.provider⟩
  · exact recordTick profile tick
  · contradiction

end Continues

/-- Scripts are always provided by the provider that a profile began with. -/
theorem provider_run (settings : ProfileSettings) (provider : ScriptProvider)
    (requests : List Request) : (run settings provider requests).scripts.provider = provider := by
  suffices ∀ profile : Profile,
      (requests.foldl perform profile).scripts.provider = profile.scripts.provider from
    this (new settings provider)
  induction requests with
  | nil => exact fun _ => rfl
  | cons request requests inductionHypothesis =>
    intro profile
    rw [List.foldl_cons, inductionHypothesis]
    cases goesOn : request.goesOn with
    | true => exact (Continues.perform profile goesOn).provider
    | false =>
      cases request with
      | finalize =>
        rw [perform, finalize]
        split <;> rfl
      | _ => contradiction

end Profile

end JitTrace
