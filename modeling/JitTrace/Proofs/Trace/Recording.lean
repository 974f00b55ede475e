import JitTrace.Proofs.Profile.Answers
import JitTrace.Proofs.Trace.Table

/-!
# Analyzers that record

As long as the profile of an analyzer is recorded, an event can be applied. Where it cannot,
either its line is at fault, or a script or a listing of symbols cannot be read.
-/

namespace JitTrace

/-- A provider fails with this fault. -/
def Providers.Raise (providers : Providers) (fault : Fault) : Prop :=
  (∃ url, providers.scripts url = .error fault) ∨
    ∃ library, providers.symbols library = .error fault

/-- The providers fail only for files that cannot be read. -/
def Providers.FailByFiles (providers : Providers) : Prop :=
  ∀ fault, providers.Raise fault → ∃ cause, fault = .io cause

/-- A fault that a line may have: one of its own, or that of a provider that it needs. -/
def Providers.Admit (providers : Providers) (fault : Fault) : Prop :=
  fault.isOfLine = true ∨ ∃ cause, fault = .io cause ∧ providers.Raise fault

namespace Analyzer

/-- The profile is recorded, whatever has been requested of it, and scripts and symbols come
from these providers. -/
structure Recording (providers : Providers) (analyzer : Analyzer) : Prop where
  reached : ∃ settings requests,
    analyzer.profile = Profile.run settings providers.scripts requests
  recording : analyzer.profile.finalized = false
  symbols : analyzer.symbols = providers.symbols

/-- The analyzer goes on recording, and if there is a fault, a line may have it. -/
structure Proper (providers : Providers) (outcome : Outcome) : Prop where
  recording : outcome.2.Recording providers
  admitted : ∀ fault, outcome.1 = .error fault → providers.Admit fault

variable {providers : Providers} {analyzer : Analyzer}

namespace Proper

variable {outcome : Outcome}

theorem of_ok (recording : analyzer.Recording providers) :
    Proper providers (.ok (), analyzer) :=
  ⟨recording, nofun⟩

theorem of_error (recording : analyzer.Recording providers) {fault : Fault}
    (admitted : providers.Admit fault) : Proper providers (.error fault, analyzer) :=
  ⟨recording, by rintro _ ⟨⟩; exact admitted⟩

/-- What is done after a success leaves the analyzer recording if it does so on its own. -/
theorem andThen {next : Analyzer → Outcome} : Proper providers outcome →
    (∀ {after : Analyzer}, after.Recording providers → Proper providers (next after)) →
    Proper providers (match outcome with
      | (.error fault, after) => (.error fault, after)
      | (.ok (), after) => next after) := by
  intro proper going
  obtain ⟨_ | _, after⟩ := outcome
  · exact proper
  · exact going proper.recording

end Proper

namespace Recording

theorem withEvents (recording : analyzer.Recording providers) (events : EventLog) :
    Recording providers { analyzer with events } :=
  ⟨recording.reached, recording.recording, recording.symbols⟩

theorem changeEvents (recording : analyzer.Recording providers) (change : EventLog → EventLog) :
    Proper providers (analyzer.changeEvents change) :=
  .of_ok (recording.withEvents _)

/-- A request that does not finalize the profile is answered, or refused with a fault that a
line may have. -/
theorem request (files : providers.FailByFiles) (recording : analyzer.Recording providers)
    (request : Profile.Request) (goesOn : request.goesOn = true) :
    Proper providers (analyzer.profile.answer request,
      { analyzer with profile := analyzer.profile.perform request }) where
  recording := by
    obtain ⟨settings, requests, reached⟩ := recording.reached
    refine ⟨⟨settings, requests ++ [request], ?_⟩, ?_, recording.symbols⟩
    · rw [Profile.run_append, ← reached]
      rfl
    · exact (Profile.Continues.perform _ goesOn).finalized.trans recording.recording
  admitted fault refused := by
    obtain ⟨settings, requests, reached⟩ := recording.reached
    have indexed : CodeMap.Indexed analyzer.profile.codeMap :=
      reached ▸ Profile.indexed_run settings providers.scripts requests
    have provider : analyzer.profile.scripts.provider = providers.scripts :=
      reached ▸ Profile.provider_run settings providers.scripts requests
    rcases Profile.answer_eq_error indexed recording.recording refused with ofLine | raised
    · exact .inl ofLine
    · rw [provider] at raised
      obtain ⟨cause, rfl⟩ := files fault (.inl raised)
      exact .inr ⟨cause, rfl, .inl raised⟩

variable (files : providers.FailByFiles) (recording : analyzer.Recording providers)
include files recording

theorem addSymbols (symbols : List LibrarySymbol) :
    Proper providers (analyzer.addSymbols symbols) := by
  induction symbols generalizing analyzer with
  | nil => exact .of_ok recording
  | cons symbol symbols inductionHypothesis =>
    have placed : Proper providers (analyzer.changeProfile
        (·.addStaticCode symbol.name symbol.start symbol.stop)) :=
      recording.request files (.addStaticCode ..) rfl
    rw [Analyzer.addSymbols]
    revert placed
    rcases analyzer.changeProfile (·.addStaticCode symbol.name symbol.start symbol.stop) with
      ⟨_ | _, after⟩
    · exact id
    · exact fun placed => inductionHypothesis placed.recording

theorem addLibrary (name : String) (start stop : UInt64) :
    Proper providers (analyzer.addLibrary name start stop) := by
  have added : Proper providers (analyzer.changeProfile (·.addLibrary name start stop)) :=
    recording.request files (.addLibrary ..) rfl
  refine added.andThen fun {after} going => ?_
  cases listed : after.symbols name with
  | ok symbols => exact addSymbols files going _
  | error fault =>
    have raised : providers.Raise fault := .inr ⟨name, by rw [← going.symbols, listed]⟩
    obtain ⟨cause, rfl⟩ := files fault raised
    exact .of_error going (.inr ⟨cause, rfl, raised⟩)

theorem addDeopt (event : DeoptEvent) : Proper providers (analyzer.addDeopt event) := by
  have reasoned : Proper providers
      (analyzer.changeProfile (·.addDeoptReason event.code event.reason)) :=
    recording.request files (.addDeoptReason ..) rfl
  exact reasoned.andThen fun going => going.changeEvents _

theorem disableOptimization (name reason : String) :
    Proper providers (analyzer.disableOptimization name reason) := by
  have disabled : Proper providers (analyzer.changeProfile (·.disableOptimization name reason)) :=
    recording.request files (.disableOptimization ..) rfl
  exact disabled.andThen fun going => going.changeEvents _

/-- An event is applied, or refused with a fault that a line may have. -/
theorem apply (event : TraceEvent) : Proper providers (analyzer.apply event) := by
  cases event with
  | version version =>
    simp only [Analyzer.apply]
    split
    · exact .of_ok recording
    · exact .of_ok ⟨recording.reached, recording.recording, recording.symbols⟩
  | library name start stop => exact addLibrary files recording name start stop
  | code creation => exact recording.request files (.addCode creation) rfl
  | functionCode creation address state =>
    exact recording.request files (.addFunctionCode creation address state) rfl
  | moveCode source target => exact recording.request files (.moveCode source target) rfl
  | deleteCode start => exact recording.request files (.deleteCode start) rfl
  | moveFunction source target => exact recording.request files (.moveFunction source target) rfl
  | sourcePositions start record =>
    exact recording.request files (.addSourcePositions start record) rfl
  | scriptSource id url text => exact recording.request files (.addScriptSource id url text) rfl
  | scriptDetails id url => exact recording.request files (.addScriptDetails id url) rfl
  | deopt event => exact addDeopt files recording event
  | disableOptimization name reason => exact disableOptimization files recording name reason
  | ic event | mapUpdate id update | mapTransition transition =>
    exact .of_ok (recording.withEvents _)
  | tick tick => exact recording.request files (.recordTick tick) rfl
  | timer => exact .of_ok recording

/-- A record whose fields fit is handled, or refused with a fault that a line may have. -/
theorem handle {record : TraceRecord} (known : record ∈ TraceRecord.all) {arguments : Arguments}
    (fits : arguments.Fits record.fields) :
    Proper providers
      ((handler record arguments analyzer).result, (handler record arguments analyzer).sink) := by
  simp only [handler]
  cases read : record.read analyzer.version arguments with
  | error fault =>
    have ofLine := TraceRecord.ofLine_read analyzer.version record known fits
    exact .of_error recording (.inl (ofLine fault read))
  | ok event => exact apply files recording event

end Recording

end Analyzer

end JitTrace
