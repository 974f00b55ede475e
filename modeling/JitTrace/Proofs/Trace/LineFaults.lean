import JitTrace.Files.View
import JitTrace.Proofs.Trace.Recording

/-!
# Faults while a log is read

While the profile is recorded, a line fails for its own sake, or because a script or a
listing of symbols that it needs cannot be read. No handler asks for a value that the fields
of its record do not have, and the profile refuses nothing that a handler asks of it.
-/

namespace JitTrace

variable {providers : Providers}

/-- The fault of a line does not end the read. -/
theorem Providers.Admit.isCancellation {fault : Fault} (admitted : providers.Admit fault) :
    fault.isCancellation = false := by
  rcases admitted with ofLine | ⟨cause, rfl, -⟩
  · exact Fault.isCancellation_of_isOfLine ofLine
  · rfl

namespace RecordTable

variable {table : RecordTable Analyzer}

end RecordTable

/-- The read has gone on, and every failure that has been added is one that a line may
have. -/
structure Reading.Proceeds (providers : Providers) (before after : Reading Analyzer) : Prop where
  recording : after.sink.Recording providers
  cancelled : after.cancelled = before.cancelled
  failures : ∃ faults : List Fault, (∀ fault ∈ faults, providers.Admit fault) ∧
    after.failures.toList.map (·.message) =
      before.failures.toList.map (·.message) ++ faults.map (·.message)

namespace Reading.Proceeds

variable {before middle after : Reading Analyzer}

theorem of_same (recording : after.sink.Recording providers)
    (cancelled : after.cancelled = before.cancelled) (failures : after.failures = before.failures) :
    Proceeds providers before after :=
  ⟨recording, cancelled, [], nofun, by simp [failures]⟩

theorem trans (left : Proceeds providers before middle) (right : Proceeds providers middle after) :
    Proceeds providers before after := by
  obtain ⟨first, admitsFirst, addsFirst⟩ := left.failures
  obtain ⟨second, admitsSecond, addsSecond⟩ := right.failures
  refine ⟨right.recording, right.cancelled.trans left.cancelled, first ++ second, ?_, ?_⟩
  · exact List.forall_mem_append.mpr ⟨admitsFirst, admitsSecond⟩
  · rw [addsSecond, addsFirst, List.map_append, List.append_assoc]

end Reading.Proceeds

namespace LogReader

variable {reader : LogReader Analyzer} {reading : Reading Analyzer}
  (understood : ∀ spec ∈ reader.table.records, spec.Understood) (files : providers.FailByFiles)
  (recording : reading.sink.Recording providers)
include understood files recording

end LogReader

/-! ## The table of records -/

/-- The providers that read files fail only for files that cannot be read. -/
theorem Providers.failByFiles_ofFiles (files : FileView) (directory : String)
    (settings : Settings) :
    FailByFiles
      { scripts := ScriptProvider.ofFiles files directory
        symbols := settings.symbolProvider files } := by
  have reading (path : String) (fault : Fault)
      (failed : files.readTextIfPresent path = .error fault) : ∃ cause, fault = .io cause := by
    rw [FileView.readTextIfPresent] at failed
    split at failed <;> first | contradiction | exact ⟨_, (Except.error.inj failed).symm⟩
  rintro fault (⟨url, failed⟩ | ⟨library, failed⟩)
  · simp only [ScriptProvider.ofFiles] at failed
    cases located : scriptPath? directory url with
    | none => simp [located] at failed
    | some path => exact reading path fault (by simpa [located] using failed)
  · simp only [Settings.symbolProvider] at failed
    cases listings : settings.symbolsDirectory with
    | none => simp [listings, SymbolProvider.none] at failed
    | some directory =>
      simp only [listings, SymbolProvider.ofFiles] at failed
      cases located : listingPath? directory library with
      | none => simp [located] at failed
      | some path =>
        cases read : files.readTextIfPresent path with
        | ok text => simp [located, read, Except.map] at failed
        | error cause =>
          obtain rfl : cause = fault := by simpa [located, read, Except.map] using failed
          exact reading path cause read

namespace Analyzer

end Analyzer

end JitTrace
