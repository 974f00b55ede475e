import JitTrace.Proofs.Profile.Growth
import JitTrace.Proofs.Record.Faults

/-!
# Answers of profiles

As long as a profile is recorded it refuses nothing but a source mapping: one that cannot
be read, or one whose script cannot be provided. In particular it never lacks the code that
it is about to move.
-/

namespace JitTrace

namespace Profile

variable {profile : Profile}

/-- How a request is answered. -/
def answer (profile : Profile) : Request → Except Fault Unit
  | .addLibrary name start stop => (profile.addLibrary name start stop).1.map fun _ => ()
  | .addStaticCode name start stop => (profile.addStaticCode name start stop).1.map fun _ => ()
  | .addCode creation => (profile.addCode creation).1.map fun _ => ()
  | .addFunctionCode creation address state =>
    (profile.addFunctionCode creation address state).1.map fun _ => ()
  | .moveCode source target => (profile.moveCode source target).1.map fun _ => ()
  | .deleteCode start => (profile.deleteCode start).1.map fun _ => ()
  | .moveFunction source target => (profile.moveFunction source target).1.map fun _ => ()
  | .addSourcePositions start record =>
    (profile.addSourcePositions start record).1.map fun _ => ()
  | .addDeoptReason address reason => (profile.addDeoptReason address reason).1.map fun _ => ()
  | .disableOptimization name reason =>
    (profile.disableOptimization name reason).1.map fun _ => ()
  | .addScriptSource id url text => (profile.addScriptSource id url text).1.map fun _ => ()
  | .addScriptDetails id url => (profile.addScriptDetails id url).1.map fun _ => ()
  | .recordTick tick => (profile.recordTick tick).1.map fun _ => ()
  | .finalize => .ok ()

/-- The request attaches a source mapping. -/
def Request.isMapping : Request → Bool
  | .addSourcePositions .. => true
  | _ => false

/-- While a profile is recorded, it answers every request but those that attach a source
mapping. -/
theorem answer_eq_ok (indexed : CodeMap.Indexed profile.codeMap)
    (recording : profile.finalized = false) {request : Request}
    (ordinary : request.isMapping = false) : profile.answer request = .ok () := by
  have granted {Result : Type} {operation : ProfileOperation} {change : Profile → Outcome Result}
      (answers : ∃ result, (change profile).1 = .ok result) :
      (profile.whileRecording operation change).1.map (fun _ => ()) = .ok () := by
    obtain ⟨result, answers⟩ := answers
    rw [whileRecording, recording, if_neg Bool.false_ne_true, answers]
    rfl
  cases request with
  | addSourcePositions => contradiction
  | addFunctionCode creation address state =>
    apply granted
    dsimp only
    split
    · exact ⟨_, rfl⟩
    · split <;> exact ⟨_, rfl⟩
  | moveCode source target =>
    apply granted
    rw [CodeMap.moveCode]
    rcases profile.codeMap.dynamics.remove source with ⟨_ | _, dynamics⟩ <;> exact ⟨(), rfl⟩
  | deleteCode start =>
    apply granted
    split <;> exact ⟨_, rfl⟩
  | moveFunction source target =>
    apply granted
    obtain ⟨dynamics, finds, searched, same⟩ := indexed.exists_dynamicAt source
    cases found : (SplayTree.found? source profile.codeMap.dynamics.toList).map (·.2) with
    | none => exact ⟨(), by simp only [finds, found]⟩
    | some function =>
      have live : (source, function) ∈ dynamics.toList := same ▸ indexed.found?_eq_some.mp found
      exact ⟨(), by simp only [finds, found, searched.moveCode_answer live target]⟩
  | addDeoptReason address reason =>
    apply granted
    split <;> exact ⟨_, rfl⟩
  | finalize => rfl
  | _ => exact granted ⟨_, rfl⟩

/-- While a profile is recorded, it refuses a source mapping because of the line that it is
given on, or because its script cannot be provided. -/
theorem answer_eq_error (indexed : CodeMap.Indexed profile.codeMap)
    (recording : profile.finalized = false) {request : Request} {fault : Fault}
    (refused : profile.answer request = .error fault) :
    fault.isOfLine = true ∨ ∃ url, profile.scripts.provider url = .error fault := by
  cases request with
  | addSourcePositions start record =>
    simp only [answer, addSourcePositions, whileRecording, recording, Bool.false_eq_true,
      if_false] at refused
    split at refused
    · contradiction
    · cases parsed : PositionText.sourceInfo record.scriptId record.start record.stop
          record.positions record.inlining record.functions with
      | error cause =>
        simp only [parsed, Except.map, Except.error.injEq] at refused
        exact .inl (refused ▸ PositionText.ofLine_sourceInfo _ _ _ _ _ _ cause parsed)
      | ok info =>
        simp only [parsed] at refused
        cases ensured : (profile.scripts.ensureSource record.scriptId).1 with
        | ok => simp [ensured, Except.map] at refused
        | error cause =>
          simp only [ensured, Except.map, Except.error.injEq] at refused
          obtain ⟨-, provided⟩ := profile.scripts.provider_ensureSource record.scriptId
          exact .inr (provided fault (refused ▸ ensured))
  | _ =>
    rw [answer_eq_ok indexed recording rfl] at refused
    contradiction

end Profile

end JitTrace
