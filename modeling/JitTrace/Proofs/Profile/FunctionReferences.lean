import JitTrace.Proofs.Profile.Growth
import Mathlib.Data.List.Induction

/-!
# References to functions

Generated code of a known function refers to the entry of that function. A request that
names the function of code takes whatever starts at the function's address for it, so the
references lead to functions exactly as long as no other code was live at such an address.
The same requests are the only ones that give an entry another name.
-/

namespace JitTrace

open CodeMap (Grown Indexed)

namespace CodeMap

/-- Every piece of compiled code refers to a function. -/
def RefersToFunctions (map : CodeMap) : Prop :=
  ∀ id function, (map.entry id).function? = some function →
    (map.entry function).isSharedFunction = true

variable {map before after : CodeMap}

/-- References lead to functions when the new ones do. -/
theorem RefersToFunctions.grown {admits : CodeEntry → Prop} (refers : RefersToFunctions before)
    (grown : Grown admits before after)
    (sound : ∀ new, admits new → ∀ function, new.function? = some function →
      (after.entry function).isSharedFunction = true) : RefersToFunctions after := by
  intro id function compiled
  by_cases old : id.index < before.arena.size
  · rw [(grown.kept id old).function] at compiled
    have shared := refers id function compiled
    rwa [(grown.kept function (stored_of_isSharedFunction shared)).shared]
  · by_cases stored : id.index < after.arena.size
    · obtain ⟨new, admitted, kept⟩ := grown.fresh id (Nat.le_of_not_lt old) stored
      exact sound new admitted function (kept.function.symm.trans compiled)
    · rw [entry_unstored stored] at compiled
      contradiction

end CodeMap

namespace Profile

variable {profile : Profile}

/-- A request that names the function of code finds a function at its address, or nothing. -/
def Request.FindsFunction (profile : Profile) : Request → Prop
  | .addFunctionCode _ address _ =>
    ∀ id, (address, id) ∈ profile.codeMap.dynamics.toList →
      (profile.entry id).isSharedFunction = true
  | _ => True

/-- A piece of compiled code refers to a stored entry that is no function. -/
def Misrefers (profile : Profile) : Prop :=
  ∃ id function, (profile.entry id).function? = some function ∧
    function.index < profile.codeMap.arena.size ∧
    (profile.entry function).isSharedFunction = false

/-- A wrong reference stays. -/
theorem Misrefers.perform (indexed : Indexed profile.codeMap) (misrefers : Misrefers profile)
    (request : Request) : Misrefers (profile.perform request) := by
  obtain ⟨id, function, compiled, stored, other⟩ := misrefers
  have idStored : id.index < profile.codeMap.arena.size := by
    by_contra unstored
    rw [entry, CodeMap.entry_unstored unstored] at compiled
    contradiction
  obtain ⟨-, role, -⟩ := kept_perform indexed request idStored
  obtain ⟨storedStill, functionRole, -⟩ := kept_perform indexed request stored
  exact ⟨id, function, role.function.trans compiled, storedStill,
    functionRole.shared.trans other⟩

theorem Misrefers.foldl_perform (requests : List Request) (indexed : Indexed profile.codeMap)
    (misrefers : Misrefers profile) : Misrefers (requests.foldl Profile.perform profile) := by
  induction requests generalizing profile with
  | nil => exact misrefers
  | cons request requests inductionHypothesis =>
    exact inductionHypothesis (indexed_perform indexed request) (misrefers.perform indexed request)

/-- A request that takes other code for a function leaves a wrong reference. -/
theorem misrefers_perform (indexed : Indexed profile.codeMap)
    (recording : profile.finalized = false) {request : Request}
    (misled : ¬request.FindsFunction profile) : Misrefers (profile.perform request) := by
  cases request with
  | addFunctionCode creation address state =>
    simp only [Request.FindsFunction, not_forall] at misled
    obtain ⟨function, live, other⟩ := misled
    have stored := indexed.dynamicsStored _ live
    obtain ⟨grown, id, compiled⟩ :=
      exists_addFunctionCode indexed recording creation address state
    have taken : (functionAt profile.codeMap address creation.name).1 = function := by
      rcases roles_functionAt indexed address creation.name with ⟨found, -⟩ | ⟨nothing, -⟩
      · exact congrArg Prod.snd ((AddressIndex.ascending_of_valid indexed.dynamics).eq_of_start
          found live rfl)
      · exact absurd live (nothing function)
    rw [taken] at compiled
    obtain ⟨storedStill, role, -⟩ := kept_perform indexed
      (.addFunctionCode creation address state) stored
    exact ⟨id, function, compiled, storedStill,
      role.shared.trans (Bool.eq_false_iff.mpr other)⟩
  | _ => exact absurd trivial misled

/-- What is taken for a function is one where a function or nothing was found. -/
theorem refersToFunctions_functionAt {map : CodeMap} (indexed : Indexed map)
    (refers : map.RefersToFunctions) (address : UInt64) (name : String)
    (finds : ∀ id, (address, id) ∈ map.dynamics.toList →
      (map.entry id).isSharedFunction = true) :
    let naming := functionAt map address name
    naming.2.RefersToFunctions ∧ (naming.2.entry naming.1).isSharedFunction = true := by
  intro naming
  rcases roles_functionAt indexed address name with ⟨live, roles⟩ | ⟨-, grown, new⟩
  · refine ⟨fun id function compiled => ?_, ?_⟩
    · rw [(roles id).function] at compiled
      rw [(roles function).shared]
      exact refers id function compiled
    · rw [(roles _).shared]
      exact finds _ live
  · refine ⟨refers.grown grown ?_, ?_⟩
    · rintro _ rfl function compiled
      contradiction
    · rw [show naming.2.entry naming.1 = .sharedFunction name from new]
      rfl

/-- A request that finds functions keeps references to functions. -/
theorem refersToFunctions_perform (indexed : Indexed profile.codeMap)
    (refers : profile.codeMap.RefersToFunctions) {request : Request}
    (finds : profile.finalized = false → request.FindsFunction profile) :
    (profile.perform request).codeMap.RefersToFunctions := by
  rcases grown_perform indexed request with grown | ⟨recording, creation, address, state, rfl⟩
  · refine refers.grown grown fun new ordinary function compiled => ?_
    rw [ordinary.function] at compiled
    contradiction
  · obtain ⟨grown, -⟩ := exists_addFunctionCode indexed recording creation address state
    obtain ⟨referred, shared⟩ := refersToFunctions_functionAt indexed refers address
      creation.name (finds recording)
    refine referred.grown grown fun new code function compiled => ?_
    obtain rfl : _ = function := Option.some.inj (code.symm.trans compiled)
    exact (grown.kept _ (CodeMap.stored_of_isSharedFunction shared)).shared.trans shared

/-! ## Runs -/

/-- A new profile has no compiled code. -/
theorem refersToFunctions_new (settings : ProfileSettings) (provider : ScriptProvider) :
    (new settings provider).codeMap.RefersToFunctions := by
  have nothing : CodeMap.empty.RefersToFunctions := nofun
  refine nothing.grown (grown_new settings provider) fun _ ordinary function compiled => ?_
  rw [ordinary.function] at compiled
  contradiction

/-- Requests that find functions leave references to functions alone. -/
theorem refersToFunctions_run (settings : ProfileSettings) (provider : ScriptProvider)
    (requests : List Request)
    (finds : ∀ front request, front ++ [request] <+: requests →
      (run settings provider front).finalized = false →
        request.FindsFunction (run settings provider front)) :
    (run settings provider requests).codeMap.RefersToFunctions := by
  induction requests using List.reverseRecOn with
  | nil => exact refersToFunctions_new settings provider
  | append_singleton requests request inductionHypothesis =>
    have refers := inductionHypothesis fun front other isPrefix =>
      finds front other (isPrefix.trans (List.prefix_append ..))
    rw [run_append]
    exact refersToFunctions_perform (indexed_run settings provider requests) refers
      (finds requests request (List.prefix_refl _))

/-- In a run, compiled code refers to functions exactly if every request that names a
function has found one at its address, or nothing. An entry gets another name only when it
gets its distinguishing number, or when a request finds it where it names a function. -/
theorem functionReferences_run (settings : ProfileSettings) (provider : ScriptProvider)
    (requests : List Request) :
    let profile := run settings provider requests
    (profile.codeMap.RefersToFunctions ↔
      ∀ front request, front ++ [request] <+: requests →
        (run settings provider front).finalized = false →
          request.FindsFunction (run settings provider front)) ∧
    ∀ request id, id.index < profile.codeMap.arena.size →
      (profile.entry id).Numbered ((profile.perform request).entry id) ∨
        ∃ creation address state, request = .addFunctionCode creation address state ∧
          (address, id) ∈ profile.codeMap.dynamics.toList ∧
          CodeEntry.Numbered { profile.entry id with name := creation.name }
            ((profile.perform request).entry id) := by
  intro profile
  have indexed := indexed_run settings provider
  refine ⟨⟨?_, ?_⟩, fun request id stored => (kept_perform (indexed requests) request stored).2.2⟩
  · rintro refers front request ⟨rest, rfl⟩ recording
    by_contra misled
    have misrefers := misrefers_perform (indexed front) recording misled
    obtain ⟨id, function, compiled, -, other⟩ :=
      misrefers.foldl_perform rest (indexed_perform (indexed front) request)
    have whole : profile = rest.foldl perform ((run settings provider front).perform request) := by
      simp [profile, run_append]
    rw [← whole] at compiled other
    rw [entry, refers id function compiled] at other
    contradiction
  · exact refersToFunctions_run settings provider requests

/-- Code of a known function whose address is the start of code of no known function. -/
def misled : List Request :=
  [ .addCode
      { codeType := "Builtin", name := "Foo", timestamp := 1, start := 0x1000, size := 0x100
        kind := none },
    .addFunctionCode
      { codeType := "JS", name := "g a.js:1:1", timestamp := 1, start := 0x2000, size := 0x40
        kind := none }
      0x1000 .turbofan ]

/-- The code is taken for the function: the new code refers to it, and it gets the name of
the function. -/
theorem misled_run :
    let before := run {} ScriptProvider.none (misled.take 1)
    let after := run {} ScriptProvider.none misled
    ((before.entry ⟨5⟩).flavor, (before.entry ⟨5⟩).name) = (.dynamic, "Foo") ∧
      ((after.entry ⟨5⟩).flavor, (after.entry ⟨5⟩).name) = (.dynamic, "g a.js:1:1") ∧
      (after.entry ⟨5⟩).numbered = false ∧ ¬after.codeMap.RefersToFunctions := by
  intro before after
  refine ⟨by decide +kernel, by decide +kernel, by decide +kernel, fun refers => ?_⟩
  have compiled : (after.codeMap.entry ⟨6⟩).function? = some ⟨5⟩ := by decide +kernel
  have other : (after.codeMap.entry ⟨5⟩).isSharedFunction = false := by decide +kernel
  rw [refers _ _ compiled] at other
  contradiction

end Profile

end JitTrace
