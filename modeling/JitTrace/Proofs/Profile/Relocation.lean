import JitTrace.Proofs.Code.Relocation
import JitTrace.Proofs.Profile.Growth
import Mathlib.Data.List.Induction

/-!
# Ticks after a function has moved

Generated code refers to its function by the function's entry, and an inlining table by the
function's address. A function that moves takes its entry along, and the addresses in the
tables stay what they were. So ticks are attributed as before, unless they are in code
that has inlined what a table lists under one of the two addresses.
-/

namespace JitTrace

open CodeMap (Clear Grown Indexed Relocated)

namespace CodeMap

/-- No function occupies a range. -/
def FunctionsEmpty (map : CodeMap) : Prop :=
  ∀ id, (map.entry id).isSharedFunction = true → (map.entry id).size = 0

theorem FunctionsEmpty.grown {before after : CodeMap} {admits : CodeEntry → Prop}
    (empty : FunctionsEmpty before) (grown : Grown admits before after)
    (sound : ∀ new, admits new → new.isSharedFunction = true → new.size = 0) :
    FunctionsEmpty after := by
  intro id shared
  by_cases old : id.index < before.arena.size
  · have kept := grown.kept id old
    rw [kept.size]
    exact empty id (kept.shared.symm.trans shared)
  · obtain ⟨new, admitted, kept⟩ :=
      grown.fresh id (Nat.le_of_not_lt old) (stored_of_isSharedFunction shared)
    rw [kept.size]
    exact sound new admitted (kept.shared.symm.trans shared)

/-- No inlining table lists a function under this address. -/
def Unlisted (map : CodeMap) (address : UInt64) : Prop :=
  ∀ entry ∈ map.arena, ∀ source ∈ entry.source, address ∉ source.inlinedFunctions

/-- An exchange of addresses that are not listed is none. -/
theorem readdressed_eq_self {map : CodeMap} {exchange : UInt64 → UInt64}
    (fixed : ∀ address, ¬map.Unlisted address → exchange address = address) :
    map.readdressed exchange = map := by
  have entries : ∀ entry ∈ map.arena, entry.readdressed exchange = entry := by
    intro entry inside
    rw [CodeEntry.readdressed]
    cases source : entry.source with
    | none => rw [Option.map_none, ← source]
    | some info =>
      have listed : info.inlinedFunctions.map exchange = info.inlinedFunctions := by
        refine (Array.map_congr_left fun address member => ?_).trans
          (Array.map_id' _)
        exact fixed address fun unlisted => unlisted entry inside info source member
      rw [Option.map_some, SourceInfo.readdressed, listed, ← source]
  rw [readdressed, Array.map_congr_left entries, Array.map_id']

end CodeMap

namespace Profile

variable {profile : Profile} {source target : UInt64}

/-! ## Functions have no range -/

theorem functionsEmpty_perform (indexed : Indexed profile.codeMap)
    (empty : profile.codeMap.FunctionsEmpty) (request : Request) :
    (profile.perform request).codeMap.FunctionsEmpty := by
  rcases grown_perform indexed request with grown | ⟨recording, creation, address, state, rfl⟩
  · refine empty.grown grown fun new ordinary shared => ?_
    rw [ordinary.shared] at shared
    contradiction
  · obtain ⟨grown, -⟩ := exists_addFunctionCode indexed recording creation address state
    have named : (functionAt profile.codeMap address creation.name).2.FunctionsEmpty := by
      rcases roles_functionAt indexed address creation.name with ⟨-, roles⟩ | ⟨-, added, -⟩
      · intro id shared
        rw [(roles id).size]
        exact empty id ((roles id).shared.symm.trans shared)
      · exact empty.grown added fun new isFunction _ => by rw [isFunction]; rfl
    refine named.grown grown fun new compiled shared => ?_
    rw [CodeEntry.isSharedFunction_of_function? compiled] at shared
    contradiction

/-- Whatever has been requested, functions have no range. -/
theorem functionsEmpty_run (settings : ProfileSettings) (provider : ScriptProvider)
    (requests : List Request) : (run settings provider requests).codeMap.FunctionsEmpty := by
  induction requests using List.reverseRecOn with
  | nil =>
    have nothing : CodeMap.empty.FunctionsEmpty := nofun
    refine nothing.grown (grown_new settings provider) fun new ordinary shared => ?_
    rw [ordinary.shared] at shared
    contradiction
  | append_singleton requests request inductionHypothesis =>
    rw [run_append]
    exact functionsEmpty_perform (indexed_run settings provider requests) inductionHypothesis
      request

/-! ## Moving a function -/

/-- There is a function at `source` and nothing at `target`, and neither address lies
inside the range of other code. -/
structure Movable (profile : Profile) (source target : UInt64) : Prop where
  recording : profile.finalized = false
  live : ∃ function, (source, function) ∈ profile.codeMap.dynamics.toList ∧
    (profile.entry function).isSharedFunction = true
  free : ∀ id, (target, id) ∉ profile.codeMap.dynamics.toList
  clearSource : Clear profile.codeMap.arena profile.codeMap.dynamics.toList source
  clearTarget : Clear profile.codeMap.arena profile.codeMap.dynamics.toList target

/-- The profile as it would be if the inlining tables listed functions under other
addresses. -/
def readdressed (exchange : UInt64 → UInt64) (profile : Profile) : Profile :=
  { profile with codeMap := profile.codeMap.readdressed exchange }

/-- Moving a function has no effect but that on the addresses in the inlining tables. -/
theorem Movable.exists_moveFunction (movable : profile.Movable source target)
    (indexed : Indexed profile.codeMap) (empty : profile.codeMap.FunctionsEmpty) :
    ∃ moved, profile.moveFunction source target = (.ok (), moved) ∧
      EqualOver (Relocated source target) moved
        (profile.readdressed (Equiv.swap source target)) := by
  obtain ⟨function, live, shared⟩ := movable.live
  obtain ⟨dynamics, finds, searched, same⟩ := indexed.exists_dynamicAt source
  rw [indexed.found?_eq_some.mpr live] at finds
  -- The search for the function has rearranged the index; the entries are the same.
  have free : ∀ id, (target, id) ∉ dynamics.toList := by
    rw [same]
    exact movable.free
  have clearSource := movable.clearSource
  have clearTarget := movable.clearTarget
  rw [← same] at live clearSource clearTarget
  obtain ⟨moved, moves, relocated⟩ := searched.exists_relocated live (empty function shared)
    free clearSource clearTarget
  refine ⟨{ profile with codeMap := moved }, ?_, ?_, rfl⟩
  · simp only [moveFunction, whileRecording, movable.recording, finds, moves]
    rfl
  · have itself := (indexed.readdressed (Equiv.swap source target)).alike_self
    have settled := itself.withDynamics ⟨searched.dynamics, indexed.dynamics, same.symm⟩
    exact relocated.rearranged relocated.left_indexed.alike_self settled

/-- After a function has moved, a tick is attributed as if it had stayed and the inlining
tables had its two addresses exchanged. Where no table lists either address, the move makes
no difference. -/
theorem recordTick_moveFunction (settings : ProfileSettings) (provider : ScriptProvider)
    (requests : List Request)
    (movable : (run settings provider requests).Movable source target) (tick : Tick) :
    let profile := run settings provider requests
    ∃ moved, profile.moveFunction source target = (.ok (), moved) ∧
      Agree (EqualOver (Relocated source target)) (moved.recordTick tick)
        ((profile.readdressed (Equiv.swap source target)).recordTick tick) ∧
      (profile.codeMap.Unlisted source → profile.codeMap.Unlisted target →
        Agree (EqualOver (Relocated source target)) (moved.recordTick tick)
          (profile.recordTick tick)) := by
  intro profile
  obtain ⟨moved, moves, equal⟩ := movable.exists_moveFunction
    (indexed_run settings provider requests) (functionsEmpty_run settings provider requests)
  have attributed := equal.recordTick CodeMap.indistinct_relocated tick
  refine ⟨moved, moves, attributed, fun unlistedSource unlistedTarget => ?_⟩
  have unchanged : profile.readdressed (Equiv.swap source target) = profile := by
    rw [readdressed, CodeMap.readdressed_eq_self fun address listed => ?_]
    refine Equiv.swap_apply_of_ne_of_ne ?_ ?_ <;> rintro rfl
    · exact listed unlistedSource
    · exact listed unlistedTarget
  rwa [unchanged] at attributed

/-- Code of one function into which another one has been inlined. -/
def inlined : List Request :=
  [ .addFunctionCode
      { codeType := "JS", name := "outer a.js:1:1", timestamp := 1, start := 0x1000, size := 0x40
        kind := none }
      0x500 .turbofan,
    .addFunctionCode
      { codeType := "JS", name := "inner a.js:5:1", timestamp := 1, start := 0x3000, size := 0x40
        kind := none }
      0x600 .turbofan,
    .addSourcePositions 0x1000
      { scriptId := 1, start := 0, stop := 100, positions := "C0O50I0", inlining := "F0O7"
        functions := "S0x600" } ]

/-- A tick in the code, without a stack. -/
def inlinedTick : Tick where
  programCounter := 0x1010
  timestamp := 2
  inCallback := false
  callbackOrTop := 0
  vmState := .js
  stack := []

/-- Both functions lie outside all code, and at `0x700` there is nothing. -/
theorem movable_inlined (id : CodeId)
    (live : (source, id) ∈ (run {} ScriptProvider.none inlined).codeMap.dynamics.toList)
    (isFunction : id = ⟨5⟩ ∨ id = ⟨7⟩)
    (clear : Clear (run {} ScriptProvider.none inlined).codeMap.arena
      (run {} ScriptProvider.none inlined).codeMap.dynamics.toList source) :
    (run {} ScriptProvider.none inlined).Movable source 0x700 where
  recording := by decide +kernel
  live := by
    refine ⟨id, live, ?_⟩
    rcases isFunction with rfl | rfl <;> decide +kernel
  free id inside := by
    have elsewhere : (0x700 : UInt64) ∉
        (run {} ScriptProvider.none inlined).codeMap.dynamics.toList.map (·.1) := by
      decide +kernel
    exact elsewhere (List.mem_map.mpr ⟨_, inside, rfl⟩)
  clearSource := clear
  clearTarget := by
    unfold Clear
    decide +kernel

/-- The function of the code itself moves, which no table lists. -/
theorem recordTick_moveFunction_inlined :
    (run {} ScriptProvider.none inlined).Movable 0x500 0x700 ∧
      (run {} ScriptProvider.none inlined).codeMap.Unlisted 0x500 ∧
      (run {} ScriptProvider.none inlined).codeMap.Unlisted 0x700 ∧
      ∃ moved, (run {} ScriptProvider.none inlined).moveFunction 0x500 0x700 = (.ok (), moved) ∧
        Agree (EqualOver (Relocated 0x500 0x700)) (moved.recordTick inlinedTick)
          ((run {} ScriptProvider.none inlined).recordTick inlinedTick) := by
  have movable : (run {} ScriptProvider.none inlined).Movable 0x500 0x700 :=
    movable_inlined ⟨5⟩ (by decide +kernel) (.inl rfl) (by unfold Clear; decide +kernel)
  have source : (run {} ScriptProvider.none inlined).codeMap.Unlisted 0x500 := by
    unfold CodeMap.Unlisted
    decide +kernel
  have target : (run {} ScriptProvider.none inlined).codeMap.Unlisted 0x700 := by
    unfold CodeMap.Unlisted
    decide +kernel
  obtain ⟨moved, moves, -, same⟩ :=
    recordTick_moveFunction {} ScriptProvider.none inlined movable inlinedTick
  exact ⟨movable, source, target, moved, moves, same source target⟩

/-- The calls that a tick is attributed to, outermost first. -/
def callsOf (profile : Profile) (tick : Tick) : Option (List String) :=
  (profile.recordTick tick).1.toOption.map (profile.recordTick tick).2.tree.pathLabels

/-- After the inlined function has moved, the calls of it are lost. -/
theorem callsOf_inlined :
    let profile := run {} ScriptProvider.none inlined
    profile.Movable 0x600 0x700 ∧
      profile.callsOf inlinedTick = some ["JS: *outer a.js:1:1", "inner a.js:5:1"] ∧
      (profile.moveFunction 0x600 0x700).2.callsOf inlinedTick = some ["JS: *outer a.js:1:1"] := by
  refine ⟨?_, by decide +kernel, by decide +kernel⟩
  exact movable_inlined ⟨7⟩ (by decide +kernel) (.inr rfl) (by unfold Clear; decide +kernel)

end Profile

end JitTrace
