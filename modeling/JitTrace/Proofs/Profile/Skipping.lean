import JitTrace.Proofs.Profile.Attribution

/-!
# Skipped frames

What a profile skips decides where its ticks are attributed to, and nothing else. The
same requests to two profiles that differ in their filters leave the same code, the same
counts and the same reports behind. A tick has the stack that it has where nothing is
skipped, without the skipped frames.
-/

namespace JitTrace

/-! ## Labels -/

namespace Skip

/-- A filter without categories skips nothing. -/
@[simp] theorem skips_empty (label : String) : skips {} label = false := by
  simp [skips]

/-- The unknown caller is of no category. -/
theorem skips_unresolvedFrame (filter : SkipFilter) :
    skips filter Profile.unresolvedFrame.label = false := by
  have ofNone : isInlineCache Profile.unresolvedFrame.label.toList = false ∧
      isBytecode Profile.unresolvedFrame.label.toList = false ∧
      isBuiltin Profile.unresolvedFrame.label.toList = false ∧
      isStub Profile.unresolvedFrame.label.toList = false ∧
      isNativeLibrary Profile.unresolvedFrame.label.toList = false := by decide +kernel
  simp [skips, ofNone]

end Skip

namespace Profile

/-- The frames that a filter leaves. -/
def unskipped (filter : SkipFilter) (frames : List LogicalFrame) : List LogicalFrame :=
  frames.filter fun frame => !Skip.skips filter frame.label

/-- An address adds the frames that it adds where nothing is skipped, without the skipped
ones. -/
theorem logicalFrames_eq (filter : SkipFilter) (kind : StackKind) (isInnermost : Bool)
    (resolved : ResolvedAddress) :
    logicalFrames filter kind isInnermost resolved =
      unskipped filter (logicalFrames {} kind isInnermost resolved) := by
  have all : resolved.frames.filter (fun frame => !Skip.skips {} frame.label) =
      resolved.frames := by simp
  simp only [logicalFrames, unskipped, all]
  split
  · simp [Skip.skips_unresolvedFrame]
  · rfl

/-! ## Profiles under another filter -/

/-- The profile under another filter, with what ticks have left there. -/
def under (profile : Profile) (filter : SkipFilter) (growing : GrowingTree)
    (samples : Array Sample) : Profile :=
  { profile with skip := filter, growing, samples }

variable {profile : Profile} {filter : SkipFilter} {growing : GrowingTree}
  {samples : Array Sample}

theorem whileRecording_under {Result : Type} (operation : ProfileOperation)
    {change : Profile → Outcome Result}
    (commutes : (change (profile.under filter growing samples)).2 =
      (change profile).2.under filter growing samples) :
    ((profile.under filter growing samples).whileRecording operation change).2 =
      (profile.whileRecording operation change).2.under filter growing samples := by
  rw [whileRecording, whileRecording]
  change (if profile.finalized then _ else _ : Outcome Result).2 = _
  split
  · rfl
  · exact commutes

/-- Events that concern code or scripts do not depend on the filter. -/
theorem perform_under (request : Request) (isEvent : ∀ tick, request ≠ .recordTick tick)
    (goesOn : request.goesOn = true) :
    (profile.under filter growing samples).perform request =
      (profile.perform request).under filter growing samples := by
  cases request with
  | recordTick tick => exact absurd rfl (isEvent tick)
  | finalize => contradiction
  | addFunctionCode creation address state =>
    refine whileRecording_under _ ?_
    dsimp only [under]
    split
    · rfl
    · split <;> rfl
  | moveCode source target =>
    refine whileRecording_under _ ?_
    dsimp only [under]
    split <;> rfl
  | deleteCode start =>
    refine whileRecording_under _ ?_
    dsimp only [under]
    split <;> rfl
  | moveFunction source target =>
    refine whileRecording_under _ ?_
    dsimp only [under]
    split <;> rfl
  | addSourcePositions start record =>
    refine whileRecording_under _ ?_
    dsimp only [under]
    split
    · rfl
    · split <;> rfl
  | addDeoptReason address reason =>
    refine whileRecording_under _ ?_
    dsimp only [under]
    split <;> rfl
  | _ => exact whileRecording_under _ rfl

theorem reportMissing_under (position : Nat) (address : UInt64) :
    (profile.under filter growing samples).reportMissing position address =
      (profile.reportMissing position address).under filter growing samples := by
  rw [reportMissing, reportMissing]
  split <;> rfl

theorem countNativeEntry_under (entered : Option String) :
    (profile.under filter growing samples).countNativeEntry entered =
      (profile.countNativeEntry entered).under filter growing samples := by
  cases entered <;> rfl

theorem resolveOne_under (position : Nat) (search : NativeEntrySearch) (address : UInt64) :
    (profile.under filter growing samples).resolveOne position search address =
      (profile.resolveOne position search address).under filter growing samples := by
  let resolved := resolveAddress profile.codeMap address (!position == 0)
  let located : Profile :=
    { profile with codeMap := resolved.2, endless := profile.endless || resolved.1.endless }
  have reported : (if resolved.1.located.isNone then
        (located.under filter growing samples).reportMissing position address
      else located.under filter growing samples) =
      (if resolved.1.located.isNone then located.reportMissing position address
        else located).under filter growing samples := by
    split
    · exact reportMissing_under position address
    · rfl
  rw [resolveOne, resolveOne, ← countNativeEntry_under]
  exact congrArg (countNativeEntry · _) reported

/-- Resolving a stack differs in the frames alone. -/
theorem resolveStack_under (nothing : profile.skip = {}) (kind : StackKind) (position : Nat)
    (search : NativeEntrySearch) (stack : List UInt64) :
    (profile.under filter growing samples).resolveStack kind position search stack =
      (unskipped filter (profile.resolveStack kind position search stack).1,
        (profile.resolveStack kind position search stack).2.under filter growing samples) := by
  induction stack generalizing profile position search with
  | nil => rfl
  | cons address stack inductionHypothesis =>
    have still := (skip_resolveOne profile position search address).trans nothing
    let resolved := (resolveAddress profile.codeMap address (!position == 0)).1
    have frames := logicalFrames_eq filter kind (position == 0) resolved
    have rest := inductionHypothesis still (position + 1) (search.step (position == 0) resolved).2
    rw [resolveStack_cons, resolveStack_cons, resolveOne_under]
    dsimp only
    rw [still, unskipped, List.filter_append]
    exact congrArg₂ (fun own outer => (own ++ outer.1, outer.2)) frames rest

/-- So does resolving a tick. -/
theorem resolveTick_under (nothing : profile.skip = {}) (tick : Tick) :
    (profile.under filter growing samples).resolveTick tick =
      (unskipped filter (profile.resolveTick tick).1,
        (profile.resolveTick tick).2.under filter growing samples) :=
  have counted : ((profile.observeTime tick.timestamp).countTick tick.vmState).skip = {} := nothing
  resolveStack_under counted _ 0 {} _

/-! ## Runs -/

theorem exists_recordTick_under (nothing : profile.skip = {}) (tick : Tick) :
    ∃ grown sampled, ((profile.under filter growing samples).recordTick tick).2 =
      (profile.recordTick tick).2.under filter grown sampled := by
  cases recording : profile.finalized with
  | true =>
    refine ⟨growing, samples, ?_⟩
    simp [recordTick, whileRecording, under, recording]
  | false =>
    have recordingUnder : (profile.under filter growing samples).finalized = false := recording
    rw [recordTick_eq recordingUnder, recordTick_eq recording, resolveTick_under nothing]
    exact ⟨_, _, rfl⟩

/-- No request changes the filter. -/
theorem skip_perform (profile : Profile) (request : Request) :
    (profile.perform request).skip = profile.skip := by
  rcases profile.event_perform request with event | ⟨tick, rfl⟩ | rfl
  · rw [event.rest]
  · rw [perform, recordTick, whileRecording]
    split
    · rfl
    · exact skip_resolveStack ..
  · rw [perform, finalize]
    split <;> rfl

/-- A request does the same under another filter, but for what ticks leave in the tree. -/
theorem exists_perform_under (nothing : profile.skip = {}) {request : Request}
    (goesOn : request.goesOn = true) :
    ∃ grown sampled, (profile.under filter growing samples).perform request =
      (profile.perform request).under filter grown sampled := by
  by_cases isTick : ∃ tick, request = .recordTick tick
  · obtain ⟨tick, rfl⟩ := isTick
    exact exists_recordTick_under nothing tick
  · exact ⟨_, _, perform_under request (fun tick same => isTick ⟨tick, same⟩) goesOn⟩

theorem skip_foldl_perform (profile : Profile) (requests : List Request) :
    (requests.foldl perform profile).skip = profile.skip := by
  induction requests generalizing profile with
  | nil => rfl
  | cons request requests inductionHypothesis =>
    exact (inductionHypothesis _).trans (skip_perform profile request)

theorem exists_foldl_perform_under (nothing : profile.skip = {}) (requests : List Request)
    (goOn : ∀ request ∈ requests, request.goesOn = true) :
    ∃ grown sampled, requests.foldl perform (profile.under filter growing samples) =
      (requests.foldl perform profile).under filter grown sampled := by
  induction requests generalizing profile growing samples with
  | nil => exact ⟨growing, samples, rfl⟩
  | cons request requests inductionHypothesis =>
    obtain ⟨grown, sampled, same⟩ :=
      exists_perform_under nothing (goOn request List.mem_cons_self)
    rw [List.foldl_cons, List.foldl_cons, same]
    exact inductionHypothesis ((skip_perform profile request).trans nothing)
      fun other inside => goOn other (List.mem_cons_of_mem request inside)

/-- Two profiles have the same code, the same counts and the same reports, and the stack of a
tick in the first one is its stack in the second one without the skipped frames. -/
structure Thinned (filter : SkipFilter) (thinned whole : Profile) : Prop where
  codeMap : thinned.codeMap = whole.codeMap
  counters : thinned.counters = whole.counters
  unknownCode : thinned.unknownCode = whole.unknownCode
  nativeEntries : thinned.nativeEntries = whole.nativeEntries
  logicalStack : ∀ tick, thinned.logicalStack tick =
    (whole.logicalStack tick).filter fun frame => !Skip.skips filter frame.label

/-- Let a profile that is recorded go on under a filter and under none. Then the same requests
do the same to the code and to all counts and reports, a tick has the same stack but for
the skipped frames, and either profile gives the sample to the node of its calls. -/
theorem thinned_run (settings : ProfileSettings) (provider : ScriptProvider)
    (before requests : List Request) (filter : SkipFilter)
    (recording : (run settings provider before).finalized = false)
    (goOn : ∀ request ∈ requests, request.goesOn = true) :
    let whole := requests.foldl perform { run settings provider before with skip := {} }
    let thinned := requests.foldl perform { run settings provider before with skip := filter }
    Thinned filter thinned whole ∧ Attributes thinned ∧ Attributes whole := by
  intro whole thinned
  have attributes (skip : SkipFilter) :
      Attributes (requests.foldl perform { run settings provider before with skip }) :=
    attributes_foldl_perform { run settings provider before with skip }
      (arises_run settings provider before) (.run settings provider before) recording requests goOn
  refine ⟨?_, attributes filter, attributes {}⟩
  let base : Profile := { run settings provider before with skip := {} }
  have nothing : whole.skip = {} := skip_foldl_perform base requests
  obtain ⟨grown, sampled, same⟩ : ∃ grown sampled, thinned = whole.under filter grown sampled :=
    exists_foldl_perform_under (show base.skip = {} from rfl) requests goOn
  rw [same]
  exact ⟨rfl, rfl, rfl, rfl, fun tick => congrArg Prod.fst (resolveTick_under nothing tick)⟩

/-- A library and a function that calls it. -/
def libraryAndCaller : List Request :=
  [ .addLibrary "/usr/lib/libc.so.6" 0x7000 0x8000,
    .addFunctionCode
      { codeType := "JS", name := "caller a.js:1:1", timestamp := 1, start := 0x2000, size := 0x40
        kind := none }
      0x500 .turbofan ]

/-- A tick in the library. -/
def libraryTick : Tick where
  programCounter := 0x7010
  timestamp := 2
  inCallback := false
  callbackOrTop := 0
  vmState := .js
  stack := [0x2010]

/-- Where libraries are skipped, the library is attributed to its caller. -/
theorem thinned_run_library :
    let whole := libraryAndCaller.foldl perform
      { run {} ScriptProvider.none [] with skip := {} }
    let thinned := libraryAndCaller.foldl perform
      { run {} ScriptProvider.none [] with skip := { nativeLibraries := true } }
    (run {} ScriptProvider.none []).finalized = false ∧
      (∀ request ∈ libraryAndCaller, request.goesOn = true) ∧
      (whole.logicalStack libraryTick).map (·.label) =
        ["/usr/lib/libc.so.6", "JS: *caller a.js:1:1"] ∧
      (thinned.logicalStack libraryTick).map (·.label) = ["JS: *caller a.js:1:1"] := by
  intro whole thinned
  have recording : (run {} ScriptProvider.none []).finalized = false := rfl
  have goOn : ∀ request ∈ libraryAndCaller, request.goesOn = true := by
    simp [libraryAndCaller, Request.goesOn]
  have same := (thinned_run {} ScriptProvider.none [] libraryAndCaller { nativeLibraries := true }
    recording goOn).1.logicalStack libraryTick
  refine ⟨recording, goOn, by decide +kernel, ?_⟩
  rw [same]
  decide +kernel

end Profile

end JitTrace
