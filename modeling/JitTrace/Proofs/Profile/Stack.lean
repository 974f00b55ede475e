import JitTrace.Profile.Ticks

/-!
# Stacks, address by address

The stack of a tick is resolved one address after the other. Each address adds the frames
it stands for, and leaves behind a profile that may have a report, a count and a
rearranged code map more, unless there is no end of these frames.
-/

namespace JitTrace.Profile

/-! ## Addresses -/

/-- The profile after one address of a stack has been resolved. -/
def resolveOne (profile : Profile) (position : Nat) (search : NativeEntrySearch)
    (address : UInt64) : Profile :=
  let (resolved, codeMap) := resolveAddress profile.codeMap address (!position == 0)
  let located := { profile with codeMap, endless := profile.endless || resolved.endless }
  let reported :=
    if resolved.located.isNone then located.reportMissing position address else located
  reported.countNativeEntry (search.step (position == 0) resolved).1

/-- The frames of a stack are those of its first address and those of the others. -/
theorem resolveStack_cons (profile : Profile) (kind : StackKind) (position : Nat)
    (search : NativeEntrySearch) (address : UInt64) (stack : List UInt64) :
    profile.resolveStack kind position search (address :: stack) =
      let resolved := (resolveAddress profile.codeMap address (!position == 0)).1
      let profile := profile.resolveOne position search address
      let rest := profile.resolveStack kind (position + 1) (search.step (position == 0) resolved).2
        stack
      (logicalFrames profile.skip kind (position == 0) resolved ++ rest.1, rest.2) :=
  rfl

/-- What neither reports nor counts of entries concern changes with the code map alone, and
with whether there is an end of the calls. -/
theorem read_resolveOne {Read : Type} (read : Profile → Read)
    (reports : ∀ (profile : Profile) position address,
      read (profile.reportMissing position address) = read profile)
    (counts : ∀ (profile : Profile) entered,
      read (profile.countNativeEntry entered) = read profile)
    (profile : Profile) (position : Nat) (search : NativeEntrySearch) (address : UInt64) :
    read (profile.resolveOne position search address) =
      read { profile with
        codeMap := (resolveAddress profile.codeMap address (!position == 0)).2
        endless := profile.endless ||
          (resolveAddress profile.codeMap address (!position == 0)).1.endless } := by
  rw [resolveOne, counts]
  split
  · exact reports ..
  · rfl

/-- What does not concern these either is not changed by resolving a stack. -/
theorem read_resolveStack {Read : Type} (read : Profile → Read)
    (reports : ∀ (profile : Profile) position address,
      read (profile.reportMissing position address) = read profile)
    (counts : ∀ (profile : Profile) entered,
      read (profile.countNativeEntry entered) = read profile)
    (maps : ∀ (profile : Profile) codeMap endless,
      read { profile with codeMap, endless } = read profile)
    (profile : Profile) (kind : StackKind) (position : Nat) (search : NativeEntrySearch)
    (stack : List UInt64) :
    read (profile.resolveStack kind position search stack).2 = read profile := by
  induction stack generalizing profile position search with
  | nil => rfl
  | cons address stack inductionHypothesis =>
    rw [resolveStack_cons]
    dsimp only
    rw [inductionHypothesis, read_resolveOne read reports counts, maps]

theorem skip_reportMissing (profile : Profile) (position : Nat) (address : UInt64) :
    (profile.reportMissing position address).skip = profile.skip := by
  rw [reportMissing]
  split <;> rfl

theorem skip_countNativeEntry (profile : Profile) (entered : Option String) :
    (profile.countNativeEntry entered).skip = profile.skip := by
  cases entered <;> rfl

theorem skip_resolveOne (profile : Profile) (position : Nat) (search : NativeEntrySearch)
    (address : UInt64) : (profile.resolveOne position search address).skip = profile.skip :=
  read_resolveOne (·.skip) skip_reportMissing skip_countNativeEntry ..

/-- Resolving a stack does not change the filter. -/
theorem skip_resolveStack (profile : Profile) (kind : StackKind) (position : Nat)
    (search : NativeEntrySearch) (stack : List UInt64) :
    (profile.resolveStack kind position search stack).2.skip = profile.skip :=
  read_resolveStack (·.skip) skip_reportMissing skip_countNativeEntry (fun _ _ _ => rfl) ..

/-! ## Ticks -/

/-- The calls of a tick, innermost first, and the profile once it has been counted and its
stack has been resolved. -/
def resolveTick (profile : Profile) (tick : Tick) : List LogicalFrame × Profile :=
  let counted := (profile.observeTime tick.timestamp).countTick tick.vmState
  let (kind, stack) := Tick.physicalStack profile.codeMap tick
  counted.resolveStack kind 0 {} stack

/-- The logical stack of a tick: its calls, innermost first. -/
def logicalStack (profile : Profile) (tick : Tick) : List LogicalFrame :=
  (profile.resolveTick tick).1

/-- A profile that is recorded resolves a tick and adds its sample. -/
theorem recordTick_eq {profile : Profile} (recording : profile.finalized = false)
    (tick : Tick) :
    profile.recordTick tick =
      let (frames, resolved) := profile.resolveTick tick
      let (node, after) := resolved.addSample tick (resolved.attributionOf tick.vmState frames)
      (.ok node, after) := by
  rw [recordTick, whileRecording, recording, if_neg Bool.false_ne_true]
  rfl

end JitTrace.Profile
