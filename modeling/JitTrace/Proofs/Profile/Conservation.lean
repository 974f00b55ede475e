import JitTrace.Proofs.Profile.Run
import JitTrace.Proofs.Profile.Smoothing
import JitTrace.Proofs.Tally

/-!
# Conservation of samples

A profile counts every tick four times: as a sample, in the weight of a call tree node,
in the total number of ticks and in the ticks of a state of the engine. Code events
touch none of these, a tick adds one to each, and finalizing only moves samples.
-/

namespace JitTrace

namespace Profile

/-! ## Changes without samples -/

/-- The second profile comes from the first by a change that recorded no sample. Of the
ticks counted before, it found at most `missing` outside all code. -/
structure Unsampled (missing : Nat) (before after : Profile) : Prop where
  growing : after.growing = before.growing
  samples : after.samples = before.samples
  finalized : after.finalized = before.finalized
  times : (after.startTime, after.endTime) = (before.startTime, before.endTime)
  total : after.counters.total = before.counters.total
  byState : after.counters.byState = before.counters.byState
  unaccounted_le : after.counters.unaccounted ≤ before.counters.unaccounted + missing

namespace Unsampled

theorem trans {first second : Nat} {before middle after : Profile}
    (left : Unsampled first before middle) (right : Unsampled second middle after) :
    Unsampled (first + second) before after where
  growing := right.growing.trans left.growing
  samples := right.samples.trans left.samples
  finalized := right.finalized.trans left.finalized
  times := right.times.trans left.times
  total := right.total.trans left.total
  byState := right.byState.trans left.byState
  unaccounted_le := by
    have := left.unaccounted_le
    have := right.unaccounted_le
    omega

/-- A change leaves samples, times and counters as they are. -/
theorem of_same {before after : Profile} (growing : after.growing = before.growing)
    (samples : after.samples = before.samples) (finalized : after.finalized = before.finalized)
    (times : (after.startTime, after.endTime) = (before.startTime, before.endTime))
    (counters : after.counters = before.counters) : Unsampled 0 before after :=
  ⟨growing, samples, finalized, times, by rw [counters], by rw [counters],
    (congrArg TickCounters.unaccounted counters).le⟩

theorem refl (profile : Profile) : Unsampled 0 profile profile :=
  of_same rfl rfl rfl rfl rfl

/-- An event that concerns code or scripts records no sample. -/
theorem of_event {before after : Profile} (event : Event before after) :
    Unsampled 0 before after := by
  rw [event.rest]
  exact of_same rfl rfl rfl rfl rfl

variable (profile : Profile)

theorem reportMissing (position : Nat) (address : UInt64) :
    Unsampled (if position = 0 then 1 else 0) profile (profile.reportMissing position address) := by
  rw [Profile.reportMissing]
  by_cases innermost : position = 0
  · simp only [innermost, BEq.rfl, if_true]
    exact ⟨rfl, rfl, rfl, rfl, rfl, rfl, le_rfl⟩
  · simp only [beq_iff_eq, innermost, if_false]
    exact of_same rfl rfl rfl rfl rfl

theorem countNativeEntry (entered : Option String) :
    Unsampled 0 profile (profile.countNativeEntry entered) := by
  cases entered with
  | none => exact refl profile
  | some name => exact of_same rfl rfl rfl rfl rfl

/-- Resolving an address finds that address outside all code, or nothing. -/
theorem resolveOne (position : Nat) (search : NativeEntrySearch) (address : UInt64) :
    Unsampled (if position = 0 then 1 else 0) profile
      (profile.resolveOne position search address) := by
  let resolved := resolveAddress profile.codeMap address (!position == 0)
  let located : Profile :=
    { profile with codeMap := resolved.2, endless := profile.endless || resolved.1.endless }
  have looked : Unsampled 0 profile located := of_same rfl rfl rfl rfl rfl
  have reported : Unsampled (if position = 0 then 1 else 0) located
      (if resolved.1.located.isNone then located.reportMissing position address else located) := by
    cases resolved.1.located.isNone with
    | true => exact reportMissing located position address
    | false => exact ⟨rfl, rfl, rfl, rfl, rfl, rfl, Nat.le_add_right _ _⟩
  have entered := (looked.trans reported).trans
    (countNativeEntry _ (search.step (position == 0) resolved.1).1)
  rwa [Nat.zero_add] at entered

/-- Resolving a stack finds at most its program counter outside all code. -/
theorem resolveStack (kind : StackKind) (position : Nat) (search : NativeEntrySearch)
    (stack : List UInt64) :
    Unsampled (if position = 0 then 1 else 0) profile
      (profile.resolveStack kind position search stack).2 := by
  induction stack generalizing position search profile with
  | nil => exact ⟨rfl, rfl, rfl, rfl, rfl, rfl, Nat.le_add_right _ _⟩
  | cons address stack inductionHypothesis =>
    have rest := inductionHypothesis (profile.resolveOne position search address) (position + 1)
      (search.step (position == 0)
        (resolveAddress profile.codeMap address (!position == 0)).1).2
    rw [if_neg (Nat.succ_ne_zero position)] at rest
    exact (resolveOne profile position search address).trans rest

end Unsampled

/-- A request other than a tick or finalizing records no sample. -/
theorem perform_cases (profile : Profile) (request : Request) :
    Unsampled 0 profile (profile.perform request) ∨ (∃ tick, request = .recordTick tick) ∨
      request = .finalize := by
  exact (profile.event_perform request).imp_left .of_event

/-- A tick is refused, or it is counted, its stack is resolved, and its sample is added. -/
theorem recordTick_cases (profile : Profile) (tick : Tick) :
    (profile.recordTick tick).2 = profile ∨ profile.finalized = false ∧
      ∃ counted attribution,
        Unsampled 1 ((profile.observeTime tick.timestamp).countTick tick.vmState) counted ∧
          (profile.recordTick tick).2 = (counted.addSample tick attribution).2 := by
  rw [Profile.recordTick, whileRecording]
  split
  · exact .inl rfl
  · rename_i recording
    exact .inr ⟨Bool.eq_false_of_not_eq_true recording, _, _, .resolveStack _ _ 0 {} _, rfl⟩

/-! ## Accounted profiles -/

/-- Samples, weights and counters agree. -/
structure Accounted (profile : Profile) : Prop where
  tracked : Tracked profile.tree profile.samples
  total : profile.counters.total = profile.samples.size
  byState : Tally.total profile.counters.byState = profile.samples.size
  unaccounted_le : profile.counters.unaccounted ≤ profile.counters.total
  root : profile.finalized = true →
    (profile.tree.node 0).totalWeight = profile.samples.size

namespace Accounted

variable {profile : Profile}

theorem new (settings : ProfileSettings) (provider : ScriptProvider) :
    Accounted (new settings provider) where
  tracked := .fresh _ _
  total := rfl
  byState := rfl
  unaccounted_le := le_rfl
  root finalized := absurd finalized Bool.false_ne_true

/-- A change that records no sample and finds no tick outside all code. -/
theorem of_unsampled (accounted : Accounted profile) {after : Profile}
    (unsampled : Unsampled 0 profile after) : Accounted after where
  tracked := by
    rw [tree, unsampled.growing, unsampled.samples]
    exact accounted.tracked
  total := by rw [unsampled.total, unsampled.samples, accounted.total]
  byState := by rw [unsampled.byState, unsampled.samples, accounted.byState]
  unaccounted_le := by
    rw [unsampled.total]
    exact Nat.le_trans unsampled.unaccounted_le accounted.unaccounted_le
  root finalized := by
    rw [tree, unsampled.growing, unsampled.samples]
    exact accounted.root (unsampled.finalized ▸ finalized)

/-- Once a tick has been counted, its sample is added with its weight. -/
theorem addSample (accounted : Accounted profile) (recording : profile.finalized = false)
    (tick : Tick) {counted : Profile}
    (unsampled : Unsampled 1 (profile.countTick tick.vmState) counted) (attribution : Attribution) :
    Accounted (counted.addSample tick attribution).2 := by
  have tracked : Tracked counted.growing.tree counted.samples := by
    rw [unsampled.growing, unsampled.samples]
    exact accounted.tracked
  obtain ⟨inside, grown⟩ := GrowingTree.grown_addPathFrom tracked.rooted tracked.rooted.nonempty
    attribution.path
  have size : (counted.addSample tick attribution).2.samples.size = profile.samples.size + 1 := by
    rw [Profile.addSample]
    exact (Array.size_push _).trans (congrArg (·.size + 1) unsampled.samples)
  have total : counted.counters.total = profile.counters.total + 1 := unsampled.total
  have byState : counted.counters.byState = Tally.bump tick.vmState profile.counters.byState :=
    unsampled.byState
  refine ⟨?_, ?_, ?_, ?_, ?_⟩
  · exact (tracked.grow grown).record
      ⟨_, tick.timestamp, attribution.line, tick.vmState, attribution.system⟩ inside
  · rw [size, ← accounted.total]
    exact total
  · rw [size, ← accounted.byState]
    exact (congrArg Tally.total byState).trans (Tally.total_bump _ _)
  · have counts : counted.counters.unaccounted ≤ profile.counters.unaccounted + 1 :=
      unsampled.unaccounted_le
    have before := accounted.unaccounted_le
    change counted.counters.unaccounted ≤ counted.counters.total
    omega
  · intro finalized
    have unfinished : counted.finalized = false := unsampled.finalized.trans recording
    exact absurd (unfinished.symm.trans finalized) Bool.false_ne_true

/-- A tick adds a sample, its weight and its counts. -/
theorem recordTick (accounted : Accounted profile) (tick : Tick) :
    Accounted (profile.recordTick tick).2 := by
  rcases recordTick_cases profile tick with
    refused | ⟨recording, counted, attribution, unsampled, adds⟩
  · rwa [refused]
  · have observed : Accounted (profile.observeTime tick.timestamp) :=
      ⟨accounted.tracked, accounted.total, accounted.byState, accounted.unaccounted_le,
        accounted.root⟩
    rw [adds]
    exact observed.addSample recording tick unsampled attribution

/-- Finalizing moves samples and computes totals. -/
theorem finalize (accounted : Accounted profile) : Accounted profile.finalize.2 := by
  rw [Profile.finalize]
  split
  · exact accounted
  · obtain ⟨smoothed, size⟩ := accounted.tracked.smooth
    dsimp only
    refine ⟨smoothed.computeTotals, ?_, ?_, accounted.unaccounted_le, ?_⟩
    · exact accounted.total.trans size.symm
    · exact accounted.byState.trans size.symm
    · intro _
      change ((smooth profile.tree profile.samples).tree.computeTotals.node 0).totalWeight = _
      rw [smoothed.rooted.root_computeTotals, smoothed.sum_selfWeight]

theorem perform (accounted : Accounted profile) (request : Request) :
    Accounted (profile.perform request) := by
  rcases perform_cases profile request with unsampled | ⟨tick, rfl⟩ | rfl
  · exact accounted.of_unsampled unsampled
  · exact accounted.recordTick tick
  · exact accounted.finalize

theorem foldl_perform (accounted : Accounted profile) (requests : List Request) :
    Accounted (requests.foldl Profile.perform profile) := by
  induction requests generalizing profile with
  | nil => exact accounted
  | cons request requests inductionHypothesis =>
    exact inductionHypothesis (accounted.perform request)

/-- Every run leaves an accounted profile. -/
theorem run (settings : ProfileSettings) (provider : ScriptProvider) (requests : List Request) :
    Accounted (run settings provider requests) :=
  (new settings provider).foldl_perform requests

end Accounted

/-! ## Conservation -/

/-- The weights of the call tree, the samples and the counters count the same ticks. -/
structure Conserved (profile : Profile) : Prop where
  /-- The weight of a node is the number of its samples. -/
  selfWeight : ∀ node, (profile.tree.node node).selfWeight =
    profile.samples.countP fun sample => sample.node = node
  /-- The ticks of a line of a node are the number of its samples there. -/
  lineTicks : ∀ node line, (profile.tree.node node).lineTicks.count line =
    profile.samples.countP fun sample => sample.node = node ∧ sample.line = some line
  sum_selfWeight : ∑ node ∈ Finset.range profile.tree.size, (profile.tree.node node).selfWeight =
    profile.samples.size
  total : profile.counters.total = profile.samples.size
  byState : Tally.total profile.counters.byState = profile.samples.size
  unaccounted_le : profile.counters.unaccounted ≤ profile.counters.total
  /-- Whenever smoothing looks at a sample, the sample is counted at its node and at its
  line, so moving it takes no count below zero. -/
  covers : ∀ program steps, steps < profile.samples.size - 2 →
    (Smoothing.after program profile.tree profile.samples steps).Covers (steps + 1)
  /-- After finalizing, the total of the root is the number of samples. -/
  root_totalWeight : profile.finalized = true →
    (profile.tree.node 0).totalWeight = profile.samples.size

/-- Whatever is asked of a profile, its ticks are conserved. -/
theorem conserved_run (settings : ProfileSettings) (provider : ScriptProvider)
    (requests : List Request) : Conserved (run settings provider requests) := by
  have accounted := Accounted.run settings provider requests
  have tracked := accounted.tracked
  exact {
    selfWeight := tracked.weights
    lineTicks := tracked.lines
    sum_selfWeight := tracked.sum_selfWeight
    total := accounted.total
    byState := accounted.byState
    unaccounted_le := accounted.unaccounted_le
    covers := fun program _ within => Smoothing.covers_after tracked program within
    root_totalWeight := accounted.root }

end Profile

end JitTrace
