import JitTrace.Proofs.Outcome
import JitTrace.Proofs.Profile.Stack

/-!
# Ticks of profiles that cannot be told apart

What a tick resolves to depends on the answers of the code map and on nothing else. Where
two code maps answer alike, ticks are attributed alike. An inlining table names functions
by their addresses, so the maps may even have a function at different addresses, as long as
the tables of each name its own.
-/

namespace JitTrace

/-- A source mapping whose inlined functions are listed under other addresses. -/
def SourceInfo.readdressed (exchange : UInt64 → UInt64) (source : SourceInfo) : SourceInfo :=
  { source with inlinedFunctions := source.inlinedFunctions.map exchange }

/-- An entry whose inlined functions are listed under other addresses. -/
def CodeEntry.readdressed (exchange : UInt64 → UInt64) (entry : CodeEntry) : CodeEntry :=
  { entry with source := entry.source.map (·.readdressed exchange) }

@[simp] theorem CodeEntry.readdressed_id (entry : CodeEntry) : entry.readdressed id = entry := by
  obtain ⟨size, name, codeType, flavor, kind, timestamp, source⟩ := entry
  cases source <;> simp [readdressed, SourceInfo.readdressed]

/-- Maps that are alike answer alike. What the first one has at an address, the second one
has at the address that `exchange` makes of it. -/
structure CodeMap.Indistinct (exchange : UInt64 → UInt64) (alike : CodeMap → CodeMap → Prop) :
    Prop where
  entry : ∀ {left right}, alike left right →
    ∀ id, right.entry id = (left.entry id).readdressed exchange
  lookup? : ∀ {left right}, alike left right → right.lookup? = left.lookup?
  findAddress : ∀ {left right}, alike left right →
    ∀ address, Agree alike (left.findAddress address) (right.findAddress address)
  dynamicAt : ∀ {left right}, alike left right →
    ∀ address, Agree alike (left.dynamicAt address) (right.dynamicAt (exchange address))

/-- Two profiles are equal but for their code maps, which are alike. -/
structure Profile.EqualOver (alike : CodeMap → CodeMap → Prop) (left right : Profile) : Prop where
  codeMap : alike left.codeMap right.codeMap
  rest : right = { left with codeMap := right.codeMap }

variable {exchange : UInt64 → UInt64} {alike : CodeMap → CodeMap → Prop}

namespace CodeMap.Indistinct

variable {left right : CodeMap} (indistinct : Indistinct exchange alike) (same : alike left right)
include indistinct same

theorem displayName_eq : right.displayName = left.displayName := by
  funext id
  simp only [CodeMap.displayName, indistinct.entry same, CodeEntry.readdressed,
    CodeEntry.functionName]

theorem inlinedFrame (scriptId : UInt32) (scriptOffset : UInt64) (address? : Option UInt64) :
    Agree alike (left.inlinedFrame scriptId scriptOffset address?)
      (right.inlinedFrame scriptId scriptOffset (address?.map exchange)) := by
  cases address? with
  | none => exact ⟨none, left, right, rfl, rfl, same⟩
  | some address =>
    obtain ⟨found, first, second, onLeft, onRight, searched⟩ := indistinct.dynamicAt same address
    simp only [CodeMap.inlinedFrame, Option.map_some, onLeft, onRight]
    cases found with
    | none => exact ⟨none, first, second, rfl, rfl, searched⟩
    | some function =>
      refine ⟨_, first, second, rfl, ?_, searched⟩
      simp only [indistinct.entry searched, indistinct.displayName_eq searched,
        CodeEntry.readdressed, Option.map_map]
      rfl

theorem inlinedFrames (source : SourceInfo) (steps : Nat) (scriptOffset : UInt64)
    (inliningId : Option Nat) :
    Agree alike (left.inlinedFrames source steps scriptOffset inliningId)
      (right.inlinedFrames (source.readdressed exchange) steps scriptOffset inliningId) := by
  induction steps generalizing left right scriptOffset inliningId with
  | zero =>
    rw [CodeMap.inlinedFrames.eq_def, CodeMap.inlinedFrames.eq_def]
    simp only [SourceInfo.readdressed]
    cases inliningId.bind (source.inlining[·]?) <;> exact ⟨_, left, right, rfl, rfl, same⟩
  | succ steps inductionHypothesis =>
    rw [CodeMap.inlinedFrames.eq_def, CodeMap.inlinedFrames.eq_def]
    simp only [SourceInfo.readdressed, Array.getElem?_map]
    cases inliningId.bind (source.inlining[·]?) with
    | none => exact ⟨_, left, right, rfl, rfl, same⟩
    | some call =>
      obtain ⟨frame?, first, second, onLeft, onRight, found⟩ := indistinct.inlinedFrame same
        source.scriptId scriptOffset source.inlinedFunctions[call.functionIndex]?
      obtain ⟨outer?, third, fourth, onFirst, onSecond, expanded⟩ :=
        inductionHypothesis found call.scriptOffset call.parent
      simp only [SourceInfo.readdressed] at onSecond
      simp only [onLeft, onRight, onFirst, onSecond]
      exact ⟨_, third, fourth, rfl, rfl, expanded⟩

theorem expandFrame (located : Located) (isReturnAddress : Bool) :
    Agree alike (left.expandFrame? located isReturnAddress)
      (right.expandFrame? located isReturnAddress) := by
  simp only [CodeMap.expandFrame?, indistinct.entry same, indistinct.displayName_eq same,
    CodeEntry.readdressed]
  cases (left.entry located.id).source with
  | none => exact ⟨_, left, right, rfl, rfl, same⟩
  | some source =>
    have position : (source.readdressed exchange).positionAt? = source.positionAt? := rfl
    simp only [Option.map_some, position]
    generalize source.positionAt? _ = position?
    cases position? with
    | none => exact ⟨_, left, right, rfl, rfl, same⟩
    | some position =>
      obtain ⟨inlined?, first, second, onLeft, onRight, expanded⟩ :=
        indistinct.inlinedFrames same source source.inlining.size position.scriptOffset
          position.inliningId
      have inlining : (source.readdressed exchange).inlining = source.inlining := rfl
      simp only [inlining, onLeft, onRight]
      exact ⟨_, first, second, rfl, rfl, expanded⟩

theorem resolveAddress (address : UInt64) (isReturnAddress : Bool) :
    Agree alike (Profile.resolveAddress left address isReturnAddress)
      (Profile.resolveAddress right address isReturnAddress) := by
  obtain ⟨located?, first, second, onLeft, onRight, searched⟩ :=
    indistinct.findAddress same address
  simp only [Profile.resolveAddress, onLeft, onRight]
  cases located? with
  | none => exact ⟨_, first, second, rfl, rfl, searched⟩
  | some located =>
    obtain ⟨frames?, third, fourth, onFirst, onSecond, expanded⟩ :=
      indistinct.expandFrame searched located isReturnAddress
    simp only [onFirst, onSecond, indistinct.entry searched, indistinct.displayName_eq searched]
    exact ⟨_, third, fourth, rfl, rfl, expanded⟩

theorem physicalStack_eq (tick : Tick) :
    Profile.Tick.physicalStack right tick = Profile.Tick.physicalStack left tick := by
  simp only [Profile.Tick.physicalStack, indistinct.lookup? same, indistinct.entry same]
  rfl

end CodeMap.Indistinct

namespace Profile.EqualOver

variable {left right : Profile}

theorem exists_eq (equal : EqualOver alike left right) : ∃ codeMap, right = { left with codeMap } :=
  ⟨_, equal.rest⟩

theorem withCodeMap (equal : EqualOver alike left right) {first second : CodeMap}
    (codeMap : alike first second) (endless : Bool) :
    EqualOver alike { left with codeMap := first, endless := left.endless || endless }
      { right with codeMap := second, endless := right.endless || endless } := by
  obtain ⟨_, rfl⟩ := equal.exists_eq
  exact ⟨codeMap, rfl⟩

theorem reportMissing (equal : EqualOver alike left right) (position : Nat) (address : UInt64) :
    EqualOver alike (left.reportMissing position address)
      (right.reportMissing position address) := by
  obtain ⟨_, rfl⟩ := equal.exists_eq
  simp only [Profile.reportMissing]
  split <;> exact ⟨equal.codeMap, rfl⟩

theorem countNativeEntry (equal : EqualOver alike left right) (entered : Option String) :
    EqualOver alike (left.countNativeEntry entered) (right.countNativeEntry entered) := by
  obtain ⟨_, rfl⟩ := equal.exists_eq
  cases entered <;> exact ⟨equal.codeMap, rfl⟩

theorem skip_eq (equal : EqualOver alike left right) : right.skip = left.skip := by
  rw [equal.rest]

theorem addSample (equal : EqualOver alike left right) (tick : Tick) (attribution : Attribution) :
    Agree (EqualOver alike) (left.addSample tick attribution)
      (right.addSample tick attribution) := by
  obtain ⟨_, rfl⟩ := equal.exists_eq
  exact ⟨_, _, _, rfl, rfl, equal.codeMap, rfl⟩

variable (indistinct : CodeMap.Indistinct exchange alike)
include indistinct

/-- An address stands for the same frames, and leaves the profiles alike. -/
theorem resolveOne (equal : EqualOver alike left right) (position : Nat)
    (search : NativeEntrySearch) (address : UInt64) :
    (resolveAddress right.codeMap address (!position == 0)).1 =
        (resolveAddress left.codeMap address (!position == 0)).1 ∧
      EqualOver alike (left.resolveOne position search address)
        (right.resolveOne position search address) := by
  obtain ⟨resolved, first, second, onLeft, onRight, searched⟩ :=
    indistinct.resolveAddress equal.codeMap address (!position == 0)
  have located := equal.withCodeMap searched resolved.endless
  rw [Profile.resolveOne, Profile.resolveOne, onLeft, onRight]
  refine ⟨rfl, countNativeEntry ?_ _⟩
  split
  · exact located.reportMissing position address
  · exact located

theorem resolveStack (equal : EqualOver alike left right) (kind : StackKind) (position : Nat)
    (search : NativeEntrySearch) (stack : List UInt64) :
    Agree (EqualOver alike) (left.resolveStack kind position search stack)
      (right.resolveStack kind position search stack) := by
  induction stack generalizing left right position search with
  | nil => exact ⟨[], left, right, rfl, rfl, equal⟩
  | cons address stack inductionHypothesis =>
    obtain ⟨resolved, first⟩ := equal.resolveOne indistinct position search address
    let step := search.step (position == 0)
      (resolveAddress left.codeMap address (!position == 0)).1
    obtain ⟨outer, third, fourth, onFirst, onSecond, rest⟩ :=
      inductionHypothesis first (position + 1) step.2
    rw [resolveStack_cons, resolveStack_cons, resolved]
    dsimp only
    rw [first.skip_eq, onFirst, onSecond]
    exact ⟨_, third, fourth, rfl, rfl, rest⟩

theorem attributionOf_eq (equal : EqualOver alike left right) (state : VmState)
    (frames : List LogicalFrame) :
    right.attributionOf state frames = left.attributionOf state frames := by
  cases frames with
  | nil => simp only [attributionOf, indistinct.displayName_eq equal.codeMap]
  | cons leaf outer =>
    have scripts : right.scripts = left.scripts := by rw [equal.rest]
    simp only [attributionOf, lineOf?, scripts]

theorem resolveTick (equal : EqualOver alike left right) (tick : Tick) :
    Agree (EqualOver alike) (left.resolveTick tick) (right.resolveTick tick) := by
  have counted : EqualOver alike ((left.observeTime tick.timestamp).countTick tick.vmState)
      ((right.observeTime tick.timestamp).countTick tick.vmState) := by
    obtain ⟨_, rfl⟩ := equal.exists_eq
    exact ⟨equal.codeMap, rfl⟩
  rw [Profile.resolveTick, Profile.resolveTick, indistinct.physicalStack_eq equal.codeMap]
  exact counted.resolveStack indistinct _ 0 {} _

/-- A tick is attributed alike. -/
theorem recordTick (equal : EqualOver alike left right) (tick : Tick) :
    Agree (EqualOver alike) (left.recordTick tick) (right.recordTick tick) := by
  have finalized : right.finalized = left.finalized := by rw [equal.rest]
  cases recording : left.finalized with
  | true =>
    rw [Profile.recordTick, Profile.recordTick, whileRecording, whileRecording, finalized,
      recording]
    exact ⟨_, left, right, rfl, rfl, equal⟩
  | false =>
    obtain ⟨frames, first, second, onLeft, onRight, resolved⟩ := equal.resolveTick indistinct tick
    obtain ⟨node, third, fourth, onFirst, onSecond, sampled⟩ :=
      resolved.addSample tick (first.attributionOf tick.vmState frames)
    rw [recordTick_eq recording, recordTick_eq (finalized.trans recording), onLeft, onRight]
    dsimp only
    rw [resolved.attributionOf_eq indistinct, onFirst, onSecond]
    exact ⟨_, third, fourth, rfl, rfl, sampled⟩

end Profile.EqualOver

end JitTrace
