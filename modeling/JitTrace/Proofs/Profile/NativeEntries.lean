import JitTrace.Profile.Queries
import JitTrace.Proofs.Profile.Conservation
import JitTrace.Proofs.Profile.Growth
import Mathlib.Data.List.TakeWhile

/-!
# Entries through native functions

A tick that fell on native code may tell through which native function the engine was entered:
the last one of the first run of native functions, if another frame lies behind that run. The
search goes over the frames once. It rests, looks for a first native function, or has a
candidate, and in each of these states what it finds in the frames ahead has a description of
its own.
-/

namespace JitTrace

namespace Profile

/-! ## Frames -/

/-- The address lies in a native function. -/
def ResolvedAddress.isNative (frame : ResolvedAddress) : Bool :=
  frame.codeType == some CodeEntry.nativeType

/-- The address lies in a library, be it in a native function or elsewhere. -/
def ResolvedAddress.inLibrary (frame : ResolvedAddress) : Bool :=
  frame.isNative || frame.codeType == some CodeEntry.libraryType

/-- What addresses resolve to, one after the other. -/
def resolutions (map : CodeMap) (isInnermost : Bool) : List UInt64 → List ResolvedAddress
  | [] => []
  | address :: stack =>
    let (frame, map) := resolveAddress map address !isInnermost
    frame :: resolutions map false stack

/-- What the addresses of a tick resolve to, innermost first. -/
def physicalFrames (profile : Profile) (tick : Tick) : List ResolvedAddress :=
  resolutions profile.codeMap true (Tick.physicalStack profile.codeMap tick).2

/-- The last native function of the first run of native functions, if another frame lies
behind them. -/
def lastOfFirstRun? (frames : List ResolvedAddress) : Option String :=
  let fromFirst := frames.dropWhile fun frame => !frame.isNative
  if fromFirst.all (·.isNative) then none
  else ((fromFirst.takeWhile (·.isNative)).map (·.label)).getLast?

/-- The native function through which the engine was entered, as the frames of a tick tell. -/
def enteredThrough? (frames : List ResolvedAddress) : Option String :=
  if frames.head?.any (·.inLibrary) then lastOfFirstRun? frames else none

/-! ## The first run of native functions -/

/-- A function stands last in the first run of native functions, if there are frames in front
that are not native, a run that it ends, and another frame at once behind the run. -/
theorem lastOfFirstRun?_eq_some {frames : List ResolvedAddress} {name : String} :
    lastOfFirstRun? frames = some name ↔
      ∃ front inner last outer behind, frames = front ++ (inner ++ [last]) ++ outer :: behind ∧
        (∀ frame ∈ front, frame.isNative = false) ∧
        (∀ frame ∈ inner ++ [last], frame.isNative = true) ∧ outer.isNative = false ∧
        last.label = name := by
  constructor
  · intro found
    let fromFirst := frames.dropWhile fun frame => !frame.isNative
    change (if fromFirst.all (·.isNative) then none
      else ((fromFirst.takeWhile (·.isNative)).map (·.label)).getLast?) = some name at found
    split at found
    · contradiction
    rename_i others
    rw [List.getLast?_map, Option.map_eq_some_iff] at found
    obtain ⟨last, ends, rfl⟩ := found
    obtain ⟨inner, run⟩ := List.getLast?_eq_some_iff.mp ends
    have left : fromFirst.dropWhile (·.isNative) ≠ [] := by
      simpa [List.dropWhile_eq_nil_iff] using others
    obtain ⟨outer, behind, rest⟩ := List.exists_cons_of_ne_nil left
    refine ⟨frames.takeWhile fun frame => !frame.isNative, inner, last, outer, behind, ?_, ?_, ?_,
      ?_, rfl⟩
    · rw [← run, ← rest, List.append_assoc, List.takeWhile_append_dropWhile,
        List.takeWhile_append_dropWhile]
    · intro frame inside
      simpa using List.mem_takeWhile_imp inside
    · intro frame inside
      exact List.mem_takeWhile_imp (run ▸ inside)
    · have stops := List.head_dropWhile_not ResolvedAddress.isNative left
      simpa only [rest, List.head_cons] using stops
  · rintro ⟨front, inner, last, outer, behind, rfl, fronts, run, stops, rfl⟩
    have fromFirst : (front ++ (inner ++ [last]) ++ outer :: behind).dropWhile
        (fun frame => !frame.isNative) = (inner ++ [last]) ++ outer :: behind := by
      rw [List.append_assoc, List.dropWhile_append_of_pos (by simpa using fronts)]
      cases inner <;> simp_all
    have all : ((inner ++ [last]) ++ outer :: behind).all (·.isNative) = false := by
      simp [stops]
    rw [lastOfFirstRun?, fromFirst, all, List.takeWhile_append_of_pos run,
      List.takeWhile_cons_of_neg (by simp [stops])]
    simp

/-- There is such a function as soon as any frame behind the first native one is another. -/
theorem isSome_lastOfFirstRun? {frames : List ResolvedAddress} :
    (lastOfFirstRun? frames).isSome ↔
      ∃ front first behind, frames = front ++ first :: behind ∧
        (∀ frame ∈ front, frame.isNative = false) ∧ first.isNative = true ∧
        ∃ other ∈ behind, other.isNative = false := by
  constructor
  · intro found
    obtain ⟨name, found⟩ := Option.isSome_iff_exists.mp found
    obtain ⟨front, inner, last, outer, behind, rfl, fronts, run, stops, -⟩ :=
      lastOfFirstRun?_eq_some.mp found
    cases inner with
    | nil => exact ⟨front, last, outer :: behind, by simp, fronts, run _ (by simp), outer,
        by simp, stops⟩
    | cons first inner => exact ⟨front, first, inner ++ last :: outer :: behind, by simp, fronts,
        run _ (by simp), outer, by simp, stops⟩
  · rintro ⟨front, first, behind, rfl, fronts, isNative, other, inside, stops⟩
    have fromFirst : (front ++ first :: behind).dropWhile (fun frame => !frame.isNative) =
        first :: behind := by
      rw [List.dropWhile_append_of_pos (by simpa using fronts)]
      simp [isNative]
    have all : (first :: behind).all (·.isNative) = false := by
      rw [List.all_eq_false]
      exact ⟨other, List.mem_cons_of_mem _ inside, by simp [stops]⟩
    rw [lastOfFirstRun?, fromFirst, all, List.takeWhile_cons_of_pos isNative]
    simp [List.getLast?_cons]

/-! ## The search -/

namespace NativeEntrySearch

/-- What a search finds in frames, of which the first may be the innermost one. -/
def findings (search : NativeEntrySearch) (isInnermost : Bool) : List ResolvedAddress → List String
  | [] => []
  | frame :: frames =>
    let (found?, search) := search.step isInnermost frame
    found?.toList ++ search.findings false frames

/-- A search that does not begin with the innermost frame never begins. -/
theorem findings_resting (candidate : Option String) (frames : List ResolvedAddress) :
    findings ⟨false, candidate⟩ false frames = [] := by
  induction frames with
  | nil => rfl
  | cons frame frames inductionHypothesis =>
    simpa [findings, step] using inductionHypothesis

/-- A candidate is replaced by each native function that follows at once, and found at the
first other frame. -/
theorem findings_candidate (name : String) (frames : List ResolvedAddress) :
    findings ⟨true, some name⟩ false frames =
      if frames.all (·.isNative) then []
      else [((frames.takeWhile (·.isNative)).map (·.label)).getLast?.getD name] := by
  induction frames generalizing name with
  | nil => rfl
  | cons frame frames inductionHypothesis =>
    cases native : frame.isNative with
    | true =>
      have replaces : step ⟨true, some name⟩ false frame = (none, ⟨true, some frame.label⟩) := by
        simp_all [step, ResolvedAddress.isNative]
      simp only [findings, replaces, Option.toList_none, List.nil_append, inductionHypothesis,
        List.all_cons, native, Bool.true_and, List.takeWhile_cons, if_true, List.map_cons,
        List.getLast?_cons, Option.getD_some]
    | false =>
      have ends : step ⟨true, some name⟩ false frame = (some name, ⟨false, none⟩) := by
        simp_all [step, ResolvedAddress.isNative]
      simp [findings, ends, findings_resting, native]

/-- Before there is a candidate, frames are passed over up to the first native function. -/
theorem findings_searching (frames : List ResolvedAddress) :
    findings ⟨true, none⟩ false frames = (lastOfFirstRun? frames).toList := by
  induction frames with
  | nil => rfl
  | cons frame frames inductionHypothesis =>
    cases native : frame.isNative with
    | true =>
      have begins : step ⟨true, none⟩ false frame = (none, ⟨true, some frame.label⟩) := by
        simp_all [step, ResolvedAddress.isNative]
      have fromHere : lastOfFirstRun? (frame :: frames) =
          if frames.all (·.isNative) then none
          else some
            (((frames.takeWhile (·.isNative)).map (·.label)).getLast?.getD frame.label) := by
        simp [lastOfFirstRun?, native, List.getLast?_cons]
      simp only [findings, begins, Option.toList_none, List.nil_append, findings_candidate,
        fromHere]
      split <;> rfl
    | false =>
      have passes : step ⟨true, none⟩ false frame = (none, ⟨true, none⟩) := by
        simp_all [step, ResolvedAddress.isNative]
      simp only [findings, passes, Option.toList_none, List.nil_append, inductionHypothesis]
      simp [lastOfFirstRun?, native]

/-- Over all frames of a tick, a search finds one function at most. -/
theorem findings_innermost (frames : List ResolvedAddress) :
    findings {} true frames = (enteredThrough? frames).toList := by
  cases frames with
  | nil => rfl
  | cons frame frames =>
    cases inside : frame.inLibrary with
    | true =>
      -- The innermost frame is passed over or becomes the candidate, as later ones are.
      have begins : step {} true frame = step ⟨true, none⟩ false frame := by
        cases native : frame.isNative <;>
          simp_all [step, ResolvedAddress.isNative, ResolvedAddress.inLibrary]
      have searches : findings {} true (frame :: frames) =
          findings ⟨true, none⟩ false (frame :: frames) := by
        rw [findings, findings, begins]
      rw [searches, findings_searching]
      simp [enteredThrough?, inside]
    | false =>
      have rests : step {} true frame = (none, ⟨false, none⟩) := by
        simp_all [step, ResolvedAddress.isNative, ResolvedAddress.inLibrary]
      simp [findings, rests, findings_resting, enteredThrough?, inside]

end NativeEntrySearch

/-! ## Ticks -/

/-- Count some entries through native functions, one after the other. -/
def countNativeEntries (tally : Tally String) (names : List String) : Tally String :=
  names.foldl (fun tally name => Tally.bump name tally) tally

theorem nativeEntries_resolveOne (profile : Profile) (position : Nat) (search : NativeEntrySearch)
    (address : UInt64) :
    let frame := (resolveAddress profile.codeMap address (!position == 0)).1
    (profile.resolveOne position search address).nativeEntries =
      countNativeEntries profile.nativeEntries (search.step (position == 0) frame).1.toList := by
  intro frame
  have counts (profile : Profile) (entered : Option String) :
      (profile.countNativeEntry entered).nativeEntries =
        countNativeEntries profile.nativeEntries entered.toList := by
    cases entered <;> rfl
  have reports (profile : Profile) (address : UInt64) :
      (profile.reportMissing position address).nativeEntries = profile.nativeEntries := by
    rw [reportMissing]
    split <;> rfl
  rw [resolveOne, counts]
  congr 1
  split
  · exact reports ..
  · rfl

/-- Resolving a stack counts what the search finds in the frames. -/
theorem nativeEntries_resolveStack (profile : Profile) (kind : StackKind) (position : Nat)
    (search : NativeEntrySearch) (stack : List UInt64) :
    (profile.resolveStack kind position search stack).2.nativeEntries =
      countNativeEntries profile.nativeEntries
        (search.findings (position == 0) (resolutions profile.codeMap (position == 0) stack)) := by
  induction stack generalizing profile position search with
  | nil => rfl
  | cons address stack inductionHypothesis =>
    rw [resolveStack_cons]
    dsimp only
    rw [inductionHypothesis, nativeEntries_resolveOne, codeMap_resolveOne]
    simp only [countNativeEntries, resolutions, NativeEntrySearch.findings, List.foldl_append,
      Nat.add_one_ne_zero, beq_eq_false_iff_ne.mpr, ne_eq, not_false_eq_true]

/-- A tick counts one entry at most, through the function that its frames tell. -/
theorem nativeEntries_recordTick {profile : Profile} (recording : profile.finalized = false)
    (tick : Tick) :
    (profile.recordTick tick).2.nativeEntries =
      countNativeEntries profile.nativeEntries
        (enteredThrough? (profile.physicalFrames tick)).toList := by
  rw [recordTick_eq recording]
  exact (nativeEntries_resolveStack ..).trans
    (congrArg _ (NativeEntrySearch.findings_innermost _))

/-! ## Runs -/

/-- The frames of the tick that a request records, if it does. -/
def Request.frames (profile : Profile) : Request → List (List ResolvedAddress)
  | .recordTick tick => if profile.finalized then [] else [profile.physicalFrames tick]
  | _ => []

/-- The frames of the ticks that requests record, tick after tick. -/
def recordedFrames (profile : Profile) : List Request → List (List ResolvedAddress)
  | [] => []
  | request :: requests =>
    request.frames profile ++ (profile.perform request).recordedFrames requests

/-- A request records a tick, or it counts nothing. -/
theorem frames_cases (profile : Profile) (request : Request) :
    (∃ tick, request = .recordTick tick ∧ profile.finalized = false) ∨
      request.frames profile = [] ∧
        (profile.perform request).nativeEntries = profile.nativeEntries ∧
        (profile.perform request).counters = profile.counters := by
  cases request with
  | recordTick tick =>
    cases recording : profile.finalized with
    | true =>
      refine .inr ⟨if_pos recording, ?_⟩
      rw [perform, recordTick, whileRecording, if_pos recording]
      exact ⟨rfl, rfl⟩
    | false => exact .inl ⟨tick, rfl, rfl⟩
  | finalize =>
    refine .inr ⟨rfl, ?_⟩
    rw [perform, finalize]
    split <;> exact ⟨rfl, rfl⟩
  | _ =>
    refine .inr ⟨rfl, ?_⟩
    obtain event | ⟨_, impossible⟩ | impossible := profile.event_perform _
    · rw [event.rest]
      exact ⟨rfl, rfl⟩
    all_goals contradiction

/-- Only ticks count entries. -/
theorem nativeEntries_perform (profile : Profile) (request : Request) :
    (profile.perform request).nativeEntries =
      countNativeEntries profile.nativeEntries
        ((request.frames profile).filterMap enteredThrough?) := by
  rcases profile.frames_cases request with ⟨tick, rfl, recording⟩ | ⟨none, same, -⟩
  · rw [perform, nativeEntries_recordTick recording, Request.frames, if_neg (by simp [recording])]
    cases entered : enteredThrough? (profile.physicalFrames tick) <;> simp [entered]
  · rw [same, none]
    rfl

theorem total_perform (profile : Profile) (request : Request) :
    (profile.perform request).counters.total =
      profile.counters.total + (request.frames profile).length := by
  rcases profile.frames_cases request with ⟨tick, rfl, recording⟩ | ⟨none, -, same⟩
  · rw [perform, recordTick_eq recording, Request.frames, if_neg (by simp [recording])]
    exact (Unsampled.resolveStack _ _ 0 {} _).total
  · rw [same, none]
    rfl

theorem total_foldl_perform (profile : Profile) (requests : List Request) :
    (requests.foldl perform profile).counters.total =
      profile.counters.total + (profile.recordedFrames requests).length := by
  induction requests generalizing profile with
  | nil => rfl
  | cons request requests inductionHypothesis =>
    rw [List.foldl_cons, inductionHypothesis, total_perform, recordedFrames, List.length_append,
      Nat.add_assoc]

theorem nativeEntries_foldl_perform (profile : Profile) (requests : List Request) :
    (requests.foldl perform profile).nativeEntries =
      countNativeEntries profile.nativeEntries
        ((profile.recordedFrames requests).filterMap enteredThrough?) := by
  induction requests generalizing profile with
  | nil => rfl
  | cons request requests inductionHypothesis =>
    rw [List.foldl_cons, inductionHypothesis, nativeEntries_perform, recordedFrames,
      List.filterMap_append, countNativeEntries, countNativeEntries, countNativeEntries,
      List.foldl_append]

theorem nativeEntries_run (settings : ProfileSettings) (provider : ScriptProvider)
    (requests : List Request) :
    (run settings provider requests).nativeEntries =
      Tally.of (((new settings provider).recordedFrames requests).filterMap enteredThrough?) :=
  nativeEntries_foldl_perform ..

/-! ## The listing -/

theorem nativeEntryBefore_total (left right : NativeEntry) :
    (nativeEntryBefore left right || nativeEntryBefore right left) = true := by
  have := String.le_total left.name right.name
  simp only [nativeEntryBefore]
  grind

theorem nativeEntryBefore_trans (first second third : NativeEntry)
    (left : nativeEntryBefore first second = true) (right : nativeEntryBefore second third = true) :
    nativeEntryBefore first third = true := by
  have names := String.le_trans (a := first.name) (b := second.name) (c := third.name)
  simp only [nativeEntryBefore] at *
  grind

/-- The order of the listing is strict between rows of different names. -/
theorem lt_of_nativeEntryBefore {left right : NativeEntry}
    (before : nativeEntryBefore left right = true) (different : left.name ≠ right.name) :
    right.ticks < left.ticks ∨ left.ticks = right.ticks ∧ left.name < right.name := by
  rw [nativeEntryBefore] at before
  split at before
  · rename_i same
    exact .inr ⟨same, Std.lt_of_le_of_ne (of_decide_eq_true before) different⟩
  · exact .inl (of_decide_eq_true before)

/-- The listing of some counted names: each once with its count, in order, below the number of
names. -/
theorem nativeEntryListing_of {profile : Profile} {names : List String}
    (counted : profile.nativeEntries = Tally.of names) :
    let rows := profile.nativeEntryListing.tail
    profile.nativeEntryListing = ⟨"TOTAL", (rows.map (·.ticks)).sum⟩ :: rows ∧
      (rows.map (·.ticks)).sum = names.length ∧
      rows.Pairwise (fun left right =>
        right.ticks < left.ticks ∨ left.ticks = right.ticks ∧ left.name < right.name) ∧
      ∀ row, row ∈ rows ↔ row.name ∈ names ∧ names.count row.name = row.ticks := by
  intro rows
  let unsorted : List NativeEntry := profile.nativeEntries.map fun entry => ⟨entry.1, entry.2⟩
  have sorted : rows.Perm unsorted := List.mergeSort_perm unsorted nativeEntryBefore
  have total : (rows.map (·.ticks)).sum = Tally.total profile.nativeEntries := by
    rw [(sorted.map _).sum_nat, Tally.total_eq_sum, List.map_map]
    rfl
  have distinct : rows.Pairwise (·.name ≠ ·.name) := by
    rw [← List.pairwise_map (f := NativeEntry.name), ← List.nodup_iff_pairwise_ne,
      (sorted.map _).nodup_iff, List.map_map]
    exact counted ▸ Tally.nodup_keys_of names
  refine ⟨by rw [total]; rfl, by rw [total, counted, Tally.total_of], ?_, fun row => ?_⟩
  · exact (List.pairwise_mergeSort nativeEntryBefore_trans nativeEntryBefore_total _).imp₂
      (fun _ _ => lt_of_nativeEntryBefore) distinct
  · rw [sorted.mem_iff, ← Tally.mem_of, ← counted, List.mem_map]
    constructor
    · rintro ⟨⟨name, ticks⟩, inside, rfl⟩
      exact inside
    · exact fun inside => ⟨_, inside, rfl⟩

/-- A recorded tick counts one entry through a native function at most. It counts one exactly if
its innermost frame is in a library and a frame that is no native function lies behind the first
one that is; the function counted is then the last of the native functions that stand at once
from that first one on. After any requests, the listing has the sum of its other rows on top;
below it each function with the number of ticks that entered through it, by descending ticks and
then by name; and the sum is at most the number of ticks whose innermost frame is in a library. -/
theorem nativeEntryListing_run (settings : ProfileSettings) (provider : ScriptProvider)
    (requests : List Request) :
    let profile := run settings provider requests
    let ticks := (new settings provider).recordedFrames requests
    let rows := profile.nativeEntryListing.tail
    (∀ tick, profile.finalized = false →
      let frames := profile.physicalFrames tick
      (profile.recordTick tick).2.nativeEntries =
          (enteredThrough? frames).elim profile.nativeEntries (Tally.bump · profile.nativeEntries) ∧
        ((enteredThrough? frames).isSome ↔
          frames.head?.any (·.inLibrary) ∧
            ∃ front first behind, frames = front ++ first :: behind ∧
              (∀ frame ∈ front, frame.isNative = false) ∧ first.isNative = true ∧
              ∃ other ∈ behind, other.isNative = false) ∧
        ∀ name, enteredThrough? frames = some name →
          ∃ front inner last outer behind, frames = front ++ (inner ++ [last]) ++ outer :: behind ∧
            (∀ frame ∈ front, frame.isNative = false) ∧
            (∀ frame ∈ inner ++ [last], frame.isNative = true) ∧ outer.isNative = false ∧
            last.label = name) ∧
      ticks.length = profile.counters.total ∧
      profile.nativeEntryListing = ⟨"TOTAL", (rows.map (·.ticks)).sum⟩ :: rows ∧
      rows.Pairwise (fun left right =>
        right.ticks < left.ticks ∨ left.ticks = right.ticks ∧ left.name < right.name) ∧
      (∀ row, row ∈ rows ↔ 0 < row.ticks ∧
        ticks.countP (fun frames => enteredThrough? frames = some row.name) = row.ticks) ∧
      (rows.map (·.ticks)).sum ≤ ticks.countP fun frames => frames.head?.any (·.inLibrary) := by
  intro profile ticks rows
  obtain ⟨top, sum, ordered, members⟩ :=
    nativeEntryListing_of (nativeEntries_run settings provider requests)
  refine ⟨fun tick recording => ⟨?_, ?_, ?_⟩, ?_, top, ordered, fun row => ?_, ?_⟩
  · rw [nativeEntries_recordTick recording]
    cases enteredThrough? (profile.physicalFrames tick) <;> rfl
  · rw [← isSome_lastOfFirstRun?, enteredThrough?]
    split
    · rename_i inside
      exact (and_iff_right inside).symm
    · rename_i outside
      exact ⟨nofun, fun entered => absurd entered.1 outside⟩
  · intro name entered
    rw [enteredThrough?] at entered
    split at entered
    · exact lastOfFirstRun?_eq_some.mp entered
    · contradiction
  · have total := total_foldl_perform (new settings provider) requests
    exact (total.trans (Nat.zero_add _)).symm
  · rw [members, ← List.count_pos_iff, List.count_filterMap]
    simp only [beq_eq_decide]
    constructor
    · rintro ⟨some, all⟩
      exact ⟨all ▸ some, all⟩
    · rintro ⟨some, all⟩
      exact ⟨all ▸ some, all⟩
  · rw [sum, List.length_filterMap_eq_countP]
    refine List.countP_mono_left fun frames _ entered => ?_
    by_contra outside
    rw [enteredThrough?, if_neg outside] at entered
    contradiction

/-- A tick in no callback, at an address with some callers. -/
def nativeTick (programCounter : UInt64) (stack : List UInt64) : Tick where
  programCounter
  timestamp := 1
  inCallback := false
  callbackOrTop := 0
  vmState := .external
  stack

/-- A library with two native functions and room between them, and generated code. The first two
ticks enter through the first function, once over the second one; the third fell on the room
between them, behind generated code. -/
def enteringTwice : List Request :=
  [ .addLibrary "/usr/bin/node" 0x100000 0x200000,
    .addStaticCode "Runtime" 0x101000 0x102000,
    .addStaticCode "Helper" 0x103000 0x104000,
    .addCode
      { codeType := "Builtin", name := "Main", timestamp := 1, start := 0x1000, size := 0x100
        kind := none },
    .recordTick (nativeTick 0x103010 [0x101010, 0x1010]),
    .recordTick (nativeTick 0x101010 [0x1010]),
    .recordTick (nativeTick 0x180000 [0x1010]) ]

/-- Another tick, on the room between the functions, enters through the second one, which it
finds behind generated code and in front of an address without code. -/
theorem nativeEntryListing_run_again :
    let profile := run {} ScriptProvider.none enteringTwice
    let tick := nativeTick 0x180000 [0x1010, 0x103010, 0x9]
    profile.finalized = false ∧
      (profile.recordTick tick).2.nativeEntries = [("Runtime", 2), ("Helper", 1)] ∧
      profile.nativeEntryListing = [⟨"TOTAL", 2⟩, ⟨"Runtime", 2⟩] := by
  intro profile tick
  have recording : profile.finalized = false := by decide +kernel
  obtain ⟨counts, -, top, -⟩ := nativeEntryListing_run {} ScriptProvider.none enteringTwice
  refine ⟨recording, ?_, ?_⟩
  · rw [(counts tick recording).1]
    decide +kernel
  · rw [top]
    decide +kernel

end Profile

end JitTrace
