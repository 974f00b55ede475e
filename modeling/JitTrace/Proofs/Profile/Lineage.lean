import JitTrace.Profile.Queries
import JitTrace.Proofs.CallTree.Ids
import JitTrace.Proofs.Profile.Conservation
import Mathlib.Algebra.GroupWithZero.Nat

/-!
# Profiles in their lineage

While a profile is recorded, questions may be asked to it and copies of its call tree may
be made. The trees that come of it draw their ids from the supply of the profile. Whatever
happens, the links of the call tree agree, its nodes are numbered in order, and the times
of the profile are those of its first and last sample in time.
-/

namespace JitTrace

open CallTree (Reweighted)

namespace Profile

/-- What happens to a profile: a request is made to it, or another tree of the lineage
draws ids for new nodes. -/
inductive Activity where
  | request (request : Request)
  | draw (count : Nat)

/-- The profile after an activity. -/
def act (profile : Profile) : Activity → Profile
  | .request request => profile.perform request
  | .draw count =>
    { profile with growing := { profile.growing with ids := profile.growing.ids + .ofNat count } }

/-- A profile that began empty, after some activities. -/
def recorded (settings : ProfileSettings) (provider : ScriptProvider)
    (activities : List Activity) : Profile :=
  activities.foldl act (new settings provider)

/-- How many ids an activity draws for other trees. -/
def Activity.drawn : Activity → Nat
  | .request _ => 0
  | .draw count => count

/-- A question to a profile draws ids and does nothing else. -/
theorem exists_act_drawing {Answer : Type} (profile : Profile)
    (question : CallTree → IdSupply → Answer × IdSupply) :
    ∃ count, (profile.drawing question).2 = profile.act (.draw count) := by
  let after := (question profile.tree profile.growing.ids).2
  refine ⟨(after - profile.growing.ids).toNat, ?_⟩
  have moved : profile.growing.ids + .ofNat (after - profile.growing.ids).toNat = after := by
    rw [UInt32.ofNat_toNat, UInt32.add_comm, UInt32.sub_add_cancel]
  simp only [act, moved]
  rfl

/-- The times of the samples. -/
def timestamps (profile : Profile) : List UInt64 :=
  (profile.samples.map (·.timestamp)).toList

/-- One more time is noted. -/
theorem min?_concat (times : List UInt64) (time : UInt64) :
    (times ++ [time]).min? = some (match times.min? with
      | some least => min least time
      | none => time) := by
  cases times with
  | nil => simp
  | cons first rest =>
    simp only [List.cons_append, List.min?_cons', List.foldl_append, List.foldl_cons,
      List.foldl_nil]

theorem max?_concat (times : List UInt64) (time : UInt64) :
    (times ++ [time]).max? = some (match times.max? with
      | some greatest => max greatest time
      | none => time) := by
  cases times with
  | nil => simp
  | cons first rest =>
    simp only [List.cons_append, List.max?_cons', List.foldl_append, List.foldl_cons,
      List.foldl_nil]

/-- What is true of every profile. -/
structure Consistent (profile : Profile) (others : Nat) : Prop where
  accounted : Accounted profile
  linked : profile.tree.Linked
  numbered : profile.growing.Numbered others
  startTime : profile.startTime = profile.timestamps.min?
  endTime : profile.endTime = profile.timestamps.max?

namespace Consistent

variable {profile : Profile} {others : Nat}

theorem new (settings : ProfileSettings) (provider : ScriptProvider) :
    Consistent (new settings provider) 0 where
  accounted := .new settings provider
  linked := GrowingTree.linked_start ..
  numbered := GrowingTree.numbered_fresh ..
  startTime := by simp [timestamps, Profile.new]
  endTime := by simp [timestamps, Profile.new]

theorem of_unsampled (consistent : Consistent profile others) {after : Profile}
    (unsampled : Unsampled 0 profile after) : Consistent after others := by
  obtain ⟨startTime, endTime⟩ := Prod.ext_iff.mp unsampled.times
  refine ⟨consistent.accounted.of_unsampled unsampled, ?_, ?_, ?_, ?_⟩
  · rw [tree, unsampled.growing]
    exact consistent.linked
  · rw [unsampled.growing]
    exact consistent.numbered
  · rw [timestamps, unsampled.samples]
    exact startTime.trans consistent.startTime
  · rw [timestamps, unsampled.samples]
    exact endTime.trans consistent.endTime

theorem recordTick (consistent : Consistent profile others) (tick : Tick) :
    Consistent (profile.recordTick tick).2 others := by
  have accounted := consistent.accounted.recordTick tick
  rcases recordTick_cases profile tick with refused | ⟨-, counted, attribution, unsampled, adds⟩
  · rwa [refused]
  rw [adds] at accounted ⊢
  obtain ⟨startTime, endTime⟩ := Prod.ext_iff.mp unsampled.times
  have growing : counted.growing = profile.growing := unsampled.growing
  have times : (counted.addSample tick attribution).2.timestamps =
      profile.timestamps ++ [tick.timestamp] := by
    have samples : counted.samples = profile.samples := unsampled.samples
    simp [timestamps, addSample, samples]
  obtain ⟨linked, numbered⟩ := GrowingTree.addPath_induction
    (motive := (GrowingTree.Numbered · others))
    (fun label entry _ _ numbered => numbered.addChild _ label entry)
    consistent.linked consistent.numbered attribution.path
  rw [← growing] at linked numbered
  have counts : Reweighted (counted.growing.addPath attribution.path).2.tree
      (counted.addSample tick attribution).2.tree := .recordSample ..
  refine ⟨accounted, linked.reweighted counts, numbered.reweighted counts, ?_, ?_⟩
  · rw [times, min?_concat, ← consistent.startTime]
    exact startTime
  · rw [times, max?_concat, ← consistent.endTime]
    exact endTime

theorem finalize (consistent : Consistent profile others) :
    Consistent profile.finalize.2 others := by
  have accounted := consistent.accounted.finalize
  cases recording : profile.finalized with
  | true => rwa [show profile.finalize.2 = profile by simp [Profile.finalize, recording]]
  | false =>
    obtain ⟨smoothed, sameTimes⟩ := links_smooth profile.tree profile.samples
    have links : Reweighted profile.tree profile.finalize.2.tree := by
      have finalized : profile.finalize.2.tree =
          (smooth profile.tree profile.samples).tree.computeTotals := by
        simp [Profile.finalize, recording, tree]
      exact finalized ▸ smoothed.trans (.computeTotals _)
    have times : profile.finalize.2.timestamps = profile.timestamps := by
      simp [timestamps, Profile.finalize, recording, sameTimes]
    have growing : profile.finalize.2.growing =
        { profile.growing with tree := profile.finalize.2.tree } := by
      simp [Profile.finalize, recording, tree]
    refine ⟨accounted, consistent.linked.reweighted links, ?_, ?_, ?_⟩
    · rw [growing]
      exact consistent.numbered.reweighted links
    · rw [times, ← consistent.startTime]
      simp [Profile.finalize, recording]
    · rw [times, ← consistent.endTime]
      simp [Profile.finalize, recording]

theorem act (consistent : Consistent profile others) (activity : Activity) :
    Consistent (profile.act activity) (others + activity.drawn) := by
  cases activity with
  | request request =>
    rcases perform_cases profile request with unsampled | ⟨tick, rfl⟩ | rfl
    · exact consistent.of_unsampled unsampled
    · exact consistent.recordTick tick
    · exact consistent.finalize
  | draw count =>
    have accounted := consistent.accounted
    exact ⟨⟨accounted.tracked, accounted.total, accounted.byState, accounted.unaccounted_le,
      accounted.root⟩, consistent.linked, consistent.numbered.draw count, consistent.startTime,
      consistent.endTime⟩

/-- Activities in a row. -/
theorem foldl_act (consistent : Consistent profile others) (activities : List Activity) :
    Consistent (activities.foldl Profile.act profile)
      (others + (activities.map Activity.drawn).sum) := by
  induction activities generalizing profile others with
  | nil => exact consistent
  | cons activity activities inductionHypothesis =>
    rw [List.foldl_cons, List.map_cons, List.sum_cons, ← Nat.add_assoc]
    exact inductionHypothesis (consistent.act activity)

end Consistent

/-- What is true of every profile is true of a profile that has been recorded. -/
theorem consistent_recorded (settings : ProfileSettings) (provider : ScriptProvider)
    (activities : List Activity) :
    Consistent (recorded settings provider activities) (activities.map Activity.drawn).sum := by
  have whole := (Consistent.new settings provider).foldl_act activities
  rwa [Nat.zero_add] at whole

end Profile

end JitTrace
