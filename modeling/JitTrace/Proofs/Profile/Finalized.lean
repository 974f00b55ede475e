import JitTrace.CpuProfile.Export
import JitTrace.Proofs.Profile.Answers
import JitTrace.Proofs.Profile.Lineage

/-!
# Finalized profiles

A finalized profile refuses every request that would change it, and names what it refuses.
Each request looks whether the profile is still recorded before it does anything else, so a
refused one leaves nothing behind: no time, no count, no report of unknown code. Finalizing
again is answered with counts of zero. All that can still happen is that trees derived from
the call tree draw ids, and no document depends on how many ids are left.
-/

namespace JitTrace

namespace Profile

/-! ## Replies -/

/-- The reply to a request, without the result of a change that was made. -/
inductive Reply where
  | answered (result : Except Fault Unit)
  | finalized (counts : FinalizeCounts)

/-- The reply of a finalized profile that refuses an operation. -/
def Reply.refused (operation : ProfileOperation) : Reply :=
  .answered (.error (.illegalState (.finalized operation)))

/-- What a profile replies to a request. -/
def reply (profile : Profile) : Request → Reply
  | .finalize => .finalized profile.finalize.1
  | request => .answered (profile.answer request)

/-- What a profile replies to requests that are made one after the other. -/
def replies (profile : Profile) : List Request → List Reply
  | [] => []
  | request :: requests => profile.reply request :: (profile.perform request).replies requests

/-- What a finalized profile replies to a request, whatever it holds. -/
def Request.refusal : Request → Reply
  | .addLibrary .. => .refused .addLibrary
  | .addStaticCode .. => .refused .addStaticCode
  | .addCode .. => .refused .addCode
  | .addFunctionCode .. => .refused .addFunctionCode
  | .moveCode .. => .refused .moveCode
  | .deleteCode .. => .refused .deleteCode
  | .moveFunction .. => .refused .moveFunction
  | .addSourcePositions .. => .refused .addSourcePositions
  | .addDeoptReason .. => .refused .addDeopt
  | .disableOptimization .. => .refused .disableOptimization
  | .addScriptSource .. => .refused .addScript
  | .addScriptDetails .. => .refused .addScript
  | .recordTick .. => .refused .recordTick
  | .finalize => .finalized {}

/-! ## One request -/

variable {profile : Profile}

/-- Whatever a request would change, it is refused first. -/
theorem whileRecording_of_finalized {Result : Type} (finalized : profile.finalized = true)
    (operation : ProfileOperation) (change : Profile → Outcome Result) :
    profile.whileRecording operation change =
      (.error (.illegalState (.finalized operation)), profile) :=
  if_pos finalized

theorem finalize_of_finalized (finalized : profile.finalized = true) :
    profile.finalize = ({}, profile) :=
  if_pos finalized

@[simp] theorem finalized_finalize (profile : Profile) :
    profile.finalize.2.finalized = true := by
  rw [finalize]
  split
  · assumption
  · rfl

/-- A finalized profile is left as it is. -/
theorem perform_of_finalized (finalized : profile.finalized = true) (request : Request) :
    profile.perform request = profile := by
  cases request with
  | finalize => exact congrArg Prod.snd (finalize_of_finalized finalized)
  | _ => exact congrArg Prod.snd (whileRecording_of_finalized finalized _ _)

/-- A finalized profile refuses what would change it. -/
theorem reply_of_finalized (finalized : profile.finalized = true) (request : Request) :
    profile.reply request = request.refusal := by
  have refuses {Result : Type} (operation : ProfileOperation)
      (change : Profile → Outcome Result) :
      Reply.answered ((profile.whileRecording operation change).1.map fun _ => ()) =
        .refused operation := by
    rw [whileRecording_of_finalized finalized]
    rfl
  cases request with
  | finalize => exact congrArg (Reply.finalized ·.1) (finalize_of_finalized finalized)
  | _ => exact refuses _ _

/-- The profile with another supply of ids. -/
def withIds (profile : Profile) (ids : IdSupply) : Profile :=
  { profile with growing := { profile.growing with ids } }

/-- A document shows the ids of nodes, and not those that are left. -/
theorem cpuProfile_withIds (profile : Profile) (ids : IdSupply) :
    (profile.withIds ids).cpuProfile = profile.cpuProfile :=
  rfl

/-! ## Any number of requests -/

theorem foldl_perform_of_finalized (finalized : profile.finalized = true)
    (requests : List Request) : requests.foldl perform profile = profile := by
  induction requests with
  | nil => rfl
  | cons request requests inductionHypothesis =>
    rw [List.foldl_cons, perform_of_finalized finalized, inductionHypothesis]

theorem replies_of_finalized (finalized : profile.finalized = true) (requests : List Request) :
    profile.replies requests = requests.map Request.refusal := by
  induction requests with
  | nil => rfl
  | cons request requests inductionHypothesis =>
    rw [replies, reply_of_finalized finalized, perform_of_finalized finalized,
      inductionHypothesis, List.map_cons]

/-- Whatever happens between questions to a finalized profile, it only loses ids. -/
theorem exists_foldl_act_of_finalized (finalized : profile.finalized = true)
    (activities : List Activity) : ∃ ids, activities.foldl act profile = profile.withIds ids := by
  induction activities generalizing profile with
  | nil => exact ⟨profile.growing.ids, rfl⟩
  | cons activity activities inductionHypothesis =>
    rw [List.foldl_cons]
    cases activity with
    | request request =>
      rw [act, perform_of_finalized finalized]
      exact inductionHypothesis finalized
    | draw count =>
      have drawn : (profile.act (.draw count)).finalized = true := finalized
      obtain ⟨ids, rest⟩ := inductionHypothesis drawn
      exact ⟨ids, rest⟩

/-- To be finalized is final. Every further request is refused, finalizing again counts
nothing, and the profile stays as finalizing left it. Questions in between that draw ids take
nothing from it but ids, and so its document stays the same. -/
theorem finalize_is_final (profile : Profile) (requests : List Request)
    (activities : List Activity) :
    profile.finalize.2.replies requests = requests.map Request.refusal ∧
      requests.foldl perform profile.finalize.2 = profile.finalize.2 ∧
      ∃ ids, activities.foldl act profile.finalize.2 = profile.finalize.2.withIds ids ∧
        (activities.foldl act profile.finalize.2).cpuProfile = profile.finalize.2.cpuProfile := by
  have finalized := finalized_finalize profile
  refine ⟨replies_of_finalized finalized requests,
    foldl_perform_of_finalized finalized requests, ?_⟩
  obtain ⟨ids, only⟩ := exists_foldl_act_of_finalized finalized activities
  exact ⟨ids, only, only ▸ cpuProfile_withIds _ ids⟩

end Profile

end JitTrace
