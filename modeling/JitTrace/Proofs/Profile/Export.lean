import JitTrace.CpuProfile.Export
import JitTrace.Proofs.CallTree.PreOrder
import JitTrace.Proofs.Profile.Lineage
import Mathlib.Algebra.Ring.Int.Defs

/-!
# Exported profiles

The CPU profile document of a finalized profile lists its call tree in pre-order and its
samples in the order of the log. Times are words of 64 bits and their differences are
signed; for times of 63 bits they are exact, however the samples are ordered. Ids are words
of 32 bits, so they tell nodes apart as long as the lineage has drawn no more than that. Then
the supply comes round, and nodes share their ids.
-/

namespace JitTrace.Profile

/-! ## Times -/

theorem toInt_toInt64 {time : UInt64} (fits : time.toNat < 2 ^ 63) :
    time.toInt64.toInt = time.toNat := by
  have doubled : 2 * time.toBitVec.toNat < 2 ^ 64 := by
    rw [UInt64.toNat_toBitVec]
    omega
  exact BitVec.toInt_eq_toNat_of_lt doubled

/-- The difference of times of 63 bits fits. -/
theorem toInt_sub_toInt64 {later earlier : UInt64} (laterFits : later.toNat < 2 ^ 63)
    (earlierFits : earlier.toNat < 2 ^ 63) :
    (later.toInt64 - earlier.toInt64).toInt = (later.toNat : Int) - earlier.toNat := by
  rw [Int64.toInt_sub, toInt_toInt64 laterFits, toInt_toInt64 earlierFits]
  refine Int.bmod_eq_of_le ?_ ?_ <;> omega

section Deltas

variable {previous : UInt64} {samples : List Sample}

theorem length_deltasFrom (previous : UInt64) (samples : List Sample) :
    (deltasFrom previous samples).length = samples.length := by
  induction samples generalizing previous with
  | nil => rfl
  | cons sample samples inductionHypothesis =>
    rw [deltasFrom, List.length_cons, inductionHypothesis, List.length_cons]

/-- No difference overflows. -/
theorem toInt_deltasFrom (previousFits : previous.toNat < 2 ^ 63)
    (fit : ∀ sample ∈ samples, sample.timestamp.toNat < 2 ^ 63) :
    (deltasFrom previous samples).map (·.toInt) =
      List.zipWith (fun later earlier : UInt64 => (later.toNat : Int) - earlier.toNat)
        (samples.map (·.timestamp)) (previous :: samples.map (·.timestamp)) := by
  induction samples generalizing previous with
  | nil => rfl
  | cons sample samples inductionHypothesis =>
    have sampleFits := fit sample List.mem_cons_self
    have others := inductionHypothesis sampleFits fun other inside =>
      fit other (List.mem_cons_of_mem sample inside)
    simp only [deltasFrom, List.map_cons, List.zipWith_cons_cons, others,
      toInt_sub_toInt64 sampleFits previousFits]

/-- The first differences add up to the time of the last sample among them. -/
theorem add_sum_deltasFrom (previousFits : previous.toNat < 2 ^ 63)
    (fit : ∀ sample ∈ samples, sample.timestamp.toNat < 2 ^ 63) {index : Nat}
    (inside : index < samples.length) :
    (previous.toNat : Int) +
        (((deltasFrom previous samples).take (index + 1)).map (·.toInt)).sum =
      samples[index].timestamp.toNat := by
  induction samples generalizing previous index with
  | nil => exact absurd inside (Nat.not_lt_zero index)
  | cons sample samples inductionHypothesis =>
    have sampleFits := fit sample List.mem_cons_self
    rw [deltasFrom, List.take_succ_cons, List.map_cons, List.sum_cons,
      toInt_sub_toInt64 sampleFits previousFits]
    cases index with
    | zero => simp
    | succ index =>
      have others := inductionHypothesis sampleFits
        (fun other isOther => fit other (List.mem_cons_of_mem sample isOther))
        (Nat.lt_of_succ_lt_succ inside)
      rw [List.getElem_cons_succ, ← others]
      omega

end Deltas

/-! ## Documents -/

/-- What the document of a profile says about its call tree and its samples. -/
structure Exported (profile : Profile) (document : CpuProfile) : Prop where
  nodes : document.nodes = (profile.tree.below 0).map profile.exportNode
  /-- The nodes below a node are that node, and then those below its children in order. -/
  preOrder : ∀ index, profile.tree.below index =
    index :: (profile.tree.node index).children.toList.flatMap profile.tree.below
  everyNode : (profile.tree.below 0).Perm (List.range profile.tree.size)
  /-- The lists of children name every node but the first once. -/
  children : (document.nodes.flatMap (·.children)).Perm (document.nodes.tail.map (·.id))
  samples_length : document.samples.length = profile.samples.size
  timeDeltas_length : document.timeDeltas.length = profile.samples.size
  sampled : ∀ id ∈ document.samples, ∃ node ∈ document.nodes, node.id = id
  hitCount : ∀ index, (profile.exportNode index).hitCount =
    .ofNat (profile.samples.countP fun sample => sample.node = index)
  startTime : document.startTime = profile.timestamps.min?.getD 0
  endTime : document.endTime = profile.timestamps.max?.getD 0
  /-- The differences are those of integers. -/
  timeDeltas : document.timeDeltas.map (·.toInt) =
    List.zipWith (fun later earlier : UInt64 => (later.toNat : Int) - earlier.toNat)
      profile.timestamps (document.startTime :: profile.timestamps)
  sum_timeDeltas : ∀ index (inside : index < profile.timestamps.length),
    (document.startTime.toNat : Int) +
        ((document.timeDeltas.take (index + 1)).map (·.toInt)).sum =
      profile.timestamps[index].toNat

/-- The ids of a document tell its nodes apart. -/
structure Identified (document : CpuProfile) : Prop where
  distinct : (document.nodes.map (·.id)).Nodup
  /-- A node is hit as often as its id is among the samples. -/
  hitCount : ∀ node ∈ document.nodes, node.hitCount = .ofNat (document.samples.count node.id)

namespace Consistent

variable {profile : Profile} {others : Nat}

/-- The first time noted fits when all times do. -/
theorem startTime_fits (consistent : Consistent profile others)
    (fit : ∀ time ∈ profile.timestamps, time.toNat < 2 ^ 63) :
    (profile.startTime.getD 0).toNat < 2 ^ 63 := by
  rw [consistent.startTime]
  cases least : profile.timestamps.min? with
  | none => decide
  | some time => exact fit time (List.min?_mem least)

/-- The lists of children, as ids. -/
theorem children_perm (consistent : Consistent profile others) :
    (((profile.tree.below 0).map profile.exportNode).flatMap (·.children)).Perm
      ((((profile.tree.below 0).map profile.exportNode).tail).map (·.id)) := by
  have links := (consistent.linked.flatMap_children_perm 0).map fun child =>
    (profile.tree.node child).id
  rw [List.map_flatMap] at links
  rw [List.flatMap_map, ← List.map_tail, List.map_map]
  exact links

theorem hitCount_exportNode (consistent : Consistent profile others) (index : NodeIndex) :
    (profile.exportNode index).hitCount =
      .ofNat (profile.samples.countP fun sample => sample.node = index) :=
  congrArg UInt64.ofNat (consistent.accounted.tracked.weights index)

/-- The last time noted stands for no time when there is none. -/
theorem endTime_getD (consistent : Consistent profile others) :
    profile.endTime.getD (profile.startTime.getD 0) = profile.timestamps.max?.getD 0 := by
  rw [consistent.startTime, consistent.endTime]
  cases greatest : profile.timestamps.max? with
  | none =>
    rw [List.max?_eq_none_iff] at greatest
    simp [greatest]
  | some time => rfl

/-- The ids of the document are those of the tree. -/
theorem nodup_ids (consistent : Consistent profile others)
    (enough : profile.tree.size + others ≤ 2 ^ 32) :
    (((profile.tree.below 0).map profile.exportNode).map (·.id)).Nodup := by
  have listed : (((profile.tree.below 0).map profile.exportNode).map (·.id)).Perm
      profile.tree.ids := by
    rw [List.map_map]
    exact consistent.linked.below_root_perm.map _
  exact listed.nodup_iff.mpr (consistent.numbered.nodup_ids enough)

/-- When ids are distinct, the samples of a node are those with its id. -/
theorem count_ids (consistent : Consistent profile others)
    (enough : profile.tree.size + others ≤ 2 ^ 32) {index : NodeIndex}
    (inside : index < profile.tree.size) :
    (profile.samples.toList.map fun sample => (profile.tree.node sample.node).id).count
        (profile.tree.node index).id =
      profile.samples.countP fun sample => sample.node = index := by
  have distinct := consistent.numbered.nodup_ids enough
  rw [List.count, List.countP_map, ← Array.countP_toList]
  refine List.countP_congr fun sample isSample => ?_
  have sampleInside := consistent.accounted.tracked.inside sample (Array.mem_toList_iff.mp isSample)
  simp only [Function.comp_apply, beq_iff_eq, decide_eq_true_eq]
  refine ⟨fun same => ?_, fun same => by rw [same]⟩
  exact List.inj_on_of_nodup_map distinct (List.mem_range.mpr sampleInside)
    (List.mem_range.mpr inside) same

/-- The document of a finalized profile. -/
theorem exists_exported (consistent : Consistent profile others)
    (finalized : profile.finalized = true)
    (fit : ∀ time ∈ profile.timestamps, time.toNat < 2 ^ 63) :
    ∃ document, profile.cpuProfile = .ok document ∧ Exported profile document ∧
      (profile.tree.size + others ≤ 2 ^ 32 → Identified document) := by
  have start := consistent.startTime_fits fit
  have samplesFit : ∀ sample ∈ profile.samples.toList, sample.timestamp.toNat < 2 ^ 63 := by
    intro sample isSample
    refine fit _ ?_
    rw [timestamps, Array.toList_map]
    exact List.mem_map_of_mem isSample
  refine ⟨_, by rw [cpuProfile, finalized]; rfl, ?_, ?_⟩
  · exact {
      nodes := by rw [consistent.linked.preOrder_eq]
      preOrder := consistent.linked.below_eq
      everyNode := consistent.linked.below_root_perm
      children := by
        rw [consistent.linked.preOrder_eq]
        exact consistent.children_perm
      samples_length := by simp
      timeDeltas_length := by simp [length_deltasFrom]
      sampled := by
        intro id isSampled
        obtain ⟨sample, isSample, rfl⟩ := List.mem_map.mp isSampled
        have inside := consistent.accounted.tracked.inside sample (Array.mem_toList_iff.mp isSample)
        have listed : sample.node ∈ profile.tree.preOrder := by
          rw [consistent.linked.preOrder_eq, consistent.linked.below_root_perm.mem_iff]
          exact List.mem_range.mpr inside
        exact ⟨_, List.mem_map_of_mem listed, rfl⟩
      hitCount := consistent.hitCount_exportNode
      startTime := by rw [consistent.startTime]
      endTime := consistent.endTime_getD
      timeDeltas := by
        rw [timestamps, Array.toList_map]
        exact toInt_deltasFrom start samplesFit
      sum_timeDeltas := by
        intro index inside
        simp only [timestamps, Array.toList_map, List.getElem_map, List.length_map] at inside ⊢
        exact add_sum_deltasFrom start samplesFit inside }
  · intro enough
    rw [consistent.linked.preOrder_eq]
    refine ⟨consistent.nodup_ids enough, fun node isNode => ?_⟩
    obtain ⟨index, isBelow, rfl⟩ := List.mem_map.mp isNode
    have inside := List.mem_range.mp (consistent.linked.below_root_perm.mem_iff.mp isBelow)
    rw [consistent.hitCount_exportNode]
    exact congrArg UInt64.ofNat (consistent.count_ids enough inside).symm

end Consistent

/-- However a profile has been recorded, once it is finalized it has a document, which
lists every node of the call tree in pre-order and tells the times of its samples exactly.
The supply of ids holds 2 ^ 32 of them, and while it lasts the ids of the document tell its
nodes apart. -/
theorem exists_document (settings : ProfileSettings) (provider : ScriptProvider)
    (activities : List Activity)
    (finalized : (recorded settings provider activities).finalized = true)
    (fit : ∀ time ∈ (recorded settings provider activities).timestamps, time.toNat < 2 ^ 63) :
    ∃ document, (recorded settings provider activities).cpuProfile = .ok document ∧
      Exported (recorded settings provider activities) document ∧
      ((recorded settings provider activities).tree.size +
          (activities.map Activity.drawn).sum ≤ 2 ^ 32 → Identified document) :=
  (consistent_recorded settings provider activities).exists_exported finalized fit

/-- Ticks out of order, between which another tree draws ids. -/
def disordered : List Activity :=
  [.request (.addLibrary "lib" 0x1000 0x2000),
    .request (.recordTick
      { programCounter := 0x1010, timestamp := 30, inCallback := false, callbackOrTop := 0
        vmState := .js, stack := [] }),
    .draw 5,
    .request (.recordTick
      { programCounter := 0x10, timestamp := 10, inCallback := false, callbackOrTop := 0
        vmState := .gc, stack := [] }),
    .request .finalize]

/-- Its document has the ids and the differences to be expected. -/
theorem exists_document_disordered :
    (recorded {} ScriptProvider.none disordered).finalized = true ∧
      (∀ time ∈ (recorded {} ScriptProvider.none disordered).timestamps, time.toNat < 2 ^ 63) ∧
      ∃ document, (recorded {} ScriptProvider.none disordered).cpuProfile = .ok document ∧
        Exported (recorded {} ScriptProvider.none disordered) document ∧ Identified document := by
  have finalized : (recorded {} ScriptProvider.none disordered).finalized = true := by
    decide +kernel
  have times : (recorded {} ScriptProvider.none disordered).timestamps = [30, 10] := by
    decide +kernel
  have fit : ∀ time ∈ (recorded {} ScriptProvider.none disordered).timestamps,
      time.toNat < 2 ^ 63 := by
    rw [times]
    simp
  have enough : (recorded {} ScriptProvider.none disordered).tree.size +
      (disordered.map Activity.drawn).sum ≤ 2 ^ 32 := by
    decide +kernel
  obtain ⟨document, exports, exported, identified⟩ :=
    exists_document {} ScriptProvider.none disordered finalized fit
  exact ⟨finalized, fit, document, exports, exported, identified enough⟩

/-- Ticks on unknown code, between which other trees draw so many ids that the supply comes
round. -/
def wrapped : List Activity :=
  [.request (.recordTick
      { programCounter := 0x10, timestamp := 10, inCallback := false, callbackOrTop := 0
        vmState := .js, stack := [] }),
    .draw (2 ^ 32 - 1),
    .request (.recordTick
      { programCounter := 0x10, timestamp := 20, inCallback := false, callbackOrTop := 0
        vmState := .gc, stack := [] }),
    .request .finalize]

/-- The nodes of these ticks have one id. Each is hit once, and the id is sampled twice. -/
theorem not_identified_wrapped :
    (recorded {} ScriptProvider.none wrapped).finalized = true ∧
      (∀ time ∈ (recorded {} ScriptProvider.none wrapped).timestamps, time.toNat < 2 ^ 63) ∧
      ∃ document, (recorded {} ScriptProvider.none wrapped).cpuProfile = .ok document ∧
        ¬(document.nodes.map (·.id)).Nodup ∧
        ¬∀ node ∈ document.nodes, node.hitCount = .ofNat (document.samples.count node.id) := by
  have finalized : (recorded {} ScriptProvider.none wrapped).finalized = true := by
    decide +kernel
  have times : (recorded {} ScriptProvider.none wrapped).timestamps = [10, 20] := by
    decide +kernel
  refine ⟨finalized, by simp [times], _, by rw [cpuProfile, finalized]; rfl, ?_⟩
  decide +kernel

end JitTrace.Profile
