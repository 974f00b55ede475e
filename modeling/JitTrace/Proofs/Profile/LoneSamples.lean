import JitTrace.Proofs.Profile.Run
import JitTrace.Proofs.Profile.Smoothing

/-!
# Lone samples

Smoothing goes over the samples in place, so it may look at a predecessor that it has
just rewritten. Where the engine's own function is only ever sampled as such, this makes
no difference: a lone sample is a system sample and its neighbours are not, so no two
lone samples are neighbours. What smoothing leaves is then what rewriting all lone
samples at once would leave, judged by the samples as they were recorded.
-/

namespace JitTrace

namespace Profile

/-- The sample at an index. -/
abbrev sampleAt (samples : Array Sample) (index : Nat) : Sample :=
  samples.getD index default

/-- The sample at an index is lone: it has a neighbour on either side and fell on the
engine's own function, both neighbours fell on code, and both below one outermost call. -/
def Lone (tree : CallTree) (samples : Array Sample) (index : Nat) : Prop :=
  0 < index ∧ index + 1 < samples.size ∧
    tree.findChild? 0 PseudoFunction.program.label = some (sampleAt samples index).node ∧
    (sampleAt samples (index - 1)).system = false ∧
    (sampleAt samples (index + 1)).system = false ∧
    ∃ outermost ∈ tree.topLevelAncestor? (sampleAt samples (index - 1)).node,
      tree.topLevelAncestor? (sampleAt samples (index + 1)).node = some outermost

instance (tree : CallTree) (samples : Array Sample) : DecidablePred (Lone tree samples) :=
  fun _ => inferInstanceAs (Decidable (_ ∧ _))

/-- The sample at an index in the place of its predecessor. -/
def taken (samples : Array Sample) (index : Nat) : Sample :=
  { sampleAt samples index with
    node := (sampleAt samples (index - 1)).node
    line := (sampleAt samples (index - 1)).line
    system := false }

/-- The samples with every lone one given to its predecessor, all at once. -/
def absorbed (tree : CallTree) (samples : Array Sample) : Array Sample :=
  samples.mapIdx fun index sample =>
    if Lone tree samples index then taken samples index else sample

variable {tree : CallTree} {samples : Array Sample}

theorem sampleAt_mem {index : Nat} (inside : index < samples.size) :
    sampleAt samples index ∈ samples := by
  rw [sampleAt, Smoothing.getD_eq_getElem inside]
  exact Array.getElem_mem inside

theorem sampleAt_absorbed (tree : CallTree) (samples : Array Sample) (index : Nat) :
    sampleAt (absorbed tree samples) index =
      if Lone tree samples index then taken samples index else sampleAt samples index := by
  by_cases inside : index < samples.size
  · simp [sampleAt, absorbed, Array.getD_eq_getD_getElem?, inside]
  · have notLone : ¬Lone tree samples index := fun lone => inside (by have := lone.2.1; omega)
    simp [sampleAt, absorbed, Array.getD_eq_getD_getElem?, inside, notLone]

/-- Samples on the engine's own function are system samples. -/
def Attributed (tree : CallTree) (samples : Array Sample) : Prop :=
  ∀ sample ∈ samples,
    tree.findChild? 0 PseudoFunction.program.label = some sample.node → sample.system = true

namespace Attributed

variable {index : Nat}

/-- A lone sample is a system sample. -/
theorem system_of_lone (attributed : Attributed tree samples) (lone : Lone tree samples index) :
    (sampleAt samples index).system = true :=
  attributed _ (sampleAt_mem (Nat.lt_of_succ_lt lone.2.1)) lone.2.2.1

/-- No two lone samples are neighbours. -/
theorem not_lone_succ (attributed : Attributed tree samples) (lone : Lone tree samples index) :
    ¬Lone tree samples (index + 1) := by
  intro next
  have code : (sampleAt samples index).system = false := next.2.2.2.1
  exact Bool.false_ne_true (code.symm.trans (attributed.system_of_lone lone))

/-- Once the lone samples are given away, none is lone. -/
theorem not_lone_absorbed (attributed : Attributed tree samples) (index : Nat) :
    ¬Lone tree (absorbed tree samples) index := by
  rintro ⟨positive, within, onEngine, codeBefore, codeBehind, together⟩
  have size : (absorbed tree samples).size = samples.size := Array.size_mapIdx
  rw [size] at within
  simp only [sampleAt_absorbed] at onEngine codeBefore codeBehind together
  by_cases given : Lone tree samples index
  · rw [if_pos given] at onEngine
    -- The place it was given is its predecessor's, which fell on code.
    have system := attributed _ (sampleAt_mem (by omega : index - 1 < _)) onEngine
    exact Bool.false_ne_true (given.2.2.2.1.symm.trans system)
  · rw [if_neg given] at onEngine
    have system := attributed _ (sampleAt_mem (by omega : index < _)) onEngine
    -- Neighbours of a system sample were not given away.
    have keptBefore : ¬Lone tree samples (index - 1) := by
      intro lone
      have code := lone.2.2.2.2.1
      rw [Nat.sub_add_cancel positive] at code
      exact Bool.false_ne_true (code.symm.trans system)
    have keptBehind : ¬Lone tree samples (index + 1) := fun lone =>
      Bool.false_ne_true (lone.2.2.2.1.symm.trans system)
    rw [if_neg keptBefore] at codeBefore together
    rw [if_neg keptBehind] at codeBehind together
    exact given ⟨positive, within, onEngine, codeBefore, codeBehind, together⟩

end Attributed

/-- The test of a smoothing step tells whether the sample is lone. -/
theorem isLone_iff {program : NodeIndex} {index : Nat}
    (found : tree.findChild? 0 PseudoFunction.program.label = some program)
    (positive : 0 < index) (within : index + 1 < samples.size) :
    isLone tree program (sampleAt samples (index - 1)) (sampleAt samples index)
      (sampleAt samples (index + 1)) = true ↔ Lone tree samples index := by
  simp only [isLone, Lone, found, Option.some.injEq, positive, within, true_and, Bool.and_eq_true,
    beq_iff_eq, Bool.not_eq_true', Option.isSome_iff_exists, Option.mem_def, and_assoc,
    @eq_comm _ program]
  grind

namespace Smoothing

/-- Smoothing that has looked at the first samples: the tree has its links, and the lone
ones among those samples have been given away. -/
structure Matches (tree : CallTree) (samples : Array Sample) (steps : Nat)
    (smoothing : Smoothing) : Prop where
  links : CallTree.Reweighted tree smoothing.tree
  size : smoothing.samples.size = samples.size
  sample : ∀ index, sampleAt smoothing.samples index =
    if index ≤ steps then sampleAt (absorbed tree samples) index else sampleAt samples index
  moved : smoothing.moved = ((Finset.range (steps + 1)).filter (Lone tree samples)).card

/-- As long as no lone sample has been looked at, nothing has happened. -/
theorem Matches.of_not_lone {steps : Nat}
    (none : ∀ index ≤ steps, ¬Lone tree samples index) :
    Matches tree samples steps { tree, samples } where
  links := .refl tree
  size := rfl
  sample index := by
    by_cases within : index ≤ steps
    · rw [if_pos within, sampleAt_absorbed, if_neg (none index within)]
    · rw [if_neg within]
  moved := by
    rw [eq_comm, Finset.card_eq_zero, Finset.filter_eq_empty_iff]
    intro index inside
    exact none index (Finset.mem_range_succ_iff.mp inside)

variable {program : NodeIndex} {steps : Nat} {smoothing : Smoothing}

theorem step_succ (smoothing : Smoothing) (program : NodeIndex) (steps : Nat) :
    smoothing.step program (steps + 1) =
      if isLone smoothing.tree program (sampleAt smoothing.samples steps)
        (sampleAt smoothing.samples (steps + 1)) (sampleAt smoothing.samples (steps + 2)) then
        { tree := smoothing.tree.moveSample (sampleAt smoothing.samples (steps + 1)).node
            (sampleAt smoothing.samples (steps + 1)).line (sampleAt smoothing.samples steps).node
            (sampleAt smoothing.samples steps).line
          samples := smoothing.samples.setIfInBounds (steps + 1)
            (taken smoothing.samples (steps + 1))
          moved := smoothing.moved + 1 }
      else smoothing := rfl

namespace Matches

/-- The samples behind have not been looked at. -/
theorem sample_beyond (matched : Matches tree samples steps smoothing) {index : Nat}
    (beyond : steps < index) : sampleAt smoothing.samples index = sampleAt samples index := by
  rw [matched.sample, if_neg (Nat.not_le.mpr beyond)]

/-- The last sample looked at is as it was unless it was lone. -/
theorem sample_kept (matched : Matches tree samples steps smoothing)
    (kept : ¬Lone tree samples steps) :
    sampleAt smoothing.samples steps = sampleAt samples steps := by
  rw [matched.sample, if_pos (Nat.le_refl _), sampleAt_absorbed, if_neg kept]

/-- The next sample is found to be lone exactly when it is so among the samples as they
were: had its predecessor been given away, neither of the two tests would hold. -/
theorem isLone_iff (matched : Matches tree samples steps smoothing)
    (attributed : Attributed tree samples)
    (found : tree.findChild? 0 PseudoFunction.program.label = some program)
    (within : steps + 2 < samples.size) :
    isLone smoothing.tree program (sampleAt smoothing.samples steps)
        (sampleAt smoothing.samples (steps + 1)) (sampleAt smoothing.samples (steps + 2)) = true ↔
      Lone tree samples (steps + 1) := by
  have current := matched.sample_beyond (Nat.lt_add_one steps)
  have next := matched.sample_beyond (Nat.lt_add_of_pos_right (n := steps) Nat.two_pos)
  rw [current, next]
  by_cases given : Lone tree samples steps
  · refine iff_of_false (fun lone => ?_) (attributed.not_lone_succ given)
    simp only [isLone, Bool.and_eq_true, beq_iff_eq] at lone
    have onEngine := found.trans (congrArg some lone.1.1.1.1.symm)
    have system := attributed _ (sampleAt_mem (by omega)) onEngine
    exact Bool.false_ne_true (given.2.2.2.2.1.symm.trans system)
  · rw [matched.sample_kept given, ← Profile.isLone_iff found (Nat.succ_pos steps) within]
    simp only [isLone, matched.links.topLevelAncestor?]
    rfl

/-- One more index has been looked at. -/
theorem sample_succ (matched : Matches tree samples steps smoothing) {index : Nat}
    (other : index ≠ steps + 1) :
    sampleAt smoothing.samples index =
      if index ≤ steps + 1 then sampleAt (absorbed tree samples) index
      else sampleAt samples index := by
  rw [matched.sample]
  simp only [Nat.le_succ_iff, other, or_false]

/-- A lone sample is given away. -/
theorem give (matched : Matches tree samples steps smoothing)
    (lone : Lone tree samples (steps + 1)) (source target : NodeIndex)
    (sourceLine targetLine : Option Nat) :
    Matches tree samples (steps + 1)
      { tree := smoothing.tree.moveSample source sourceLine target targetLine
        samples := smoothing.samples.setIfInBounds (steps + 1) (taken samples (steps + 1))
        moved := smoothing.moved + 1 } where
  links := matched.links.trans (.moveSample ..)
  size := Array.size_setIfInBounds.trans matched.size
  sample index := by
    by_cases here : index = steps + 1
    · have inside : steps + 1 < smoothing.samples.size := by
        rw [matched.size]
        exact Nat.lt_of_succ_lt lone.2.1
      rw [here, if_pos (Nat.le_refl _), sampleAt_absorbed, if_pos lone]
      simp [sampleAt, Array.getD_eq_getD_getElem?, inside]
    · rw [← matched.sample_succ here]
      simp [sampleAt, Array.getD_eq_getD_getElem?,
        Array.getElem?_setIfInBounds_ne (Ne.symm here)]
  moved := by
    rw [Finset.range_add_one, Finset.filter_insert, if_pos lone,
      Finset.card_insert_of_notMem (by simp), matched.moved]

/-- Any other sample is kept. -/
theorem keep (matched : Matches tree samples steps smoothing)
    (kept : ¬Lone tree samples (steps + 1)) : Matches tree samples (steps + 1) smoothing where
  links := matched.links
  size := matched.size
  sample index := by
    by_cases here : index = steps + 1
    · rw [here, if_pos (Nat.le_refl _), sampleAt_absorbed, if_neg kept,
        matched.sample_beyond (Nat.lt_succ_self steps)]
    · exact matched.sample_succ here
  moved := by rw [Finset.range_add_one, Finset.filter_insert, if_neg kept, matched.moved]

/-- Looking at the next sample gives it away exactly when it is lone. -/
theorem step (matched : Matches tree samples steps smoothing)
    (attributed : Attributed tree samples)
    (found : tree.findChild? 0 PseudoFunction.program.label = some program)
    (within : steps + 2 < samples.size) :
    Matches tree samples (steps + 1) (smoothing.step program (steps + 1)) := by
  have tests := matched.isLone_iff attributed found within
  rw [step_succ]
  by_cases lone : Lone tree samples (steps + 1)
  · have kept : ¬Lone tree samples steps := fun given => attributed.not_lone_succ given lone
    have same : taken smoothing.samples (steps + 1) = taken samples (steps + 1) := by
      simp only [taken, Nat.add_sub_cancel, matched.sample_kept kept,
        matched.sample_beyond (Nat.lt_add_one steps)]
    rw [if_pos (tests.mpr lone), same]
    exact matched.give lone _ _ _ _
  · rw [if_neg (mt tests.mp lone)]
    exact matched.keep lone

end Matches

/-- Looking at sample after sample gives away the lone ones. -/
theorem matches_after (attributed : Attributed tree samples)
    (found : tree.findChild? 0 PseudoFunction.program.label = some program)
    (within : steps ≤ samples.size - 2) :
    Matches tree samples steps (after program tree samples steps) := by
  induction steps with
  | zero =>
    refine .of_not_lone fun index first lone => ?_
    exact Nat.not_lt.mpr first lone.1
  | succ steps inductionHypothesis =>
    have before := inductionHypothesis (by omega)
    rw [after_succ]
    exact before.step attributed found (by omega)

/-- Where no sample is lone, smoothing does nothing. -/
theorem after_of_not_lone (none : ∀ index, ¬Lone tree samples index)
    (found : tree.findChild? 0 PseudoFunction.program.label = some program)
    (within : steps ≤ samples.size - 2) :
    after program tree samples steps = { tree, samples } := by
  induction steps with
  | zero => rfl
  | succ steps inductionHypothesis =>
    have test := mt (isLone_iff found (Nat.succ_pos steps) (by omega)).mp (none (steps + 1))
    rw [after_succ, inductionHypothesis (by omega), step_succ]
    exact if_neg test

end Smoothing

/-- Once every sample with neighbours has been looked at, all lone ones are given away. -/
theorem Smoothing.Matches.samples_eq {smoothing : Smoothing}
    (matched : Matches tree samples (samples.size - 2) smoothing) :
    smoothing.samples = absorbed tree samples := by
  have size : (absorbed tree samples).size = samples.size := Array.size_mapIdx
  refine Array.ext (matched.size.trans size.symm) fun index inside insideAbsorbed => ?_
  have same : sampleAt smoothing.samples index = sampleAt (absorbed tree samples) index := by
    by_cases seen : index ≤ samples.size - 2
    · rw [matched.sample, if_pos seen]
    · have notLone : ¬Lone tree samples index := fun lone => by have := lone.2.1; omega
      rw [matched.sample, if_neg seen, sampleAt_absorbed, if_neg notLone]
  rwa [sampleAt, sampleAt, getD_eq_getElem inside, getD_eq_getElem insideAbsorbed] at same

/-- The samples moved are then the lone ones. -/
theorem Smoothing.Matches.moved_eq {smoothing : Smoothing}
    (matched : Matches tree samples (samples.size - 2) smoothing) :
    smoothing.moved = ((Finset.range samples.size).filter (Lone tree samples)).card := by
  rw [matched.moved]
  congr 1
  ext index
  simp only [Finset.mem_filter, Finset.mem_range]
  refine and_congr_left fun lone => ?_
  have := lone.2.1
  omega

/-- Smoothing gives away all lone samples. -/
theorem Attributed.matches_smooth (attributed : Attributed tree samples) :
    Smoothing.Matches tree samples (samples.size - 2) (smooth tree samples) := by
  cases found : tree.findChild? 0 PseudoFunction.program.label with
  | none =>
    simp only [smooth, found]
    refine .of_not_lone fun index _ lone => ?_
    exact Option.some_ne_none _ (lone.2.2.1.symm.trans found)
  | some program =>
    rw [smooth_eq_after found]
    exact Smoothing.matches_after attributed found (Nat.le_refl _)

/-- Where no sample is lone, smoothing does nothing. -/
theorem smooth_of_not_lone (none : ∀ index, ¬Lone tree samples index) :
    smooth tree samples = { tree, samples } := by
  cases found : tree.findChild? 0 PseudoFunction.program.label with
  | none => simp only [smooth, found]
  | some program =>
    rw [smooth_eq_after found]
    exact Smoothing.after_of_not_lone none found (Nat.le_refl _)

theorem Lone.reweighted {after : CallTree} (same : CallTree.Reweighted tree after) (index : Nat) :
    Lone after samples index ↔ Lone tree samples index := by
  simp only [Lone, same.topLevelAncestor?, same.findChild?]

/-- A sample changes when it is given away. -/
theorem Attributed.absorbed_ne_iff (attributed : Attributed tree samples) (index : Nat) :
    (absorbed tree samples)[index]? ≠ samples[index]? ↔ Lone tree samples index := by
  by_cases inside : index < samples.size
  · by_cases lone : Lone tree samples index
    · have system := attributed.system_of_lone lone
      rw [sampleAt, Smoothing.getD_eq_getElem inside] at system
      simp only [absorbed, Array.getElem?_mapIdx, inside, Array.getElem?_eq_getElem, lone]
      refine iff_of_true (fun same => ?_) trivial
      have unchanged := congrArg (Option.map Sample.system) same
      simp [taken, system] at unchanged
    · simp [absorbed, inside, lone]
  · have notLone : ¬Lone tree samples index := fun lone => inside (by have := lone.2.1; omega)
    simp [absorbed, inside, notLone]

/-- Finalizing gives every lone sample of a profile to its predecessor, as judged by the
samples recorded, and changes no other sample. Smoothing the outcome once more does
nothing. -/
theorem finalize_at_once (profile : Profile) (recording : profile.finalized = false)
    (attributed : Attributed profile.tree profile.samples) :
    profile.finalize.2.samples = absorbed profile.tree profile.samples ∧
      (∀ index, profile.finalize.2.samples[index]? ≠ profile.samples[index]? ↔
        Lone profile.tree profile.samples index) ∧
      profile.finalize.1.smoothedSamples =
        ((Finset.range profile.samples.size).filter (Lone profile.tree profile.samples)).card ∧
      smooth profile.finalize.2.tree profile.finalize.2.samples =
        { tree := profile.finalize.2.tree, samples := profile.finalize.2.samples } := by
  have matched := attributed.matches_smooth
  have samples : profile.finalize.2.samples = absorbed profile.tree profile.samples := by
    rw [← matched.samples_eq]
    simp [finalize, recording]
  have moved : profile.finalize.1.smoothedSamples =
      (smooth profile.tree profile.samples).moved := by
    simp [finalize, recording]
  have tree : profile.finalize.2.tree =
      (smooth profile.tree profile.samples).tree.computeTotals := by
    simp [finalize, recording, Profile.tree]
  rw [samples, moved, tree]
  refine ⟨rfl, attributed.absorbed_ne_iff, matched.moved_eq,
    smooth_of_not_lone fun index lone => ?_⟩
  have links := matched.links.trans (.computeTotals _)
  exact attributed.not_lone_absorbed index ((Lone.reweighted links index).mp lone)

/-- A tick without callers. -/
def bareTick (programCounter timestamp : UInt64) : Tick where
  programCounter
  timestamp
  inCallback := false
  callbackOrTop := 0
  vmState := .js
  stack := []

/-- Library code sampled with one sample of the engine in between, then with two in a
row. -/
def interrupted : Profile :=
  run {} ScriptProvider.none
    [.addLibrary "lib" 0x1000 0x2000, .recordTick (bareTick 0x1010 10),
      .recordTick (bareTick 0x10 20), .recordTick (bareTick 0x1020 30),
      .recordTick (bareTick 0x10 40), .recordTick (bareTick 0x10 50),
      .recordTick (bareTick 0x1030 60)]

/-- The one in between is given away, and it alone. -/
theorem finalize_at_once_interrupted :
    interrupted.finalized = false ∧ Attributed interrupted.tree interrupted.samples ∧
      interrupted.finalize.2.samples[1]? ≠ interrupted.samples[1]? ∧
      interrupted.finalize.1.smoothedSamples = 1 := by
  have recording : interrupted.finalized = false := by decide +kernel
  have attributed : Attributed interrupted.tree interrupted.samples := by
    unfold Attributed
    decide +kernel
  obtain ⟨-, changed, moved, -⟩ := finalize_at_once interrupted recording attributed
  exact ⟨recording, attributed, (changed 1).mpr (by decide +kernel),
    moved.trans (by decide +kernel)⟩

end Profile

end JitTrace
