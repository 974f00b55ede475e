import JitTrace.Proofs.CallTree.Run
import JitTrace.Proofs.Profile.Conservation
import JitTrace.Proofs.Profile.PseudoFunctions

/-!
# Attribution of ticks

The sample of a tick goes to the node that the labels of its calls lead to, and a tick
without calls to the function that stands for the state of the engine. That there is such
a node is a fact about call trees: the tree of a profile is built by adding paths and by
recording and moving samples, so it arises like any other call tree.
-/

namespace JitTrace

open CallTree (Reweighted)
open GrowingTree (Arises)

namespace Profile

variable {profile : Profile}

/-! ## The call tree -/

theorem arises_smooth {growing : GrowingTree} (arises : Arises .nested growing)
    (samples : Array Sample) :
    Arises .nested { growing with tree := (smooth growing.tree samples).tree } := by
  cases found : growing.tree.findChild? 0 PseudoFunction.program.label with
  | none =>
    simp only [smooth, found]
    exact arises
  | some program =>
    rw [smooth_eq_after found]
    induction samples.size - 2 with
    | zero => exact arises
    | succ steps inductionHypothesis =>
      rw [Smoothing.after_succ, Smoothing.step]
      split
      · exact inductionHypothesis.moveSample ..
      · exact inductionHypothesis

theorem arises_perform (arises : Arises .nested profile.growing) (request : Request) :
    Arises .nested (profile.perform request).growing := by
  rcases profile.event_perform request with event | ⟨tick, rfl⟩ | rfl
  · rw [event.rest]
    exact arises
  · rcases recordTick_cases profile tick with
      refused | ⟨-, counted, attribution, unsampled, adds⟩
    · rw [perform, refused]
      exact arises
    · have same : Arises .nested counted.growing := by
        rw [unsampled.growing]
        exact arises
      rw [perform, adds]
      exact (same.addPath attribution.path).recordSample _ attribution.line
  · rw [perform, finalize]
    split
    · exact arises
    · exact (arises_smooth arises profile.samples).computeTotals

/-- The call tree of a profile arises, whatever has been requested. -/
theorem arises_foldl_perform (arises : Arises .nested profile.growing)
    (requests : List Request) :
    Arises .nested (requests.foldl perform profile).growing := by
  induction requests generalizing profile with
  | nil => exact arises
  | cons request requests inductionHypothesis =>
    exact inductionHypothesis (arises_perform arises request)

theorem arises_run (settings : ProfileSettings) (provider : ScriptProvider)
    (requests : List Request) : Arises .nested (run settings provider requests).growing :=
  arises_foldl_perform (.fresh _ _) requests

/-! ## Samples -/

/-- A sample has been added: it is the last one, and it is counted at the node that a chain
of labels leads to. -/
structure SampleAt (before after : Profile) (node : NodeIndex) (labels : List String)
    (system : Bool) : Prop where
  pathLabels : after.tree.pathLabels node = labels
  samples : ∃ sample : Sample, after.samples = before.samples.push sample ∧
    sample.node = node ∧ sample.system = system
  selfWeight : ∀ other, (after.tree.node other).selfWeight =
    (before.tree.node other).selfWeight + if other = node then 1 else 0

/-- An attributed sample goes to the node of its path. -/
theorem sampleAt_addSample (trie : profile.tree.Trie) (tick : Tick) (attribution : Attribution) :
    SampleAt profile (profile.addSample tick attribution).2
      (profile.addSample tick attribution).1 (attribution.path.map Prod.fst)
      attribution.system := by
  have reached := GrowingTree.reached_addPath trie attribution.path
  obtain ⟨inside, grown⟩ := GrowingTree.grown_addPathFrom trie.toRooted trie.nonempty
    attribution.path
  refine ⟨?_, ⟨_, rfl, rfl, rfl⟩, fun other => ?_⟩
  · have recorded : Reweighted _ (profile.addSample tick attribution).2.tree :=
      .recordSample _ (profile.growing.addPath attribution.path).1 attribution.line
    exact (recorded.pathLabels _).trans reached.pathLabels
  · exact (CallTree.selfWeight_recordSample inside attribution.line other).trans
      (congrArg (· + _) (grown.selfWeight other))

theorem SampleAt.of_same {before resolved after : Profile} {node : NodeIndex}
    {labels : List String} {system : Bool}
    (sampleAt : SampleAt resolved after node labels system)
    (growing : resolved.growing = before.growing) (samples : resolved.samples = before.samples) :
    SampleAt before after node labels system where
  pathLabels := sampleAt.pathLabels
  samples := samples ▸ sampleAt.samples
  selfWeight := by
    have same : resolved.tree = before.tree := congrArg GrowingTree.tree growing
    exact same ▸ sampleAt.selfWeight

theorem unsampled_resolveTick (profile : Profile) (tick : Tick) :
    Unsampled 1 ((profile.observeTime tick.timestamp).countTick tick.vmState)
      (profile.resolveTick tick).2 :=
  .resolveStack _ _ 0 {} _

/-- The labels of the calls of a tick, outermost first. Without calls it is the engine that was
running. -/
def callPath (profile : Profile) (tick : Tick) : List String :=
  match profile.logicalStack tick with
  | [] => [(PseudoFunction.ofState tick.vmState).label]
  | frames => (frames.map (·.label)).reverse

/-- Every tick is recorded, and its sample goes to the node of its calls. -/
def Attributes (profile : Profile) : Prop :=
  ∀ tick, ∃ node after, profile.recordTick tick = (.ok node, after) ∧
    SampleAt profile after node (profile.callPath tick) (profile.logicalStack tick).isEmpty

theorem attributes_of_arises (arises : Arises .nested profile.growing)
    (registered : Registered profile.codeMap) (recording : profile.finalized = false) :
    Attributes profile := by
  intro tick
  have unsampled := unsampled_resolveTick profile tick
  have resolved := registered.worked (worked_resolveTick registered.indexed tick)
  let attribution :=
    (profile.resolveTick tick).2.attributionOf tick.vmState (profile.resolveTick tick).1
  have trie : (profile.resolveTick tick).2.tree.Trie := by
    rw [tree, unsampled.growing]
    exact arises.trie
  have added := sampleAt_addSample trie tick attribution
  have attributed : attribution.path.map Prod.fst = profile.callPath tick ∧
      attribution.system = (profile.logicalStack tick).isEmpty := by
    rw [callPath, logicalStack]
    dsimp only [attribution]
    cases (profile.resolveTick tick).1 with
    | nil => exact ⟨congrArg (fun label => [label]) (resolved.displayName _), rfl⟩
    | cons leaf outer => simp [attributionOf]
  rw [attributed.1, attributed.2] at added
  exact ⟨_, _, recordTick_eq recording tick, added.of_same unsampled.growing unsampled.samples⟩

theorem finalized_foldl_perform (profile : Profile) (requests : List Request)
    (goOn : ∀ request ∈ requests, request.goesOn = true) :
    (requests.foldl perform profile).finalized = profile.finalized := by
  induction requests generalizing profile with
  | nil => rfl
  | cons request requests inductionHypothesis =>
    have first := Continues.perform profile (goOn request List.mem_cons_self)
    exact (inductionHypothesis _ fun other inside =>
      goOn other (List.mem_cons_of_mem request inside)).trans first.finalized

/-- A profile that is recorded goes on attributing ticks. -/
theorem attributes_foldl_perform (profile : Profile) (arises : Arises .nested profile.growing)
    (registered : Registered profile.codeMap) (recording : profile.finalized = false)
    (requests : List Request) (goOn : ∀ request ∈ requests, request.goesOn = true) :
    Attributes (requests.foldl perform profile) :=
  attributes_of_arises (arises_foldl_perform arises requests) (registered.foldl_perform requests)
    ((finalized_foldl_perform profile requests goOn).trans recording)

end Profile

end JitTrace
