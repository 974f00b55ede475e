import Mathlib.Logic.Relation
import JitTrace.Proofs.Code.Lookup

/-!
# Expanding inlined calls

An address of optimized code stands for a chain of inlined calls around the function of
the code. The chain is followed through a table that the log supplies, and it has an end
exactly if no call of it stands in itself. Then the table bounds its length, and each call
appears with the script offset of its own code, even when calls inside it belong to no
known function.
-/

namespace JitTrace

namespace SourceInfo

/-- The inlined call `inner` stands in the inlined call `outer`. -/
def InlinedInto (source : SourceInfo) (inner outer : Nat) : Prop :=
  ∃ call, source.inlining[inner]? = some call ∧ call.parent = some outer

/-- No inlined call that `id?` stands in, directly or not, stands in itself. -/
def Acyclic (source : SourceInfo) (id? : Option Nat) : Prop :=
  ∀ id ∈ id?, ∀ outer, Relation.ReflTransGen source.InlinedInto id outer →
    ¬Relation.TransGen source.InlinedInto outer outer

/-- A call of a chain of inlined calls. -/
structure InlinedCall where
  /-- Where the code of the call stands in its script. -/
  scriptOffset : UInt64
  call : InliningPosition

/-- The inlined calls from `id?` outwards, the first with its code at `scriptOffset`, and
where the outer function calls the last of them. A call tells where its caller's code
stands; the chain ends where an id is missing or not in the table. -/
inductive Chain (source : SourceInfo) : UInt64 → Option Nat → List InlinedCall → UInt64 → Prop
  | ends {scriptOffset : UInt64} {id? : Option Nat}
    (unlisted : ∀ id ∈ id?, source.inlining[id]? = none) :
    Chain source scriptOffset id? [] scriptOffset
  | next {scriptOffset outerOffset : UInt64} {id : Nat} {call : InliningPosition}
    {calls : List InlinedCall} (listed : source.inlining[id]? = some call)
    (outwards : Chain source call.scriptOffset call.parent calls outerOffset) :
    Chain source scriptOffset (some id) (⟨scriptOffset, call⟩ :: calls) outerOffset

variable {source : SourceInfo}

/-- A table that lists each call behind the one that it stands in has no cycles. -/
theorem acyclic_of_descending
    (descending : ∀ inner outer, source.InlinedInto inner outer → outer < inner)
    (id? : Option Nat) : source.Acyclic id? := by
  intro id _ outer _ around
  have below {inner outer : Nat} (path : Relation.TransGen source.InlinedInto inner outer) :
      outer < inner := by
    induction path with
    | single inlined => exact descending _ _ inlined
    | tail _ inlined inductionHypothesis =>
      exact Nat.lt_trans (descending _ _ inlined) inductionHypothesis
  exact absurd (below around) (Nat.lt_irrefl outer)

/-- What holds of a call holds of the one that it stands in. -/
theorem Acyclic.outwards {id : Nat} {call : InliningPosition} (acyclic : source.Acyclic (some id))
    (listed : source.inlining[id]? = some call) : source.Acyclic call.parent :=
  fun _ isParent outer reached =>
    acyclic id rfl outer (.head ⟨call, listed, isParent⟩ reached)

/-- Distinct calls of the table are at most as many as the table lists. -/
theorem length_le_size {ids : List Nat} (distinct : ids.Nodup)
    (listed : ∀ id ∈ ids, id < source.inlining.size) : ids.length ≤ source.inlining.size := by
  have inside : ids ⊆ List.range source.inlining.size :=
    fun id member => List.mem_range.mpr (listed id member)
  simpa using distinct.length_le_of_subset inside

/-- A chain without cycles ends. The calls already passed are distinct and lead to the
current one, so it is none of them, and `room` entries of the table are left. -/
theorem Acyclic.exists_chain_beyond {passed : List Nat} {room : Nat} {id? : Option Nat}
    (acyclic : source.Acyclic id?) (distinct : passed.Nodup)
    (listed : ∀ id ∈ passed, id < source.inlining.size)
    (behind : ∀ id ∈ id?, ∀ inner ∈ passed, Relation.TransGen source.InlinedInto inner id)
    (fits : passed.length + room = source.inlining.size) (scriptOffset : UInt64) :
    ∃ calls outerOffset, source.Chain scriptOffset id? calls outerOffset ∧ calls.length ≤ room := by
  induction room generalizing passed id? scriptOffset with
  | zero =>
    refine ⟨[], scriptOffset, .ends fun id here => ?_, Nat.le_refl 0⟩
    rw [Array.getElem?_eq_none_iff]
    refine Nat.not_lt.mp fun inTable => ?_
    have fresh : id ∉ passed := fun again => acyclic id here id .refl (behind id here id again)
    have crowded := length_le_size (List.nodup_cons.mpr ⟨fresh, distinct⟩)
      (List.forall_mem_cons.mpr ⟨inTable, listed⟩)
    simp only [List.length_cons] at crowded
    omega
  | succ room inductionHypothesis =>
    cases id? with
    | none => exact ⟨[], scriptOffset, .ends (by simp), Nat.zero_le _⟩
    | some id =>
      cases found : source.inlining[id]? with
      | none =>
        refine ⟨[], scriptOffset, .ends fun other here => ?_, Nat.zero_le _⟩
        exact Option.some.inj here ▸ found
      | some call =>
        have inTable : id < source.inlining.size := (Array.getElem?_eq_some_iff.mp found).1
        have fresh : id ∉ passed := fun again => acyclic id rfl id .refl (behind id rfl id again)
        have leads : ∀ outer ∈ call.parent, ∀ inner ∈ id :: passed,
            Relation.TransGen source.InlinedInto inner outer := by
          intro outer isParent inner member
          have inlined : source.InlinedInto id outer := ⟨call, found, isParent⟩
          rcases List.mem_cons.mp member with rfl | earlier
          · exact .single inlined
          · exact (behind id rfl inner earlier).tail inlined
        obtain ⟨calls, outerOffset, chain, bound⟩ := inductionHypothesis (acyclic.outwards found)
          (List.nodup_cons.mpr ⟨fresh, distinct⟩) (List.forall_mem_cons.mpr ⟨inTable, listed⟩)
          leads (by simp only [List.length_cons]; omega) call.scriptOffset
        exact ⟨_, outerOffset, .next found chain, Nat.succ_le_succ bound⟩

/-- A chain without cycles passes every entry of the table at most once. -/
theorem Acyclic.exists_chain {id? : Option Nat} (acyclic : source.Acyclic id?)
    (scriptOffset : UInt64) :
    ∃ calls outerOffset, source.Chain scriptOffset id? calls outerOffset ∧
      calls.length ≤ source.inlining.size :=
  acyclic.exists_chain_beyond List.nodup_nil (by simp) (by simp) (Nat.zero_add _) scriptOffset

/-- Where a chain starts determines it. -/
theorem Chain.unique {scriptOffset firstOffset secondOffset : UInt64} {id? : Option Nat}
    {first second : List InlinedCall} (left : source.Chain scriptOffset id? first firstOffset)
    (right : source.Chain scriptOffset id? second secondOffset) :
    first = second ∧ firstOffset = secondOffset := by
  induction left generalizing second with
  | ends unlisted =>
    cases right with
    | ends => exact ⟨rfl, rfl⟩
    | next listed => exact absurd (listed.symm.trans (unlisted _ rfl)) (by simp)
  | next listed _ inductionHypothesis =>
    cases right with
    | ends unlisted => exact absurd (listed.symm.trans (unlisted _ rfl)) (by simp)
    | next again outwards =>
      obtain rfl := Option.some.inj (listed.symm.trans again)
      obtain ⟨rfl, rfl⟩ := inductionHypothesis outwards
      exact ⟨rfl, rfl⟩

/-- A chain that ends has no cycles. -/
theorem Chain.acyclic {scriptOffset outerOffset : UInt64} {id? : Option Nat}
    {calls : List InlinedCall} (chain : source.Chain scriptOffset id? calls outerOffset) :
    source.Acyclic id? := by
  induction chain with
  | ends unlisted =>
    intro id here outer reached around
    -- Every way out of a call begins with an entry of the table.
    obtain ⟨_, ⟨call, listed, -⟩, -⟩ :=
      Relation.TransGen.head'_iff.mp (Relation.TransGen.trans_right reached around)
    exact absurd (listed.symm.trans (unlisted id here)) (by simp)
  | @next _ _ id call _ listed _ inductionHypothesis =>
    have outwards {outer : Nat} (path : Relation.TransGen source.InlinedInto id outer) :
        ∃ parent ∈ call.parent, Relation.ReflTransGen source.InlinedInto parent outer := by
      obtain ⟨parent, ⟨again, isListed, isParent⟩, further⟩ := Relation.TransGen.head'_iff.mp path
      obtain rfl := Option.some.inj (listed.symm.trans isListed)
      exact ⟨parent, isParent, further⟩
    rintro _ ⟨⟩ outer reached around
    obtain ⟨parent, isParent, further⟩ :=
      outwards (Relation.TransGen.trans_right reached around)
    exact inductionHypothesis parent isParent outer further around

end SourceInfo

namespace CodeMap

open SplayTree (found?)

/-- The frame of a call of a chain. It has one if its function is in the table of inlined
functions and live generated code starts at the function's address. -/
def frameOf? (map : CodeMap) (source : SourceInfo) (inlined : SourceInfo.InlinedCall) :
    Option LogicalFrame := do
  let address ← source.inlinedFunctions[inlined.call.functionIndex]?
  let (_, function) ← found? address map.dynamics.toList
  return {
    entry := function
    label := map.displayName function
    scriptId := some (((map.entry function).source.map (·.scriptId)).getD source.scriptId)
    scriptOffset := some inlined.scriptOffset }

variable {map : CodeMap} {source : SourceInfo}

/-- A call has a frame exactly when its function is known, and it then carries the offset
of the call's own code. -/
theorem Indexed.frameOf?_eq_some (indexed : Indexed map) {inlined : SourceInfo.InlinedCall}
    {frame : LogicalFrame} :
    map.frameOf? source inlined = some frame ↔
      ∃ address function, source.inlinedFunctions[inlined.call.functionIndex]? = some address ∧
        (address, function) ∈ map.dynamics.toList ∧
        frame = ⟨function, map.displayName function,
          some (((map.entry function).source.map (·.scriptId)).getD source.scriptId),
          some inlined.scriptOffset⟩ := by
  simp only [frameOf?, Option.pure_def, Option.bind_eq_bind, Option.bind_eq_some_iff,
    Option.some.injEq, Prod.exists, ← indexed.found?_eq_some, Option.map_eq_some_iff]
  grind

theorem Alike.frameOf?_eq {after : CodeMap} (alike : Alike map after) :
    after.frameOf? source = map.frameOf? source := by
  funext inlined
  simp only [frameOf?, alike.dynamics.toList_eq, alike.displayName_eq, alike.entry_eq]

/-- The frame of one call is found without changing what the map holds. -/
theorem Indexed.exists_inlinedFrame (indexed : Indexed map) (source : SourceInfo)
    (inlined : SourceInfo.InlinedCall) :
    ∃ after, map.inlinedFrame source.scriptId inlined.scriptOffset
        source.inlinedFunctions[inlined.call.functionIndex]? =
          (map.frameOf? source inlined, after) ∧
      Indexed after ∧ Alike map after := by
  cases known : source.inlinedFunctions[inlined.call.functionIndex]? with
  | none => exact ⟨map, by simp [inlinedFrame, frameOf?, known], indexed, indexed.alike_self⟩
  | some address =>
    obtain ⟨dynamics, finds, searched, same⟩ := indexed.exists_dynamicAt address
    refine ⟨{ map with dynamics }, ?_, searched, ?_⟩
    · cases found : found? address map.dynamics.toList <;>
        simp [inlinedFrame, frameOf?, known, found, finds, entry, displayName]
    · exact indexed.alike_self.withDynamics ⟨indexed.dynamics, searched.dynamics, same⟩

/-- Following inlined calls leaves the map with its contents. It gives the frames of a chain
that ends within the allowed steps, and nothing where no chain does. -/
theorem Indexed.exists_inlinedFrames (indexed : Indexed map) (source : SourceInfo) (steps : Nat)
    (scriptOffset : UInt64) (id? : Option Nat) :
    ∃ after, Alike map after ∧
      ((∃ calls outerOffset, source.Chain scriptOffset id? calls outerOffset ∧
          map.inlinedFrames source steps scriptOffset id? =
            (some (calls.filterMap (map.frameOf? source), outerOffset), after)) ∨
        (∀ calls outerOffset, source.Chain scriptOffset id? calls outerOffset →
            steps < calls.length) ∧
          map.inlinedFrames source steps scriptOffset id? = (none, after)) := by
  induction steps generalizing map scriptOffset id? with
  | zero =>
    refine ⟨map, indexed.alike_self, ?_⟩
    cases found : id?.bind (source.inlining[·]?) with
    | none =>
      exact .inl ⟨[], scriptOffset, .ends (Option.bind_eq_none_iff.mp found),
        by simp [inlinedFrames, found]⟩
    | some call =>
      refine .inr ⟨fun calls outerOffset chain => ?_, by simp [inlinedFrames, found]⟩
      cases chain with
      | ends unlisted =>
        exact absurd (found.symm.trans (Option.bind_eq_none_iff.mpr unlisted)) (by simp)
      | next => exact Nat.zero_lt_succ _
  | succ steps inductionHypothesis =>
    cases found : id?.bind (source.inlining[·]?) with
    | none =>
      exact ⟨map, indexed.alike_self, .inl ⟨[], scriptOffset,
        .ends (Option.bind_eq_none_iff.mp found), by simp [inlinedFrames, found]⟩⟩
    | some call =>
      obtain ⟨id, rfl, listed⟩ := Option.bind_eq_some_iff.mp found
      obtain ⟨searched, finds, stillIndexed, alike⟩ :=
        indexed.exists_inlinedFrame source ⟨scriptOffset, call⟩
      obtain ⟨after, unchanged, followed⟩ :=
        inductionHypothesis stillIndexed call.scriptOffset call.parent
      rw [alike.frameOf?_eq] at followed
      refine ⟨after, alike.trans unchanged, followed.imp ?_ ?_⟩
      · rintro ⟨calls, outerOffset, chain, frames⟩
        refine ⟨_, outerOffset, .next listed chain, ?_⟩
        rw [inlinedFrames.eq_def, found]
        simp only [finds, frames, Option.map_some, List.filterMap_cons]
        cases map.frameOf? source ⟨scriptOffset, call⟩ <;> rfl
      · rintro ⟨longer, nothing⟩
        refine ⟨fun calls outerOffset chain => ?_, ?_⟩
        · cases chain with
          | ends unlisted => exact absurd (listed.symm.trans (unlisted id rfl)) nofun
          | next again outwards =>
            obtain rfl := Option.some.inj (listed.symm.trans again)
            exact Nat.succ_lt_succ (longer _ outerOffset outwards)
        · rw [inlinedFrames.eq_def, found]
          simp only [finds, nothing, Option.map_none]

/-- The frames of a chain without cycles are found in as many steps as the table of calls is
long. -/
theorem Indexed.exists_inlinedFrames_of_acyclic (indexed : Indexed map) {id? : Option Nat}
    (acyclic : source.Acyclic id?) (scriptOffset : UInt64) :
    ∃ calls outerOffset after, source.Chain scriptOffset id? calls outerOffset ∧
      calls.length ≤ source.inlining.size ∧
      map.inlinedFrames source source.inlining.size scriptOffset id? =
        (some (calls.filterMap (map.frameOf? source), outerOffset), after) ∧
      Alike map after := by
  obtain ⟨calls, outerOffset, chain, bound⟩ := acyclic.exists_chain scriptOffset
  obtain ⟨after, alike, ⟨others, otherOffset, again, followed⟩ | ⟨longer, -⟩⟩ :=
    indexed.exists_inlinedFrames source source.inlining.size scriptOffset id?
  · obtain ⟨rfl, rfl⟩ := chain.unique again
    exact ⟨calls, outerOffset, after, chain, bound, followed, alike⟩
  · exact absurd bound (Nat.not_le_of_lt (longer calls outerOffset chain))

/-- Expanding an address whose chain of inlined calls has no cycles follows the chain to
its end, in at most as many steps as the table of calls is long. It gives, innermost
first, a frame for each call with a known function, and one for the function of the code,
each with the script offset of its own code. -/
theorem expandFrame_acyclic (built : Built map) {located : Located} {isReturnAddress : Bool}
    {position : PositionEntry} (mapped : (map.entry located.id).source = some source)
    (positioned : source.positionAt?
      (if isReturnAddress then Number.saturatingSub located.offset 1 else located.offset) =
        some position)
    (acyclic : source.Acyclic position.inliningId) :
    ∃ calls outerOffset after,
      source.Chain position.scriptOffset position.inliningId calls outerOffset ∧
      calls.length ≤ source.inlining.size ∧
      map.expandFrame? located isReturnAddress =
        (some (calls.filterMap (map.frameOf? source) ++
          [⟨located.id, map.displayName located.id, some source.scriptId, some outerOffset⟩]),
          after) ∧
      Alike map after := by
  obtain ⟨calls, outerOffset, after, chain, bound, followed, alike⟩ :=
    built.indexed.exists_inlinedFrames_of_acyclic acyclic position.scriptOffset
  exact ⟨calls, outerOffset, after, chain, bound,
    by simp only [expandFrame?, mapped, positioned, followed, Option.map_some], alike⟩

/-! ### Any address -/

/-- The calls at this address stand in one another in a circle. -/
def Circular (map : CodeMap) (located : Located) (isReturnAddress : Bool) : Prop :=
  ∃ source position, (map.entry located.id).source = some source ∧
    source.positionAt?
      (if isReturnAddress then Number.saturatingSub located.offset 1 else located.offset) =
        some position ∧
    ¬source.Acyclic position.inliningId

/-- Expanding an address leaves the map with its contents, and gives nothing exactly if the
calls there stand in one another in a circle. The frames are of the code there and of live
functions. -/
theorem Indexed.exists_expandFrame (indexed : Indexed map) (located : Located)
    (isReturnAddress : Bool) :
    ∃ frames? after, map.expandFrame? located isReturnAddress = (frames?, after) ∧
      Alike map after ∧ (frames? = none ↔ map.Circular located isReturnAddress) ∧
      ∀ frame ∈ frames?.getD [], frame.entry = located.id ∨
        ∃ start, (start, frame.entry) ∈ map.dynamics.toList := by
  simp only [expandFrame?, Circular]
  cases mapped : (map.entry located.id).source with
  | none => exact ⟨_, map, rfl, indexed.alike_self, by simp, by simp⟩
  | some source =>
    dsimp only
    cases positioned : source.positionAt?
      (if isReturnAddress then Number.saturatingSub located.offset 1 else located.offset) with
    | none => exact ⟨_, map, rfl, indexed.alike_self, by simp [positioned], by simp⟩
    | some position =>
      obtain ⟨after, alike, followed⟩ := indexed.exists_inlinedFrames source source.inlining.size
        position.scriptOffset position.inliningId
      rcases followed with ⟨calls, outerOffset, chain, found⟩ | ⟨longer, found⟩
      · simp only [found, Option.map_some]
        refine ⟨_, after, rfl, alike, ?_, ?_⟩
        · simp [positioned, chain.acyclic]
        · intro frame member
          rcases List.mem_append.mp member with inlined | physical
          · obtain ⟨call, -, isFrame⟩ := List.mem_filterMap.mp inlined
            obtain ⟨address, function, -, isLive, rfl⟩ := indexed.frameOf?_eq_some.mp isFrame
            exact .inr ⟨address, isLive⟩
          · exact .inl (List.mem_singleton.mp physical ▸ rfl)
      · simp only [found, Option.map_none]
        refine ⟨none, after, rfl, alike, ?_, by simp⟩
        have circular : ¬source.Acyclic position.inliningId := fun acyclic => by
          obtain ⟨calls, outerOffset, chain, bound⟩ := acyclic.exists_chain position.scriptOffset
          exact absurd bound (Nat.not_le_of_lt (longer calls outerOffset chain))
        simp [positioned, circular]

/-- Three inlined calls in one another; the one in the middle is of no known function. -/
def nestedSource : SourceInfo where
  scriptId := 1
  start := 0
  stop := 100
  positions := [⟨0, 50, some 2⟩]
  inlining := #[⟨1, 11, none⟩, ⟨5, 9, some 0⟩, ⟨0, 7, some 1⟩]
  inlinedFunctions := #[0x600, 0x700]

/-- The code that the three calls are inlined into, and the functions of two of them. -/
def nestedMap : CodeMap :=
  [.addCode 0x600 (.sharedFunction "inner a.js:5:1"),
    .addCode 0x700 (.sharedFunction "middle a.js:9:1"),
    .addCode 0x1000 { CodeEntry.dynamic 0x40 "f" "JS" with source := some nestedSource }].foldl
      Operation.perform .empty

theorem acyclic_nestedSource (id? : Option Nat) : nestedSource.Acyclic id? := by
  refine SourceInfo.acyclic_of_descending ?_ id?
  rintro inner outer ⟨call, listed, isParent⟩
  match inner with
  | 0 | 1 | 2 => cases listed; cases isParent <;> decide
  | _ + 3 => cases listed

/-- The call without a function has no frame; those around it keep their own offsets. -/
theorem expandFrame_nestedMap :
    Built nestedMap ∧ nestedSource.Acyclic (some 2) ∧
      (nestedMap.expandFrame ⟨⟨2⟩, 0x1000, 0x11⟩ true).1 =
        [⟨⟨0⟩, "inner a.js:5:1", some 1, some 50⟩, ⟨⟨1⟩, "middle a.js:9:1", some 1, some 9⟩,
          ⟨⟨2⟩, "JS: f", some 1, some 11⟩] := by
  have built : Built nestedMap :=
    .perform (.addCode 0x1000 _) (.perform (.addCode 0x700 _) (.perform (.addCode 0x600 _) .empty))
  obtain ⟨calls, outerOffset, after, chain, -, expanded, -⟩ :=
    @expandFrame_acyclic nestedMap nestedSource built ⟨⟨2⟩, 0x1000, 0x11⟩ true ⟨0, 50, some 2⟩
      (by decide +kernel) (by decide) (acyclic_nestedSource _)
  have whole : nestedSource.Chain 50 (some 2)
      [⟨50, ⟨0, 7, some 1⟩⟩, ⟨7, ⟨5, 9, some 0⟩⟩, ⟨9, ⟨1, 11, none⟩⟩] 11 :=
    .next rfl (.next rfl (.next rfl (.ends (by simp))))
  obtain ⟨rfl, rfl⟩ := chain.unique whole
  refine ⟨built, acyclic_nestedSource _, ?_⟩
  rw [expandFrame, expanded]
  change _ ++ _ = _
  decide +kernel

end CodeMap

end JitTrace
