import JitTrace.Proofs.Events.Groups
import Mathlib.Data.List.Permutation
import Mathlib.Order.Compare

/-!
# Rankings

Positions are ranked by what has been recorded at them. The worst of some updates is as severe
whatever order they came in, and no two positions stand at one place of a ranking. So a
ranking does not show in which order events came, although groups stand in that order and
sorting leaves equals as they stand.
-/

namespace JitTrace

/-! ## The order of positions -/

namespace FilePosition

instance : Std.TransCmp compare :=
  inferInstanceAs (Std.TransCmp
    (compareLex (compareLex (compareOn uri) (compareOn line)) (compareOn column)))

instance : Std.LawfulEqCmp compare where
  eq_of_compare {left right} same := by
    simp only [compare, Ordering.then_eq_eq, Std.compare_eq_iff_eq] at same
    obtain ⟨⟨uri, line⟩, column⟩ := same
    cases left
    cases right
    simp_all

end FilePosition

/-! ## The worst update -/

/-- The last item of the highest rank has the highest rank. -/
theorem map_highest? {Item : Type} (rank : Item → Nat) (items : List Item) :
    (highest? rank items).map rank = (items.map rank).max? := by
  induction items with
  | nil => rfl
  | cons item items inductionHypothesis =>
    rw [List.map_cons, List.max?_cons, ← inductionHypothesis, highest?]
    cases highest? rank items with
    | none => rfl
    | some later =>
      dsimp only [Option.map_some, Option.elim_some]
      split <;> simp <;> omega

/-- How high the highest rank is does not depend on the order of the items. -/
theorem map_highest?_of_perm {Item : Type} (rank : Item → Nat) {items others : List Item}
    (permuted : items.Perm others) :
    (highest? rank items).map rank = (highest? rank others).map rank := by
  rw [map_highest?, map_highest?]
  refine Option.ext fun highest => ?_
  simp only [List.max?_eq_some_iff, (permuted.map rank).mem_iff]

/-! ## Groups of permuted updates -/

namespace History

variable {Key Update : Type} [DecidableEq Key] [Hashable Key] {history : History Key Update}

/-- No key has two groups. -/
theorem Indexed.nodup_keys (indexed : history.Indexed) : history.keys.Nodup := by
  refine List.pairwise_iff_getElem.mpr fun first second inFirst inSecond before same => ?_
  have atFirst := (indexed _ first).mpr (List.getElem?_eq_getElem inFirst)
  have atSecond := (indexed _ second).mpr (List.getElem?_eq_getElem inSecond)
  rw [same, atSecond] at atFirst
  exact Nat.ne_of_gt before (Option.some.inj atFirst)

/-- The group of a key that came. -/
def groupOf (recorded : List (Key × Update)) (key : Key) : HistoryEntry Key Update :=
  ⟨key, updatesOf key recorded⟩

theorem toList_of (recorded : List (Key × Update)) :
    (of recorded).toList = (of recorded).keys.map (groupOf recorded) := by
  rw [keys, List.map_map]
  refine (List.map_id' _).symm.trans (List.map_congr_left fun group inside => ?_)
  rw [Function.comp_apply, groupOf, ← (groupsBy_of recorded).updates group inside]

variable {first second : List (Key × Update)}

omit [Hashable Key] in
theorem updatesOf_of_perm (permuted : first.Perm second) (key : Key) :
    (updatesOf key first).Perm (updatesOf key second) :=
  (permuted.filter _).map _

/-- The same keys come, in whatever order. -/
theorem keys_of_perm (permuted : first.Perm second) : (of first).keys.Perm (of second).keys := by
  rw [List.perm_ext_iff_of_nodup (indexed_of first).nodup_keys (indexed_of second).nodup_keys]
  intro key
  rw [keys_of, keys_of, List.mem_eraseDups, List.mem_eraseDups, (permuted.map _).mem_iff]

/-- What is read off a group does not depend on the order of its updates. -/
def Unordered {Reading : Type} (read : HistoryEntry Key Update → Reading) : Prop :=
  ∀ (key : Key) (updates others : List Update), updates.Perm others →
    read ⟨key, updates⟩ = read ⟨key, others⟩

section Unordered

variable {Reading Part : Type} {read : HistoryEntry Key Update → Reading}

omit [Hashable Key] in
theorem Unordered.groupOf_eq (unordered : Unordered read) (permuted : first.Perm second)
    (key : Key) : read (groupOf first key) = read (groupOf second key) :=
  unordered key _ _ (updatesOf_of_perm permuted key)

omit [DecidableEq Key] [Hashable Key] in
theorem Unordered.map (unordered : Unordered read) (part : Reading → Part) :
    Unordered fun group => part (read group) :=
  fun key _ _ permuted => congrArg part (unordered key _ _ permuted)

end Unordered

end History

/-! ## Rankings -/

namespace EventLog

open History (Unordered groupOf)

section Rank

variable {Update : Type} {rank : HistoryEntry FilePosition Update → Nat}

theorem rankedBefore_iff {left right : HistoryEntry FilePosition Update} :
    rankedBefore rank left right = true ↔ rank right < rank left ∨
      rank left = rank right ∧ (FilePosition.compare left.key right.key).isLE = true := by
  rw [rankedBefore]
  split
  · simp [*]
  · simp [*]

theorem rankedBefore_trans (left middle right : HistoryEntry FilePosition Update)
    (first : rankedBefore rank left middle = true)
    (second : rankedBefore rank middle right = true) :
    rankedBefore rank left right = true := by
  rw [rankedBefore_iff] at first second ⊢
  rcases first with higher | ⟨same, before⟩ <;> rcases second with nextHigher | ⟨nextSame, after⟩
  · exact .inl (Nat.lt_trans nextHigher higher)
  · exact .inl (nextSame ▸ higher)
  · exact .inl (same ▸ nextHigher)
  · exact .inr ⟨same.trans nextSame, Std.TransCmp.isLE_trans before after⟩

theorem rankedBefore_total (left right : HistoryEntry FilePosition Update) :
    (rankedBefore rank left right || rankedBefore rank right left) = true := by
  rw [Bool.or_eq_true, rankedBefore_iff, rankedBefore_iff]
  have swap : FilePosition.compare right.key left.key =
      (FilePosition.compare left.key right.key).swap := Std.OrientedCmp.eq_swap
  have swapped : (FilePosition.compare left.key right.key).isLE = true ∨
      (FilePosition.compare right.key left.key).isLE = true := by
    rw [swap]
    cases FilePosition.compare left.key right.key <;> simp
  rcases Nat.lt_trichotomy (rank left) (rank right) with lower | same | higher
  · exact .inr (.inl lower)
  · exact swapped.imp (fun before => .inr ⟨same, before⟩) fun after => .inr ⟨same.symm, after⟩
  · exact .inl (.inl higher)

/-- Groups that come before each other have one position. -/
theorem key_eq_of_rankedBefore {left right : HistoryEntry FilePosition Update}
    (before : rankedBefore rank left right = true) (after : rankedBefore rank right left = true) :
    left.key = right.key := by
  rw [rankedBefore_iff] at before after
  have same : rank left = rank right := by omega
  have first := (before.resolve_left (by omega)).2
  have second := (after.resolve_left (by omega)).2
  exact Std.LawfulEqCmp.eq_of_compare (Std.OrientedCmp.isLE_antisymm first second)

variable (rank) in
/-- Order positions by what came with them. -/
def positionBefore (recorded : List (FilePosition × Update)) (left right : FilePosition) : Bool :=
  rankedBefore rank (groupOf recorded left) (groupOf recorded right)

variable (rank) in
/-- The positions that came, in the order of a ranking of their groups. -/
def rankedPositions (recorded : List (FilePosition × Update)) : List FilePosition :=
  (History.of recorded).keys.mergeSort (positionBefore rank recorded)

variable {first second : List (FilePosition × Update)}

theorem mergeSort_toList_of (recorded : List (FilePosition × Update)) :
    (History.of recorded).toList.mergeSort (rankedBefore rank) =
      (rankedPositions rank recorded).map (groupOf recorded) := by
  rw [History.toList_of, rankedPositions]
  exact (List.map_mergeSort (r := positionBefore rank recorded) (f := groupOf recorded)
    fun _ _ _ _ => rfl).symm

variable (rank) in
/-- The positions of a ranking are sorted. -/
theorem pairwise_rankedPositions (recorded : List (FilePosition × Update)) :
    (rankedPositions rank recorded).Pairwise fun left right =>
      positionBefore rank recorded left right = true :=
  List.pairwise_mergeSort (fun _ _ _ => rankedBefore_trans _ _ _)
    (fun _ _ => rankedBefore_total _ _) _

/-- A ranking that does not look at the order of updates puts the positions in one order. It
cannot leave two of them as they came, since no two compare equal. -/
theorem rankedPositions_of_perm (unordered : Unordered rank) (permuted : first.Perm second) :
    rankedPositions rank first = rankedPositions rank second := by
  have sameOrder : positionBefore rank first = positionBefore rank second := by
    funext left right
    rw [positionBefore, positionBefore, Bool.eq_iff_iff, rankedBefore_iff, rankedBefore_iff,
      unordered.groupOf_eq permuted left, unordered.groupOf_eq permuted right]
    rfl
  have samePositions : (rankedPositions rank first).Perm (rankedPositions rank second) :=
    (List.mergeSort_perm ..).trans
      ((History.keys_of_perm permuted).trans (List.mergeSort_perm ..).symm)
  -- Both are sorted by one order, and positions that compare equal are the same one.
  have sorted := pairwise_rankedPositions rank first
  rw [sameOrder] at sorted
  exact samePositions.eq_of_pairwise
    (fun _ _ _ _ forth back => key_eq_of_rankedBefore forth back) sorted
    (pairwise_rankedPositions rank second)

/-- What a ranking shows of permuted updates does not depend on their order. -/
theorem ranking_of_perm {Reading : Type} {read : HistoryEntry FilePosition Update → Reading}
    (rankUnordered : Unordered rank) (readUnordered : Unordered read)
    (permuted : first.Perm second) :
    ((History.of first).toList.mergeSort (rankedBefore rank)).map read =
      ((History.of second).toList.mergeSort (rankedBefore rank)).map read := by
  rw [mergeSort_toList_of, mergeSort_toList_of, rankedPositions_of_perm rankUnordered permuted,
    List.map_map, List.map_map]
  exact List.map_congr_left fun position _ => readUnordered.groupOf_eq permuted position

end Rank

/-- What is left of a position when it is forgotten in which order its updates came: how many
there are, and how severe the worst of them is. -/
structure Standing where
  position : FilePosition
  updates : Nat
  severity : Option Nat
deriving DecidableEq

def deoptStanding (entry : DeoptEntry) : Standing :=
  ⟨entry.key, entry.updates.length, (worstKind? entry).map DeoptimizeKind.severity⟩

def icStanding (entry : IcEntry) : Standing :=
  ⟨entry.key, entry.updates.length, (worstState? entry).map IcState.severity⟩

theorem unordered_deoptStanding : Unordered deoptStanding := by
  intro position updates others permuted
  rw [deoptStanding, deoptStanding, permuted.length_eq, worstKind?, worstKind?,
    map_highest?_of_perm _ (permuted.map _)]

theorem unordered_icStanding : Unordered icStanding := by
  intro position updates others permuted
  rw [icStanding, icStanding, permuted.length_eq, worstState?, worstState?,
    map_highest?_of_perm _ (permuted.map _)]

theorem icSeverity_eq (entry : IcEntry) :
    icSeverity entry = (icStanding entry).severity.getD 0 := by
  rw [icSeverity, icStanding]
  cases worstState? entry <;> rfl

/-- Event logs of permuted calls rank the same positions in the same order, with as many updates
and as severe a worst one at each. A ranking has all groups of its kind. -/
theorem rankings_of_perm {first second : List Call} (permuted : first.Perm second) :
    (run first).deoptsByCount.map deoptStanding = (run second).deoptsByCount.map deoptStanding ∧
      (run first).icsBySeverity.map icStanding = (run second).icsBySeverity.map icStanding ∧
      (run first).deoptsByCount.Perm (run first).deopts.toList ∧
      (run first).icsBySeverity.Perm (run first).ics.toList := by
  obtain ⟨deopts, ics, -⟩ := histories_run first
  obtain ⟨otherDeopts, otherIcs, -⟩ := histories_run second
  refine ⟨?_, ?_, List.mergeSort_perm .., List.mergeSort_perm ..⟩
  · rw [deoptsByCount, deoptsByCount, deopts, otherDeopts]
    exact ranking_of_perm (unordered_deoptStanding.map (·.updates)) unordered_deoptStanding
      (permuted.filterMap _)
  · rw [icsBySeverity, icsBySeverity, ics, otherIcs, funext icSeverity_eq]
    exact ranking_of_perm (unordered_icStanding.map (·.severity.getD 0)) unordered_icStanding
      (permuted.filterMap _)

/-- Two deopts and a transition at one position, and one deopt and two transitions at another
one. -/
def interleavedCalls : List Call :=
  let outer : FilePosition := ⟨"a.js", 1, 1⟩
  let inner : FilePosition := ⟨"a.js", 2, 7⟩
  let transition (state : IcState) : IcUpdate :=
    ⟨0, "LoadIC", .uninitialized, state, 0, "x", "", "", none⟩
  [ .addDeopt inner ⟨1, .soft, "wrong map", none, -1⟩,
    .addIc inner (transition .megamorphic),
    .addDeopt outer ⟨2, .eager, "wrong map", none, -1⟩,
    .addIc outer (transition .polymorphic),
    .addDeopt outer ⟨3, .lazy, "wrong map", none, -1⟩,
    .addIc inner (transition .monomorphic) ]

theorem rankings_of_perm_interleaved :
    interleavedCalls.Perm interleavedCalls.reverse ∧
      (run interleavedCalls.reverse).deoptsByCount.map deoptStanding =
        [⟨⟨"a.js", 1, 1⟩, 2, some 3⟩, ⟨⟨"a.js", 2, 7⟩, 1, some 1⟩] ∧
      (run interleavedCalls.reverse).icsBySeverity.map icStanding =
        [⟨⟨"a.js", 2, 7⟩, 2, some 4⟩, ⟨⟨"a.js", 1, 1⟩, 1, some 2⟩] := by
  have permuted : interleavedCalls.Perm interleavedCalls.reverse :=
    (List.reverse_perm interleavedCalls).symm
  obtain ⟨sameDeopts, sameIcs, -⟩ := rankings_of_perm permuted
  obtain ⟨deopts, ics, -⟩ := histories_run interleavedCalls
  refine ⟨permuted, sameDeopts.symm.trans ?_, sameIcs.symm.trans ?_⟩
  · rw [deoptsByCount, deopts, mergeSort_toList_of, rankedPositions, History.keys_of]
    cbv
  · rw [icsBySeverity, ics, mergeSort_toList_of, rankedPositions, History.keys_of]
    cbv

end EventLog

end JitTrace
