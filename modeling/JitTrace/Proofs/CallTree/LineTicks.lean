import JitTrace.CallTree.LineTicks
import Mathlib.Data.List.Basic

/-!
# Counting ticks by line

Adding and taking away ticks of one line changes the count of that line by as much,
and of no other line, as long as the lines are sorted.
-/

namespace JitTrace.LineTicks

/-- The lines ascend. -/
abbrev Sorted (ticks : LineTicks) : Prop :=
  ticks.Pairwise fun first second => first.1 < second.1

@[simp] theorem count_nil (line : Nat) : count [] line = 0 := rfl

@[simp] theorem count_cons (other present : Nat) (rest : LineTicks) (line : Nat) :
    count ((other, present) :: rest) line = if line = other then present else count rest line := by
  by_cases same : line = other
  · simp [count, same]
  · simp [count, List.lookup_cons, beq_eq_false_iff_ne.mpr same, same]

/-- A line below all others has no ticks. -/
theorem count_eq_zero {ticks : LineTicks} {line : Nat} (below : ∀ entry ∈ ticks, line < entry.1) :
    count ticks line = 0 := by
  induction ticks with
  | nil => rfl
  | cons entry rest inductionHypothesis =>
    have less := below entry (by simp)
    rw [count_cons, if_neg (by omega)]
    exact inductionHypothesis fun other inside => below other (by simp [inside])

/-- Adding ticks adds them to their line alone. -/
theorem count_add {ticks : LineTicks} (sorted : Sorted ticks) (line amount other : Nat) :
    count (add line amount ticks) other =
      count ticks other + if other = line then amount else 0 := by
  induction ticks with
  | nil => simp [add]
  | cons entry rest inductionHypothesis =>
    obtain ⟨present, ticks⟩ := entry
    obtain ⟨first, sortedRest⟩ := List.pairwise_cons.mp sorted
    have rest := inductionHypothesis sortedRest
    rw [add]
    split
    · rename_i below
      by_cases same : other = line
      · subst same
        have nothing : count _ other = 0 :=
          count_eq_zero fun entry inside => Nat.lt_trans below (first entry inside)
        simp [Nat.ne_of_lt below, nothing]
      · simp [same]
    · split
      · rename_i same
        subst same
        by_cases here : other = line <;> simp [here]
      · rename_i different
        by_cases here : other = present
        · subst here
          simp [Ne.symm different]
        · simp [here, rest]

theorem mem_add {ticks : LineTicks} {line amount : Nat} {entry : Nat × Nat}
    (inside : entry ∈ add line amount ticks) : entry.1 = line ∨ ∃ old ∈ ticks, old.1 = entry.1 := by
  induction ticks with
  | nil => simp_all [add]
  | cons old rest inductionHypothesis =>
    obtain ⟨present, ticks⟩ := old
    rw [add] at inside
    split at inside
    · grind
    · split at inside
      · grind
      · rcases List.mem_cons.mp inside with rfl | inRest
        · exact .inr ⟨_, by simp, rfl⟩
        · grind

theorem sorted_add {ticks : LineTicks} (sorted : Sorted ticks) (line amount : Nat) :
    Sorted (add line amount ticks) := by
  induction ticks with
  | nil => simp [add]
  | cons entry rest inductionHypothesis =>
    obtain ⟨present, ticks⟩ := entry
    obtain ⟨first, sortedRest⟩ := List.pairwise_cons.mp sorted
    rw [add]
    split
    · rename_i below
      refine List.pairwise_cons.mpr ⟨fun entry inside => ?_, sorted⟩
      rcases List.mem_cons.mp inside with rfl | inRest
      · exact below
      · exact Nat.lt_trans below (first entry inRest)
    · split
      · exact List.pairwise_cons.mpr ⟨first, sortedRest⟩
      · refine List.pairwise_cons.mpr ⟨fun entry inside => ?_, inductionHypothesis sortedRest⟩
        rcases mem_add inside with rfl | ⟨old, inRest, same⟩
        · show present < _
          omega
        · rw [← same]
          exact first old inRest

/-- Merging adds up the ticks of every line. -/
theorem count_merge {ticks added : LineTicks} (sorted : Sorted ticks) (addedSorted : Sorted added)
    (line : Nat) : count (merge ticks added) line = count ticks line + count added line := by
  induction added generalizing ticks with
  | nil => rfl
  | cons entry rest inductionHypothesis =>
    obtain ⟨present, amount⟩ := entry
    obtain ⟨first, sortedRest⟩ := List.pairwise_cons.mp addedSorted
    have onward := inductionHypothesis (sorted_add sorted present amount) sortedRest
    rw [merge, List.foldl_cons]
    refine onward.trans ?_
    rw [count_add sorted, count_cons]
    by_cases same : line = present
    · subst same
      simp [count_eq_zero first]
    · simp [same]

theorem sorted_merge {ticks : LineTicks} (sorted : Sorted ticks) (added : LineTicks) :
    Sorted (merge ticks added) :=
  List.foldlRecOn (motive := fun ticks => Sorted ticks) _ _ sorted
    fun _ kept entry _ => sorted_add kept entry.1 entry.2

theorem mem_remove {ticks : LineTicks} {line : Nat} {entry : Nat × Nat}
    (inside : entry ∈ remove line ticks) : ∃ old ∈ ticks, old.1 = entry.1 := by
  induction ticks with
  | nil => simp [remove] at inside
  | cons old rest inductionHypothesis =>
    obtain ⟨present, ticks⟩ := old
    rw [remove] at inside
    split at inside
    · split at inside
      · exact ⟨entry, by simp [inside], rfl⟩
      · rcases List.mem_cons.mp inside with rfl | inRest
        · exact ⟨(present, ticks), by simp, rfl⟩
        · exact ⟨entry, by simp [inRest], rfl⟩
    · rcases List.mem_cons.mp inside with rfl | inRest
      · exact ⟨(present, ticks), by simp, rfl⟩
      · obtain ⟨old, inOld, same⟩ := inductionHypothesis inRest
        exact ⟨old, by simp [inOld], same⟩

theorem sorted_remove {ticks : LineTicks} (sorted : Sorted ticks) (line : Nat) :
    Sorted (remove line ticks) := by
  induction ticks with
  | nil => simp [remove]
  | cons entry rest inductionHypothesis =>
    obtain ⟨present, ticks⟩ := entry
    obtain ⟨first, sortedRest⟩ := List.pairwise_cons.mp sorted
    rw [remove]
    split
    · split
      · exact sortedRest
      · exact List.pairwise_cons.mpr ⟨first, sortedRest⟩
    · refine List.pairwise_cons.mpr ⟨fun entry inside => ?_, inductionHypothesis sortedRest⟩
      obtain ⟨old, inRest, same⟩ := mem_remove inside
      rw [← same]
      exact first old inRest

/-- Taking a tick away takes it from its line alone. -/
theorem count_remove {ticks : LineTicks} (sorted : Sorted ticks) (line other : Nat) :
    count (remove line ticks) other = count ticks other - if other = line then 1 else 0 := by
  induction ticks with
  | nil => simp [remove]
  | cons entry rest inductionHypothesis =>
    obtain ⟨present, ticks⟩ := entry
    obtain ⟨first, sortedRest⟩ := List.pairwise_cons.mp sorted
    have rest := inductionHypothesis sortedRest
    rw [remove]
    split
    · rename_i same
      subst same
      by_cases here : other = line
      · subst here
        have nothing : count _ other = 0 := count_eq_zero first
        split
        · simp [nothing]
          omega
        · simp
      · split <;> simp [here]
    · rename_i different
      by_cases here : other = present
      · subst here
        simp [Ne.symm different]
      · simp [here, rest]

end JitTrace.LineTicks
