import JitTrace.Tally
import Mathlib.Algebra.GroupWithZero.Nat
import Mathlib.Data.List.Induction
import Mathlib.Data.List.Nodup

/-!
# What tallies count

Counting a key once more raises its count and the total by one, and no other count. A tally
that began empty lists every key that was counted exactly once, with how often that was.
-/

namespace JitTrace.Tally

variable {Key : Type} [DecidableEq Key]

/-! ## One count more or less -/

theorem count_bump (key other : Key) (tally : Tally Key) :
    count (bump key tally) other = count tally other + if other = key then 1 else 0 := by
  induction tally with
  | nil => simp only [bump, count, eq_comm, Nat.zero_add]
  | cons entry rest inductionHypothesis =>
    rw [bump]
    split <;> grind [count]

theorem count_lower (key other : Key) (tally : Tally Key) :
    count (lower key tally) other = count tally other - if other = key then 1 else 0 := by
  induction tally with
  | nil => simp only [lower, count, Nat.zero_sub]
  | cons entry rest inductionHypothesis =>
    rw [lower]
    split <;> grind [count]

theorem total_bump (key : Key) (tally : Tally Key) : total (bump key tally) = total tally + 1 := by
  induction tally with
  | nil => rfl
  | cons entry rest inductionHypothesis =>
    rw [bump]
    split
    · simp only [total]
      omega
    · simp only [total, inductionHypothesis]
      omega

/-- A key that was not listed is listed last. -/
theorem keys_bump (key : Key) (tally : Tally Key) :
    (bump key tally).map (·.1) =
      if key ∈ tally.map (·.1) then tally.map (·.1) else tally.map (·.1) ++ [key] := by
  induction tally with
  | nil => rfl
  | cons entry rest inductionHypothesis =>
    rw [bump]
    split <;> grind

/-! ## Tallies and lists -/

omit [DecidableEq Key] in
theorem total_eq_sum (tally : Tally Key) : total tally = (tally.map (·.2)).sum := by
  induction tally with
  | nil => rfl
  | cons entry rest inductionHypothesis =>
    rw [total, inductionHypothesis, List.map_cons, List.sum_cons]

/-- What is listed of a key is its count. -/
theorem count_eq_of_mem {tally : Tally Key} (distinct : (tally.map (·.1)).Nodup) {key : Key}
    {listed : Nat} (inside : (key, listed) ∈ tally) : count tally key = listed := by
  induction tally with
  | nil => contradiction
  | cons entry rest inductionHypothesis =>
    obtain ⟨unlisted, distinctRest⟩ := List.nodup_cons.mp distinct
    rw [count]
    rcases List.mem_cons.mp inside with rfl | insideRest
    · exact if_pos rfl
    · rw [if_neg, inductionHypothesis distinctRest insideRest]
      exact fun same => unlisted (List.mem_map.mpr ⟨_, insideRest, same.symm⟩)

/-- Some keys, counted one after the other. -/
def of (keys : List Key) : Tally Key :=
  keys.foldl (fun tally key => bump key tally) []

theorem of_concat (keys : List Key) (key : Key) : of (keys ++ [key]) = bump key (of keys) := by
  simp only [of, List.foldl_append, List.foldl_cons, List.foldl_nil]

theorem count_of (keys : List Key) (key : Key) : count (of keys) key = keys.count key := by
  induction keys using List.reverseRecOn with
  | nil => rfl
  | append_singleton keys last inductionHypothesis =>
    rw [of_concat, count_bump, inductionHypothesis, List.count_append, List.count_singleton]
    simp only [beq_iff_eq, eq_comm (a := key)]

theorem total_of (keys : List Key) : total (of keys) = keys.length := by
  induction keys using List.reverseRecOn with
  | nil => rfl
  | append_singleton keys last inductionHypothesis =>
    rw [of_concat, total_bump, inductionHypothesis, List.length_append, List.length_singleton]

theorem mem_keys_of (keys : List Key) (key : Key) : key ∈ (of keys).map (·.1) ↔ key ∈ keys := by
  induction keys using List.reverseRecOn with
  | nil => rfl
  | append_singleton keys last inductionHypothesis =>
    rw [of_concat, keys_bump]
    split <;> grind

theorem nodup_keys_of (keys : List Key) : ((of keys).map (·.1)).Nodup := by
  induction keys using List.reverseRecOn with
  | nil => exact List.nodup_nil
  | append_singleton keys last inductionHypothesis =>
    rw [of_concat, keys_bump]
    split
    · exact inductionHypothesis
    · rename_i unlisted
      exact List.concat_eq_append ▸ inductionHypothesis.concat unlisted

/-- A key is listed with the number of times it was counted, if it was. -/
theorem mem_of {keys : List Key} {key : Key} {listed : Nat} :
    (key, listed) ∈ of keys ↔ key ∈ keys ∧ keys.count key = listed := by
  have counted {other : Nat} (inside : (key, other) ∈ of keys) : keys.count key = other :=
    (count_of keys key).symm.trans (count_eq_of_mem (nodup_keys_of keys) inside)
  constructor
  · intro inside
    exact ⟨(mem_keys_of keys key).mp (List.mem_map_of_mem inside), counted inside⟩
  · rintro ⟨inside, rfl⟩
    obtain ⟨entry, listed, rfl⟩ := List.mem_map.mp ((mem_keys_of keys key).mpr inside)
    rwa [counted listed]

end JitTrace.Tally
