import JitTrace.Fault
import Mathlib.Data.List.Forall2

/-!
# Outcomes

When an outcome that is made of others is a success, and of which, and when it is a failure.
Of items that are read one after the other, the first one that cannot be read decides.

Two runs of one operation on states that differ in nothing that counts agree when they answer
the same and the states they leave behind again differ in nothing that counts. They are steady
when, besides, a failure leaves nothing behind.
-/

namespace JitTrace

/-! ## Success and failure -/

namespace Outcome

variable {Failure First Second Item Value : Type} {failure : Failure}

theorem bind_eq_ok {read : Except Failure First} {next : First → Except Failure Second}
    {value : Second} : read >>= next = .ok value ↔
      ∃ first, read = .ok first ∧ next first = .ok value := by
  cases read <;> simp [bind, Except.bind]

theorem bind_eq_error {read : Except Failure First} {next : First → Except Failure Second} :
    read >>= next = .error failure ↔
      read = .error failure ∨ ∃ first, read = .ok first ∧ next first = .error failure := by
  cases read <;> simp [bind, Except.bind]

theorem map_eq_ok {read : Except Failure First} {change : First → Second} {value : Second} :
    read.map change = .ok value ↔ ∃ first, read = .ok first ∧ change first = value := by
  cases read <;> simp [Except.map]

theorem map_eq_error {read : Except Failure First} {change : First → Second} :
    read.map change = .error failure ↔ read = .error failure := by
  cases read <;> simp [Except.map]

/-- Items are read together as they are read one by one. -/
theorem mapM_eq_ok {read : Item → Except Failure Value} {denotes : Item → Value → Prop}
    {items : List Item} {values : List Value}
    (each : ∀ item ∈ items, ∀ value, read item = .ok value ↔ denotes item value) :
    items.mapM read = .ok values ↔ List.Forall₂ denotes items values := by
  induction items generalizing values with
  | nil => simp [pure, Except.pure, eq_comm]
  | cons item items inductionHypothesis =>
    obtain ⟨here, behind⟩ := List.forall_mem_cons.mp each
    simp only [List.mapM_cons, bind_eq_ok, inductionHypothesis behind, here,
      List.forall₂_cons_left_iff, pure, Except.pure, Except.ok.injEq]
    constructor
    · rintro ⟨value, first, values, others, rfl⟩
      exact ⟨value, values, first, others, rfl⟩
    · rintro ⟨value, values, first, others, rfl⟩
      exact ⟨value, first, values, others, rfl⟩

/-- Items cannot be read together when one of them cannot be read, and then the first such
one says why. -/
theorem mapM_eq_error {read : Item → Except Failure Value} {items : List Item} :
    items.mapM read = .error failure ↔ ∃ front item back, items = front ++ item :: back ∧
      (∀ earlier ∈ front, ∃ value, read earlier = .ok value) ∧ read item = .error failure := by
  induction items with
  | nil => simp [pure, Except.pure]
  | cons first items inductionHypothesis =>
    simp only [List.mapM_cons, bind_eq_error, pure, Except.pure, reduceCtorEq, and_false,
      exists_false, or_false, inductionHypothesis]
    constructor
    · rintro (here | ⟨value, read, front, item, back, rfl, earlier, fails⟩)
      · exact ⟨[], first, items, rfl, nofun, here⟩
      · exact ⟨first :: front, item, back, rfl, List.forall_mem_cons.mpr ⟨⟨value, read⟩, earlier⟩,
          fails⟩
    · rintro ⟨_ | ⟨head, front⟩, item, back, split, earlier, fails⟩
      · obtain ⟨rfl, rfl⟩ := List.cons.inj split
        exact .inl fails
      · obtain ⟨rfl, rfl⟩ := List.cons.inj split
        obtain ⟨⟨value, read⟩, earlier⟩ := List.forall_mem_cons.mp earlier
        exact .inr ⟨value, read, front, item, back, rfl, earlier, fails⟩

end Outcome

/-! ## Agreement -/

/-- Two outcomes carry the same answer and leave alike states behind. -/
def Agree {Answer State : Type} (alike : State → State → Prop) (left right : Answer × State) :
    Prop :=
  ∃ answer first second, left = (answer, first) ∧ right = (answer, second) ∧ alike first second

/-- An outcome that agrees with itself leaves a state behind that is alike to itself. -/
theorem Agree.self {Answer State : Type} {alike : State → State → Prop} {outcome : Answer × State}
    (agree : Agree alike outcome outcome) : alike outcome.2 outcome.2 := by
  obtain ⟨answer, first, second, onLeft, onRight, after⟩ := agree
  obtain rfl : first = second := by
    rw [onLeft] at onRight
    exact congrArg Prod.snd onRight
  rwa [onLeft]

/-- Outcomes that are chosen alike agree when those agree that may be chosen. -/
theorem Agree.ite {Answer State : Type} {alike : State → State → Prop} {first second : Prop}
    [Decidable first] [Decidable second] (same : first ↔ second)
    {left right otherLeft otherRight : Answer × State}
    (chosen : first → Agree alike left right) (other : ¬ first → Agree alike otherLeft otherRight) :
    Agree alike (if first then left else otherLeft) (if second then right else otherRight) := by
  by_cases holds : first
  · rw [if_pos holds, if_pos (same.mp holds)]
    exact chosen holds
  · rw [if_neg holds, if_neg (mt same.mpr holds)]
    exact other holds

/-- Two outcomes agree, and if they are failures, they leave a state behind that is alike
to the state `before`. None of these failures asks for cancellation. -/
structure Steady {Result State : Type} (alike : State → State → Prop) (before : State)
    (left right : Except Fault Result × State) : Prop where
  agree : Agree alike left right
  failed : ∀ fault, left.1 = .error fault → fault.isCancellation = false ∧ alike left.2 before

namespace Steady

variable {Result State : Type} {alike : State → State → Prop} {before first second : State}

theorem of_ok (after : alike first second) (result : Result) :
    Steady alike before (.ok result, first) (.ok result, second) :=
  ⟨⟨_, _, _, rfl, rfl, after⟩, nofun⟩

theorem of_error (after : alike first second) (unchanged : alike first before) {fault : Fault}
    (goesOn : fault.isCancellation = false) :
    Steady alike before ((.error fault, first) : Except Fault Result × State)
      (.error fault, second) := by
  refine ⟨⟨_, _, _, rfl, rfl, after⟩, fun other isOther => ?_⟩
  cases isOther
  exact ⟨goesOn, unchanged⟩

/-- Either both outcomes are successes, or both are failures and nothing has changed. -/
theorem cases {left right : Except Fault Result × State} (steady : Steady alike before left right) :
    (∃ result first second, left = (.ok result, first) ∧ right = (.ok result, second) ∧
      alike first second) ∨
    ∃ fault first second, left = (.error fault, first) ∧ right = (.error fault, second) ∧
      alike first second ∧ alike first before ∧ fault.isCancellation = false := by
  obtain ⟨⟨result, first, second, rfl, rfl, after⟩, failed⟩ := steady
  cases result with
  | ok result => exact .inl ⟨result, first, second, rfl, rfl, after⟩
  | error fault =>
    obtain ⟨goesOn, unchanged⟩ := failed fault rfl
    exact .inr ⟨fault, first, second, rfl, rfl, after, unchanged, goesOn⟩

/-- Changing the results keeps outcomes steady. -/
theorem map {Other : Type} {left right : Except Fault Result × State}
    (steady : Steady alike before left right) (change : Result → Other) :
    Steady alike before (left.1.map change, left.2) (right.1.map change, right.2) := by
  rcases steady.cases with ⟨result, first, second, rfl, rfl, after⟩ |
    ⟨fault, first, second, rfl, rfl, after, unchanged, goesOn⟩
  · exact .of_ok after (change result)
  · exact .of_error after unchanged goesOn

end Steady

end JitTrace
