import JitTrace.Proofs.Line.Selection
import Mathlib.Data.Prod.Lex

/-!
# The order of processing

In an open timed range a line of text waits for the next marker, but a line that is no text is
processed at once: it overtakes the lines of text ahead of it. Every line has a key that tells
when it is processed, and nothing else disturbs the order of the lines.
-/

namespace JitTrace

/-- Of two members of a list, one comes first. -/
theorem eq_or_of_pairwise {α : Type} {relation : α → α → Prop} {members : List α}
    (pairwise : members.Pairwise relation) {first second : α} (firstInside : first ∈ members)
    (secondInside : second ∈ members) :
    first = second ∨ relation first second ∨ relation second first := by
  obtain ⟨firstIndex, firstBound, rfl⟩ := List.getElem_of_mem firstInside
  obtain ⟨secondIndex, secondBound, rfl⟩ := List.getElem_of_mem secondInside
  rw [List.pairwise_iff_getElem] at pairwise
  rcases Nat.lt_trichotomy firstIndex secondIndex with ahead | rfl | ahead
  · exact .inr (.inl (pairwise _ _ _ _ ahead))
  · exact .inl rfl
  · exact .inr (.inr (pairwise _ _ _ _ ahead))

namespace PlacedLine

/-- Whether a line of text lies in an open timed range. Unless it is a marker, it is held back
there. -/
def waits (settings : ReaderSettings) (placed : PlacedLine) : Bool :=
  match placed.line with
  | .text _ => settings.timedRange && settings.opensBehind placed.before
  | .damaged .. => false

/-- What tells when a line is processed: the markers before it, whether it waits for the next
one, and its number. -/
def key (settings : ReaderSettings) (placed : PlacedLine) : Nat ×ₗ Bool ×ₗ Nat :=
  toLex (placed.before, toLex (placed.waits settings, placed.number))

/-- A line that is no text overtakes a line of text ahead of it that waits in the same range. -/
structure Overtakes (settings : ReaderSettings) (damaged waiting : PlacedLine) : Prop where
  noText : damaged.text? = none
  waits : waiting.waits settings = true
  before : damaged.before = waiting.before
  number : waiting.number < damaged.number

variable {settings : ReaderSettings} {first second : PlacedLine}

theorem key_lt_key :
    first.key settings < second.key settings ↔
      first.before < second.before ∨ first.before = second.before ∧
        (first.waits settings < second.waits settings ∨
          first.waits settings = second.waits settings ∧ first.number < second.number) := by
  simp only [key, Prod.Lex.toLex_lt_toLex]

theorem waits_of_noText (noText : first.text? = none) : first.waits settings = false := by
  obtain ⟨_ | _, number, before, behind⟩ := first
  · exact absurd noText (Option.some_ne_none _)
  · rfl

/-- Of two lines in one range, only the one that is no text does not wait while the other one
does. -/
theorem noText_of_waits (same : first.before = second.before)
    (idle : first.waits settings = false) (waiting : second.waits settings = true) :
    first.text? = none := by
  obtain ⟨_ | _, number, before, behind⟩ := first
  · obtain ⟨_ | _, otherNumber, otherBefore, otherBehind⟩ := second
    · obtain rfl : before = otherBefore := same
      exact absurd (idle.symm.trans waiting) Bool.false_ne_true
    · exact absurd waiting Bool.false_ne_true
  · rfl

/-- In one range, a line that does not wait is processed ahead of one that does. -/
theorem key_lt_of_waits (same : first.before = second.before)
    (idle : first.waits settings = false) (waiting : second.waits settings = true) :
    first.key settings < second.key settings := by
  refine key_lt_key.mpr (.inr ⟨same, .inl ?_⟩)
  rw [idle, waiting]
  exact Bool.false_lt_true

theorem Overtakes.key_lt (overtakes : first.Overtakes settings second) :
    first.key settings < second.key settings :=
  key_lt_of_waits overtakes.before (waits_of_noText overtakes.noText) overtakes.waits

/-! ## Lines by their places -/

section Members

variable {lines : List LogLine} {number before : Nat}
  (firstInside : first ∈ listFrom number before lines)
  (secondInside : second ∈ listFrom number before lines)
include firstInside secondInside

/-- Of two lines of a log, one is ahead of the other. -/
theorem eq_or_ahead :
    first = second ∨
      (first.number < second.number ∧ first.before ≤ second.before) ∨
      (second.number < first.number ∧ second.before ≤ first.before) :=
  eq_or_of_pairwise (pairwise_listFrom lines number before).1 firstInside secondInside

/-- A line has its number alone. -/
theorem eq_of_number_eq (same : first.number = second.number) : first = second := by
  rcases eq_or_ahead firstInside secondInside with equal | ⟨lower, _⟩ | ⟨lower, _⟩
  · exact equal
  · exact absurd same (Nat.ne_of_lt lower)
  · exact absurd same.symm (Nat.ne_of_lt lower)

/-- A line that is processed first is ahead of the other one or overtakes it. -/
theorem lt_or_overtakes (comes : first.key settings < second.key settings) :
    first.number < second.number ∨ first.Overtakes settings second := by
  rcases eq_or_ahead firstInside secondInside with rfl | ⟨lower, _⟩ | ⟨lower, fewer⟩
  · exact absurd comes (lt_irrefl _)
  · exact .inl lower
  rcases key_lt_key.mp comes with more | ⟨same, waiting | ⟨_, ahead⟩⟩
  · exact absurd more (Nat.not_lt.mpr fewer)
  · obtain ⟨idle, waiting⟩ := Bool.lt_iff.mp waiting
    exact .inr ⟨noText_of_waits same idle waiting, waiting, same, lower⟩
  · exact .inl ahead

end Members

end PlacedLine

/-! ## The order of processing -/

namespace Schedule

/-- The lines that a schedule has processed and holds back, which are all ahead of a certain
number, behind so many markers. What it processes is in the order of the keys, and stays so
when the lines that it holds back come due. -/
structure InOrder (settings : ReaderSettings) (before number : Nat)
    (done held : List PlacedLine) (schedule : Schedule) : Prop where
  jobs : schedule.jobs.map (·.2) = done.map (·.number)
  holds : schedule.held.map (·.1) = held.map (·.number)
  ordered : (done ++ held.reverse).Pairwise
    fun first second => first.key settings < second.key settings
  passed : ∀ placed ∈ done, placed.number < number ∧
    (placed.before < before ∨ placed.before = before ∧ placed.waits settings = false)
  waiting : ∀ placed ∈ held, placed.number < number ∧ placed.before = before ∧
    placed.waits settings = true

namespace InOrder

variable {settings : ReaderSettings} {before number : Nat} {done held : List PlacedLine}
  {schedule : Schedule}

/-- A read goes on past lines that it leaves out. -/
theorem later (inOrder : InOrder settings before number done held schedule) {laterNumber : Nat}
    (numbered : number ≤ laterNumber) :
    InOrder settings before laterNumber done held schedule where
  jobs := inOrder.jobs
  holds := inOrder.holds
  ordered := inOrder.ordered
  passed placed inside := by
    obtain ⟨lower, place⟩ := inOrder.passed placed inside
    exact ⟨Nat.lt_of_lt_of_le lower numbered, place⟩
  waiting placed inside := by
    obtain ⟨lower, place⟩ := inOrder.waiting placed inside
    exact ⟨Nat.lt_of_lt_of_le lower numbered, place⟩

/-- While nothing is held back, a read goes on past markers. -/
theorem pass (inOrder : InOrder settings before number done held schedule)
    (empty : schedule.held = []) {laterBefore : Nat} (marked : before ≤ laterBefore) :
    InOrder settings laterBefore number done held schedule where
  jobs := inOrder.jobs
  holds := inOrder.holds
  ordered := inOrder.ordered
  passed placed inside := by
    obtain ⟨lower, fewer | ⟨same, idle⟩⟩ := inOrder.passed placed inside
    · exact ⟨lower, .inl (Nat.lt_of_lt_of_le fewer marked)⟩
    · exact ⟨lower, (Nat.lt_or_eq_of_le (same.trans_le marked)).imp id fun reached =>
        ⟨reached, idle⟩⟩
  waiting placed inside := by
    have listed := inOrder.holds
    rw [empty, List.map_nil, eq_comm, List.map_eq_nil_iff] at listed
    simp [listed] at inside

/-- A line that does not wait is processed ahead of those that do. -/
theorem process (inOrder : InOrder settings before number done held schedule) (line : LogLine)
    (behind : Nat) (idle : PlacedLine.waits settings ⟨line, number, before, behind⟩ = false) :
    InOrder settings before (number + 1) (done ++ [⟨line, number, before, behind⟩]) held
      { schedule with jobs := schedule.jobs ++ [(line, number)] } where
  jobs := by simp [inOrder.jobs]
  holds := inOrder.holds
  ordered := by
    obtain ⟨passed, waiting, between⟩ := List.pairwise_append.mp inOrder.ordered
    rw [List.append_assoc, List.singleton_append]
    refine List.pairwise_append.mpr ⟨passed, List.pairwise_cons.mpr ⟨?_, waiting⟩, ?_⟩
    · intro placed inside
      obtain ⟨_, same, waits⟩ := inOrder.waiting placed (List.mem_reverse.mp inside)
      exact PlacedLine.key_lt_of_waits same.symm idle waits
    · intro first firstInside second secondInside
      rcases List.mem_cons.mp secondInside with rfl | secondInside
      · obtain ⟨lower, fewer | ⟨same, ready⟩⟩ := inOrder.passed first firstInside
        · exact PlacedLine.key_lt_key.mpr (.inl fewer)
        · exact PlacedLine.key_lt_key.mpr (.inr ⟨same, .inr ⟨ready.trans idle.symm, lower⟩⟩)
      · exact between first firstInside second secondInside
  passed placed inside := by
    rcases List.mem_append.mp inside with inside | inside
    · exact (inOrder.later (Nat.le_succ number)).passed placed inside
    · obtain rfl := List.mem_singleton.mp inside
      exact ⟨Nat.lt_succ_self _, .inr ⟨rfl, idle⟩⟩
  waiting := (inOrder.later (Nat.le_succ number)).waiting

/-- A line that waits comes behind all others. -/
theorem hold (inOrder : InOrder settings before number done held schedule) (text : String)
    (behind : Nat) (waits : PlacedLine.waits settings ⟨.text text, number, before, behind⟩) :
    InOrder settings before (number + 1) done (⟨.text text, number, before, behind⟩ :: held)
      { schedule with held := (number, text) :: schedule.held } where
  jobs := inOrder.jobs
  holds := by simp [inOrder.holds]
  ordered := by
    rw [List.reverse_cons, ← List.append_assoc]
    refine List.pairwise_append.mpr ⟨inOrder.ordered, List.pairwise_singleton .., ?_⟩
    intro first inside second isNew
    obtain rfl := List.mem_singleton.mp isNew
    rcases List.mem_append.mp inside with inside | inside
    · obtain ⟨_, fewer | ⟨same, ready⟩⟩ := inOrder.passed first inside
      · exact PlacedLine.key_lt_key.mpr (.inl fewer)
      · exact PlacedLine.key_lt_of_waits same ready waits
    · obtain ⟨lower, same, also⟩ := inOrder.waiting first (List.mem_reverse.mp inside)
      exact PlacedLine.key_lt_key.mpr (.inr ⟨same, .inr ⟨also.trans waits.symm, lower⟩⟩)
  passed := (inOrder.later (Nat.le_succ number)).passed
  waiting placed inside := by
    rcases List.mem_cons.mp inside with rfl | inside
    · exact ⟨Nat.lt_succ_self _, rfl, waits⟩
    · exact (inOrder.later (Nat.le_succ number)).waiting placed inside

/-- At a marker, the lines that wait come due. -/
theorem release (inOrder : InOrder settings before number done held schedule)
    (rangeOpen : Bool) :
    InOrder settings (before + 1) (number + 1) (done ++ held.reverse) []
      { schedule with
        rangeOpen, held := [], jobs := schedule.jobs ++ schedule.held.reverse.map heldJob } where
  jobs := by
    have due : (schedule.held.reverse.map heldJob).map (·.2) =
        held.reverse.map (·.number) := by
      rw [List.map_reverse (f := PlacedLine.number), ← inOrder.holds]
      simp [heldJob]
    rw [List.map_append, List.map_append, inOrder.jobs, due]
  holds := rfl
  ordered := by simpa using inOrder.ordered
  passed placed inside := by
    rcases List.mem_append.mp inside with inside | inside
    · obtain ⟨lower, place⟩ := inOrder.passed placed inside
      omega
    · obtain ⟨lower, same, _⟩ := inOrder.waiting placed (List.mem_reverse.mp inside)
      omega
  waiting := nofun

/-- Following a read over a line keeps the order. -/
theorem step (inOrder : InOrder settings before number done held schedule)
    (isBehind : Behind settings before schedule) (line : LogLine) (behind : Nat) :
    ∃ laterDone laterHeld,
      InOrder settings (before + line.isMarker.toNat) (number + 1) laterDone laterHeld
          (schedule.step settings (line, number)) ∧
        laterDone ++ laterHeld ⊆ done ++ held ++ [⟨line, number, before, behind⟩] := by
  cases line with
  | damaged raw cause =>
    exact ⟨_, _, inOrder.process (.damaged raw cause) behind rfl, by grind⟩
  | text text =>
    have waits : PlacedLine.waits settings ⟨.text text, number, before, behind⟩ =
        schedule.rangeOpen := isBehind.rangeOpen.symm
    simp only [Schedule.step]
    split <;> rename_i untimed
    · have closed : schedule.rangeOpen = false := by
        rw [isBehind.rangeOpen, (by simpa using untimed : settings.timedRange = false),
          Bool.false_and]
      -- Without timed ranges a marker is processed as any other line, but it still counts.
      have processed := inOrder.process (.text text) behind (waits.trans closed)
      exact ⟨_, _, processed.pass (isBehind.held closed) (Nat.le_add_right ..), by grind⟩
    have skipped := inOrder.later (Nat.le_succ number)
    split <;> rename_i marked
    · rw [show (LogLine.text text).isMarker = true from marked]
      split <;> rename_i opened
      · exact ⟨_, _, inOrder.release _, by grind⟩
      · have empty := isBehind.held (Bool.eq_false_of_not_eq_true opened)
        have passed := skipped.pass empty (Nat.le_succ before)
        exact ⟨_, _, ⟨passed.jobs, passed.holds, passed.ordered, passed.passed, passed.waiting⟩,
          by grind⟩
    · rw [show (LogLine.text text).isMarker = false from Bool.eq_false_of_not_eq_true marked]
      split <;> rename_i opened
      · exact ⟨_, _, inOrder.hold text behind (waits.trans opened), by grind⟩
      split
      · exact ⟨_, _, ⟨skipped.jobs, skipped.holds, skipped.ordered, skipped.passed,
          skipped.waiting⟩, by grind⟩
      · have closed := Bool.eq_false_of_not_eq_true opened
        exact ⟨_, _, inOrder.process (.text text) behind (waits.trans closed), by grind⟩

/-- Following a read over lines keeps the order. -/
theorem foldl (inOrder : InOrder settings before number done held schedule)
    (isBehind : Behind settings before schedule) (lines : List LogLine) :
    ∃ laterDone laterHeld,
      InOrder settings (before + markers lines) (number + lines.length) laterDone laterHeld
          ((lines.zipIdx number).foldl (Schedule.step settings) schedule) ∧
        laterDone ++ laterHeld ⊆ done ++ held ++ PlacedLine.listFrom number before lines := by
  induction lines generalizing before number done held schedule with
  | nil => exact ⟨done, held, inOrder, by simp⟩
  | cons line lines inductionHypothesis =>
    obtain ⟨betweenDone, betweenHeld, stepped, fromHere⟩ :=
      inOrder.step isBehind line (markers lines)
    obtain ⟨onward, -⟩ := foreseen_step isBehind line number lines
    obtain ⟨laterDone, laterHeld, followed, fromThere⟩ := inductionHypothesis stepped onward
    rw [Nat.add_assoc, Nat.add_comm line.isMarker.toNat, ← markers_cons, Nat.add_assoc number,
      Nat.add_comm 1] at followed
    refine ⟨laterDone, laterHeld, followed, fun placed inside => ?_⟩
    have origin := fromThere inside
    have earlier := @fromHere placed
    simp only [PlacedLine.listFrom, List.mem_append, List.mem_cons, List.not_mem_nil, or_false]
      at origin earlier ⊢
    tauto

end InOrder

/-- A whole log is processed in the order of the keys. -/
theorem exists_inOrder (settings : ReaderSettings) (lines : List LogLine) :
    ∃ done ⊆ PlacedLine.listFrom 1 0 lines,
      ((lines.zipIdx 1).foldl (step settings) {}).jobs.map (·.2) = done.map (·.number) ∧
        done.Pairwise fun first second => first.key settings < second.key settings := by
  have start : InOrder settings 0 1 [] [] {} := ⟨rfl, rfl, .nil, nofun, nofun⟩
  obtain ⟨done, held, inOrder, inside⟩ := start.foldl (behind_empty settings) lines
  refine ⟨done, fun placed listed => ?_, inOrder.jobs,
    (List.pairwise_append.mp inOrder.ordered).1⟩
  simpa using inside (List.mem_append_left _ listed)

end Schedule

end JitTrace
