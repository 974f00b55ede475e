import JitTrace.Proofs.Line.Verdict

/-!
# The schedule of a read

Which lines are processed, and in which order, depends on the lines alone and not on what
becomes of them. A schedule says so: it follows a read through markers, lines held back in
an open range and lines left out. Deleting a line that is processed deletes it from the
schedule and leaves the rest as it was.
-/

namespace JitTrace

/-- How far a read has got, whatever has become of the lines. -/
structure Schedule where
  rangeOpen : Bool := false
  /-- The lines of the open range with their numbers, the latest first. -/
  held : List (Nat × String) := []
  /-- The lines processed so far with their numbers, in the order of processing. -/
  jobs : List (LogLine × Nat) := []
  filtered : Nat := 0

namespace Schedule

/-- A line that has been held back, as a line to be processed. -/
def heldJob (line : Nat × String) : LogLine × Nat :=
  (.text line.2, line.1)

/-- Follow a read over a numbered line. -/
def step (settings : ReaderSettings) (schedule : Schedule) (entry : LogLine × Nat) : Schedule :=
  match entry with
  | (.damaged raw cause, number) =>
    { schedule with jobs := schedule.jobs ++ [(.damaged raw cause, number)] }
  | (.text line, number) =>
    if !settings.timedRange then
      { schedule with jobs := schedule.jobs ++ [(.text line, number)] }
    else if timerMarker.toList.isPrefixOf line.toList then
      if schedule.rangeOpen then
        { schedule with
          rangeOpen := !settings.pairwiseTimedRange
          held := []
          jobs := schedule.jobs ++ schedule.held.reverse.map heldJob }
      else { schedule with rangeOpen := true }
    else if schedule.rangeOpen then { schedule with held := (number, line) :: schedule.held }
    else if "tick".toList.isPrefixOf line.toList then
      { schedule with filtered := schedule.filtered + 1 }
    else { schedule with jobs := schedule.jobs ++ [(.text line, number)] }

/-- The lines that have been processed or are held back. -/
def entries (schedule : Schedule) : List (LogLine × Nat) :=
  schedule.jobs ++ schedule.held.map heldJob

/-- The numbers of the lines that have been processed or are held back. -/
def numbers (schedule : Schedule) : List Nat :=
  schedule.jobs.map (·.2) ++ schedule.held.map (·.1)

theorem numbers_eq (schedule : Schedule) : schedule.numbers = schedule.entries.map (·.2) := by
  simp [numbers, entries, heldJob, Function.comp_def]

/-- A line is processed, held back or neither; then it is not entered. -/
theorem step_cases (settings : ReaderSettings) (schedule : Schedule) (line : LogLine)
    (number : Nat) :
    schedule.step settings (line, number) =
        { schedule with jobs := schedule.jobs ++ [(line, number)] } ∨
      (∃ text, line = .text text ∧ schedule.step settings (line, number) =
        { schedule with held := (number, text) :: schedule.held }) ∨
      (schedule.step settings (line, number)).entries.Perm schedule.entries := by
  cases line with
  | damaged raw cause => exact .inl rfl
  | text text =>
    simp only [step]
    split
    · exact .inl rfl
    · split
      · refine .inr (.inr ?_)
        split
        · simp [entries, List.perm_append_left_iff, List.reverse_perm]
        · exact .refl _
      · split
        · exact .inr (.inl ⟨text, rfl, rfl⟩)
        · split
          · exact .inr (.inr (.refl _))
          · exact .inl rfl

/-- A step enters at most its line. -/
theorem entries_step (settings : ReaderSettings) (schedule : Schedule) (entry : LogLine × Nat) :
    (schedule.step settings entry).entries.Perm schedule.entries ∨
      (schedule.step settings entry).entries.Perm (entry :: schedule.entries) := by
  obtain ⟨line, number⟩ := entry
  rcases schedule.step_cases settings line number with processed | ⟨text, rfl, held⟩ | neither
  · rw [processed]
    refine .inr ?_
    simp [entries]
  · rw [held]
    refine .inr ?_
    simp [entries, heldJob, List.perm_middle]
  · exact .inl neither

/-- A schedule has the entries that it had, and lines that came since. -/
theorem mem_entries_foldl {settings : ReaderSettings} {schedule : Schedule}
    {lines : List (LogLine × Nat)} {entry : LogLine × Nat}
    (inside : entry ∈ (lines.foldl (step settings) schedule).entries) :
    entry ∈ schedule.entries ∨ entry ∈ lines := by
  induction lines generalizing schedule with
  | nil => exact .inl inside
  | cons line lines inductionHypothesis =>
    rw [List.mem_cons]
    rcases inductionHypothesis inside with before | later
    · rcases schedule.entries_step settings line with same | added
      · exact .inl (same.mem_iff.mp before)
      · rcases List.mem_cons.mp (added.mem_iff.mp before) with isNew | isOld
        · exact .inr (.inl isNew)
        · exact .inl isOld
    · exact .inr (.inr later)

/-- A step adds at most the number of its line. -/
theorem numbers_step (settings : ReaderSettings) (schedule : Schedule) (entry : LogLine × Nat) :
    (schedule.step settings entry).numbers.Perm schedule.numbers ∨
      (schedule.step settings entry).numbers.Perm (entry.2 :: schedule.numbers) := by
  rw [numbers_eq, numbers_eq]
  exact (schedule.entries_step settings entry).imp (·.map _) (·.map _)

/-- A schedule has the numbers that it had, and those of the lines that came since. -/
theorem mem_numbers_foldl {settings : ReaderSettings} {schedule : Schedule}
    {lines : List (LogLine × Nat)} {number : Nat}
    (inside : number ∈ (lines.foldl (step settings) schedule).numbers) :
    number ∈ schedule.numbers ∨ number ∈ lines.map (·.2) := by
  rw [numbers_eq] at inside ⊢
  obtain ⟨entry, isEntered, rfl⟩ := List.mem_map.mp inside
  exact (mem_entries_foldl isEntered).imp List.mem_map_of_mem List.mem_map_of_mem

/-- No number is scheduled twice. -/
theorem nodup_numbers_foldl {settings : ReaderSettings} {schedule : Schedule}
    {lines : List (LogLine × Nat)} (nodup : schedule.numbers.Nodup)
    (distinct : (lines.map (·.2)).Nodup)
    (fresh : ∀ number ∈ lines.map (·.2), number ∉ schedule.numbers) :
    (lines.foldl (step settings) schedule).numbers.Nodup := by
  induction lines generalizing schedule with
  | nil => exact nodup
  | cons entry lines inductionHypothesis =>
    rw [List.map_cons, List.nodup_cons] at distinct
    rcases schedule.numbers_step settings entry with same | added
    · refine inductionHypothesis (same.nodup_iff.mpr nodup) distinct.2 ?_
      intro number later
      rw [same.mem_iff]
      exact fresh number (List.mem_cons_of_mem _ later)
    · refine inductionHypothesis ?_ distinct.2 ?_
      · rw [added.nodup_iff, List.nodup_cons]
        exact ⟨fresh entry.2 List.mem_cons_self, nodup⟩
      · intro number later
        rw [added.mem_iff, List.mem_cons]
        rintro (rfl | isOld)
        · exact distinct.1 later
        · exact fresh number (List.mem_cons_of_mem _ later) isOld

/-! ## Deleting lines -/

/-- The second schedule is the first one with only those lines that are kept, under any
numbers. -/
structure Thinned (keep : Nat → Bool) (schedule thinned : Schedule) : Prop where
  rangeOpen : thinned.rangeOpen = schedule.rangeOpen
  held : thinned.held.map (·.2) = (schedule.held.filter fun line => keep line.1).map (·.2)
  jobs : thinned.jobs.map (·.1) = (schedule.jobs.filter fun job => keep job.2).map (·.1)
  filtered : thinned.filtered = schedule.filtered

namespace Thinned

variable {keep : Nat → Bool} {schedule thinned : Schedule}

/-- A kept line that is processed. -/
theorem process (same : Thinned keep schedule thinned) (line : LogLine) {number : Nat}
    (other : Nat) (kept : keep number = true) :
    Thinned keep { schedule with jobs := schedule.jobs ++ [(line, number)] }
      { thinned with jobs := thinned.jobs ++ [(line, other)] } where
  rangeOpen := same.rangeOpen
  held := same.held
  jobs := by simp [same.jobs, kept]
  filtered := same.filtered

/-- The lines held back come due in both schedules. -/
theorem release (same : Thinned keep schedule thinned) :
    (thinned.jobs ++ thinned.held.reverse.map heldJob).map (·.1) =
      ((schedule.jobs ++ schedule.held.reverse.map heldJob).filter fun job =>
        keep job.2).map (·.1) := by
  have texts : ∀ lines : List (Nat × String),
      (lines.reverse.map heldJob).map (·.1) = (lines.map (·.2)).reverse.map LogLine.text := by
    intro lines
    simp [heldJob]
  have released : (schedule.held.reverse.map heldJob).filter (fun job => keep job.2) =
      ((schedule.held.filter fun line => keep line.1).reverse).map heldJob := by
    rw [List.filter_map, List.filter_reverse]
    rfl
  rw [List.map_append, List.filter_append, List.map_append, same.jobs, texts, released, texts,
    same.held]

/-- A kept line has the same effect on both schedules. -/
theorem step_kept (same : Thinned keep schedule thinned) (settings : ReaderSettings)
    (line : LogLine) {number : Nat} (other : Nat) (kept : keep number = true) :
    Thinned keep (schedule.step settings (line, number)) (thinned.step settings (line, other)) := by
  cases line with
  | damaged raw cause => exact same.process _ other kept
  | text text =>
    have processed := same.process (.text text) other kept
    have isOpen := same.rangeOpen
    obtain ⟨wasOpen, held, jobs, filtered⟩ := thinned
    obtain rfl : wasOpen = schedule.rangeOpen := isOpen
    simp only [step]
    split
    · exact processed
    · split
      · split
        · exact ⟨rfl, rfl, same.release, same.filtered⟩
        · exact ⟨rfl, same.held, same.jobs, same.filtered⟩
      · split
        · have extended : text :: held.map (·.2) =
              (((number, text) :: schedule.held).filter fun line => keep line.1).map (·.2) := by
            rw [List.filter_cons_of_pos (by exact kept), List.map_cons, ← same.held]
          exact ⟨rfl, extended, same.jobs, same.filtered⟩
        · split
          · exact ⟨rfl, same.held, same.jobs, congrArg (· + 1) same.filtered⟩
          · exact processed

/-- A line that is processed or held back can be deleted. -/
theorem step_dropped (same : Thinned keep schedule thinned) (settings : ReaderSettings)
    (line : LogLine) {number : Nat} (dropped : keep number = false)
    (fresh : number ∉ schedule.numbers)
    (scheduled : number ∈ (schedule.step settings (line, number)).numbers) :
    Thinned keep (schedule.step settings (line, number)) thinned := by
  rcases schedule.step_cases settings line number with processed | ⟨text, rfl, held⟩ | neither
  · rw [processed]
    have shortened : thinned.jobs.map (·.1) =
        ((schedule.jobs ++ [(line, number)]).filter fun job => keep job.2).map (·.1) := by
      simp [same.jobs, dropped]
    exact ⟨same.rangeOpen, same.held, shortened, same.filtered⟩
  · rw [held]
    have shortened : thinned.held.map (·.2) =
        (((number, text) :: schedule.held).filter fun line => keep line.1).map (·.2) := by
      simp [same.held, dropped]
    exact ⟨same.rangeOpen, shortened, same.jobs, same.filtered⟩
  · rw [numbers_eq] at fresh scheduled
    exact absurd ((neither.map _).mem_iff.mp scheduled) fresh

/-- Lines that end up processed or held back can be deleted from a read. -/
theorem foldl (same : Thinned keep schedule thinned) (settings : ReaderSettings)
    {lines others : List (LogLine × Nat)} (distinct : (lines.map (·.2)).Nodup)
    (fresh : ∀ number ∈ lines.map (·.2), number ∉ schedule.numbers)
    (dropped : ∀ number ∈ lines.map (·.2), keep number = false →
      number ∈ (lines.foldl (step settings) schedule).numbers)
    (remaining : others.map (·.1) = (lines.filter fun entry => keep entry.2).map (·.1)) :
    Thinned keep (lines.foldl (step settings) schedule)
      (others.foldl (step settings) thinned) := by
  induction lines generalizing schedule thinned others with
  | nil =>
    obtain rfl : others = [] := by simpa using remaining
    exact same
  | cons entry lines inductionHypothesis =>
    obtain ⟨line, number⟩ := entry
    rw [List.map_cons, List.nodup_cons] at distinct
    have here : number ∉ schedule.numbers := fresh number List.mem_cons_self
    have onward : ∀ later ∈ lines.map (·.2),
        later ∉ (schedule.step settings (line, number)).numbers := by
      intro later inside
      have old := fresh later (List.mem_cons_of_mem _ inside)
      rcases schedule.numbers_step settings (line, number) with unnumbered | added
      · rwa [unnumbered.mem_iff]
      · rw [added.mem_iff, List.mem_cons]
        rintro (rfl | isOld)
        · exact distinct.1 inside
        · exact old isOld
    have later : ∀ other ∈ lines.map (·.2), keep other = false →
        other ∈ (lines.foldl (step settings) (schedule.step settings (line, number))).numbers :=
      fun other inside => dropped other (List.mem_cons_of_mem _ inside)
    cases kept : keep number with
    | true =>
      rw [List.filter_cons_of_pos (by simpa using kept)] at remaining
      obtain ⟨⟨other, otherNumber⟩, others, rfl, rfl, rest⟩ := List.map_eq_cons_iff.mp remaining
      rw [List.foldl_cons, List.foldl_cons]
      exact inductionHypothesis (same.step_kept settings other otherNumber kept) distinct.2 onward
        later rest
    | false =>
      rw [List.filter_cons_of_neg (by simpa using kept)] at remaining
      have listed := dropped number List.mem_cons_self kept
      rw [List.foldl_cons] at listed
      have scheduled : number ∈ (schedule.step settings (line, number)).numbers := by
        rcases mem_numbers_foldl listed with now | later
        · exact now
        · exact absurd later distinct.1
      rw [List.foldl_cons]
      exact inductionHypothesis (same.step_dropped settings line kept here scheduled) distinct.2
        onward later remaining

end Thinned

end Schedule

end JitTrace
