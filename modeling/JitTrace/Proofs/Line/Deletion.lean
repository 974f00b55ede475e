import JitTrace.Proofs.Line.Following

/-!
# Deleting lines from a log

A log falls into lines, each with the line feed that ends it. Without the lines that fail,
a log reads as it did before, and no line fails: a failing line has no effect but its
record and its number.
-/

namespace JitTrace

namespace LogReader

/-- The lines of a byte sequence together with their line feeds. -/
def rawLines : List UInt8 → List (List UInt8)
  | [] => []
  | byte :: bytes =>
    if byte == 10 then [10] :: rawLines bytes
    else
      match rawLines bytes with
      | [] => [[byte]]
      | line :: lines => (byte :: line) :: lines

/-- A log without the lines of certain numbers. -/
def withoutLines (numbers : List Nat) (bytes : List UInt8) : List UInt8 :=
  (((rawLines bytes).zipIdx 1).filter fun line => line.2 ∉ numbers).flatMap (·.1)

/-- What is read of a line: neither its line feed nor a carriage return before that. -/
def lineText (raw : List UInt8) : List UInt8 :=
  let line := if raw.getLast? == some 10 then raw.dropLast else raw
  if line.getLast? == some 13 then line.dropLast else line

/-- Every line is complete: it ends where its line feed is, and only the last line may do
without one. -/
structure Whole (lines : List (List UInt8)) : Prop where
  ended : lines.Pairwise fun line _ => line.getLast? = some 10
  single : ∀ line ∈ lines, line ≠ [] ∧ 10 ∉ line.dropLast

theorem Whole.sublist {lines kept : List (List UInt8)} (whole : Whole lines)
    (sub : kept.Sublist lines) : Whole kept where
  ended := whole.ended.sublist sub
  single := fun line inside => whole.single line (sub.subset inside)

theorem flatten_rawLines (bytes : List UInt8) : (rawLines bytes).flatten = bytes := by
  induction bytes with
  | nil => rfl
  | cons byte bytes inductionHypothesis =>
    rw [rawLines]
    split
    · rename_i isFeed
      rw [List.flatten_cons, inductionHypothesis, eq_of_beq isFeed]
      rfl
    · split <;> rename_i found <;> rw [found] at inductionHypothesis <;>
        simp [← inductionHypothesis]

/-- The lines of a byte sequence are whole. -/
theorem whole_rawLines (bytes : List UInt8) : Whole (rawLines bytes) := by
  induction bytes with
  | nil => exact ⟨.nil, by simp [rawLines]⟩
  | cons byte bytes inductionHypothesis =>
    rw [rawLines]
    split
    · refine ⟨List.pairwise_cons.mpr ⟨fun _ _ => rfl, inductionHypothesis.ended⟩, ?_⟩
      rintro line (_ | ⟨_, inside⟩)
      · simp
      · exact inductionHypothesis.single line inside
    · rename_i isOther
      have differs : 10 ≠ byte := by
        rintro rfl
        exact isOther rfl
      split
      · exact ⟨List.pairwise_singleton _ _, by simp⟩
      · rename_i line lines found
        rw [found] at inductionHypothesis
        obtain ⟨nonempty, single⟩ := inductionHypothesis.single line List.mem_cons_self
        obtain ⟨ended, others⟩ := List.pairwise_cons.mp inductionHypothesis.ended
        refine ⟨List.pairwise_cons.mpr ⟨?_, others⟩, ?_⟩
        · intro other inside
          rw [List.getLast?_cons_of_ne_nil nonempty]
          exact ended other inside
        · rintro other (_ | ⟨_, inside⟩)
          · rw [List.dropLast_cons_of_ne_nil nonempty, List.mem_cons, not_or]
            exact ⟨List.cons_ne_nil _ _, differs, single⟩
          · exact inductionHypothesis.single other (List.mem_cons_of_mem _ inside)

/-! ## Taking lines apart again -/

theorem lineText_append_feed (line : List UInt8) :
    lineText (line ++ [10]) = if line.getLast? == some 13 then line.dropLast else line := by
  simp [lineText]

/-- The first line feed ends the first line. -/
theorem byteLines_append_cons {line : List UInt8} (single : 10 ∉ line) (rest : List UInt8) :
    byteLines (line ++ 10 :: rest) = lineText (line ++ [10]) :: byteLines rest := by
  obtain ⟨piece, pieces, split⟩ := List.exists_cons_of_ne_nil (List.splitOn_ne_nil 10 rest)
  rw [lineText_append_feed]
  simp only [byteLines, List.splitOn_append_cons_self_of_not_mem single, split,
    List.getLastD_cons, List.dropLast_cons_cons]
  split <;> rfl

/-- A line without a line feed is the last one. -/
theorem byteLines_singleton {line : List UInt8} (nonempty : line ≠ []) (single : 10 ∉ line) :
    byteLines line = [lineText line] := by
  have unended : line.getLast? ≠ some 10 := fun ends => single (List.mem_of_getLast? ends)
  simp [byteLines, lineText, List.splitOn_eq_singleton single, nonempty, unended]

/-- Whole lines are what their bytes are read as. -/
theorem byteLines_flatten {lines : List (List UInt8)} (whole : Whole lines) :
    byteLines lines.flatten = lines.map lineText := by
  induction lines with
  | nil => rfl
  | cons line lines inductionHypothesis =>
    obtain ⟨nonempty, single⟩ := whole.single line List.mem_cons_self
    have remaining := inductionHypothesis (whole.sublist (List.sublist_cons_self ..))
    rw [List.flatten_cons, List.map_cons, ← remaining]
    by_cases ends : line.getLast? = some 10
    · obtain ⟨body, rfl⟩ := List.getLast?_eq_some_iff.mp ends
      rw [List.dropLast_concat] at single
      rw [List.append_assoc, List.singleton_append, byteLines_append_cons single]
    · -- Only the last line may do without a line feed.
      obtain rfl : lines = [] := by
        cases lines with
        | nil => rfl
        | cons next lines =>
          exact absurd ((List.pairwise_cons.mp whole.ended).1 next List.mem_cons_self) ends
      have free : 10 ∉ line := by
        intro inside
        rw [← List.dropLast_concat_getLast nonempty, List.mem_append, List.mem_singleton] at inside
        rcases inside with before | atEnd
        · exact single before
        · exact ends (atEnd ▸ List.getLast?_eq_some_getLast nonempty)
      rw [List.flatten_nil, List.append_nil, byteLines_singleton nonempty free]
      rfl

/-- Deleting lines leaves the other ones as they were. -/
theorem byteLines_withoutLines (numbers : List Nat) (bytes : List UInt8) :
    byteLines (withoutLines numbers bytes) =
      (((byteLines bytes).zipIdx 1).filter fun line => line.2 ∉ numbers).map (·.1) := by
  have kept : ((((rawLines bytes).zipIdx 1).filter fun line => line.2 ∉ numbers).map (·.1)).Sublist
      (rawLines bytes) := by
    have sub := (List.filter_sublist (p := fun line : List UInt8 × Nat => line.2 ∉ numbers)
      (l := (rawLines bytes).zipIdx 1)).map Prod.fst
    rwa [List.zipIdx_map_fst] at sub
  rw [withoutLines, List.flatMap_def, byteLines_flatten ((whole_rawLines bytes).sublist kept)]
  rw [← flatten_rawLines bytes, byteLines_flatten (whole_rawLines bytes), flatten_rawLines]
  rw [List.zipIdx_map, List.filter_map, List.map_map, List.map_map]
  rfl

/-! ## Reading without the lines that fail -/

variable {Sink : Type} {alike : Sink → Sink → Prop}

/-- The numbered lines of a log, as a read sees them. -/
def numberedLines (bytes : List UInt8) : List (LogLine × Nat) :=
  ((byteLines bytes).map LogLine.decode).zipIdx 1

/-- What a read of a log comes to. -/
theorem exists_processBytes (reader : LogReader Sink) (forgiving : reader.table.Forgiving alike)
    {sink : Sink} (proper : alike sink sink) (bytes : List UInt8) :
    ∃ reading, reader.processBytes bytes { sink } = (.ok (), reading) ∧
      reader.Follows alike { sink }
        ((numberedLines bytes).foldl (Schedule.step reader.settings) {}) reading := by
  have start : reader.Follows alike { sink } {} { sink } := ⟨rfl, rfl, rfl, rfl, rfl, proper⟩
  exact start.processByteLines forgiving (byteLines bytes)

/-- The numbers of the lines of a log are different. -/
theorem nodup_numberedLines (bytes : List UInt8) : ((numberedLines bytes).map (·.2)).Nodup := by
  rw [numberedLines, List.zipIdx_map_snd]
  exact List.nodup_range'

theorem numberedLines_withoutLines (numbers : List Nat) (bytes : List UInt8) :
    (numberedLines (withoutLines numbers bytes)).map (·.1) =
      ((numberedLines bytes).filter fun line => line.2 ∉ numbers).map (·.1) := by
  rw [numberedLines, List.zipIdx_map_fst, byteLines_withoutLines, numberedLines, List.zipIdx_map,
    List.filter_map, List.map_map, List.map_map]
  rfl

/-- Without the lines that fail, a log comes to the same and no line of it fails. -/
theorem exists_processBytes_withoutLines (reader : LogReader Sink)
    (forgiving : reader.table.Forgiving alike) {sink : Sink} (proper : alike sink sink)
    (bytes : List UInt8) :
    ∃ reading kept, reader.processBytes bytes { sink } = (.ok (), reading) ∧
      reader.processBytes (withoutLines (reading.failures.toList.map (·.line)) bytes) { sink } =
        (.ok (), kept) ∧
      (reading.failures.toList.map (·.line)).Nodup ∧
      reading.ledger.Cleared alike kept.ledger ∧
      kept.counts.filtered = reading.counts.filtered := by
  obtain ⟨reading, read, follows⟩ := reader.exists_processBytes forgiving proper bytes
  let numbers := reading.failures.toList.map (·.line)
  obtain ⟨kept, reread, keptFollows⟩ :=
    reader.exists_processBytes forgiving proper (withoutLines numbers bytes)
  let schedule := (numberedLines bytes).foldl (Schedule.step reader.settings) {}
  have failed : (schedule.jobs.foldl reader.settle { sink }).failed = numbers := by
    rw [← follows.ledger]
    rfl
  have nodup : schedule.numbers.Nodup :=
    Schedule.nodup_numbers_foldl List.nodup_nil (nodup_numberedLines bytes)
      (by simp [Schedule.numbers])
  have processed : numbers.Sublist (schedule.jobs.map (·.2)) := by
    rw [← failed]
    exact reader.foldl_failed_sublist schedule.jobs { sink }
  have distinct : (schedule.jobs.map (·.2)).Nodup := (List.nodup_append.mp nodup).1
  -- A line that failed was processed, so it can be deleted from the schedule.
  have scheduled : ∀ number ∈ numbers, number ∈ schedule.numbers := fun number inside =>
    List.mem_append_left _ (processed.subset inside)
  have start : Schedule.Thinned (fun number => number ∉ numbers) {} {} := ⟨rfl, rfl, rfl, rfl⟩
  have thinned := start.foldl reader.settings (nodup_numberedLines bytes)
    (by simp [Schedule.numbers]) (fun number _ dropped => scheduled number (by simpa using dropped))
    (numberedLines_withoutLines numbers bytes)
  refine ⟨reading, kept, read, reread, distinct.sublist processed, ?_, ?_⟩
  · rw [follows.ledger, keptFollows.ledger]
    refine cleared_foldl forgiving ⟨proper, rfl, rfl, rfl⟩ distinct (by simp [Ledger.failed]) ?_
    rw [failed]
    exact thinned.jobs
  · rw [follows.filtered, keptFollows.filtered, thinned.filtered]

end LogReader

end JitTrace
