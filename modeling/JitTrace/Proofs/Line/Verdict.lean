import JitTrace.Line.Reader
import JitTrace.Proofs.Outcome

/-!
# Verdicts on lines

What a read makes of a line depends on the line and on the sink alone. A ledger holds what
the lines processed so far have come to. When a failing line leaves nothing in the sink,
processing the other lines alone comes to the same, without failures.
-/

namespace JitTrace

/-- A line of a log, read as text where it is text. -/
inductive LogLine where
  | text (line : String)
  | damaged (raw : List UInt8) (cause : Text.Utf8Fault)

/-- Read a line. -/
def LogLine.decode (raw : List UInt8) : LogLine :=
  match Text.decodeUtf8 raw with
  | .ok line => .text line
  | .error cause => .damaged raw cause

/-- What becomes of a line that is processed. -/
inductive Verdict where
  /-- The line is blank. -/
  | passed
  | dispatched
  /-- Nobody handles the record. -/
  | unknown
  | failed (command : Option String) (message : String)

/-- What the lines processed so far have come to. -/
structure Ledger (Sink : Type) where
  sink : Sink
  failures : Array LineFailure := #[]
  dispatched : Nat := 0
  unknown : Nat := 0

/-- Enter what has become of a line. -/
def Ledger.enter {Sink : Type} (ledger : Ledger Sink) (number : Nat) : Verdict → Ledger Sink
  | .passed => ledger
  | .dispatched => { ledger with dispatched := ledger.dispatched + 1 }
  | .unknown => { ledger with unknown := ledger.unknown + 1 }
  | .failed command message =>
    { ledger with failures := ledger.failures.push ⟨number, command, message⟩ }

/-- The numbers of the lines that failed. -/
def Ledger.failed {Sink : Type} (ledger : Ledger Sink) : List Nat :=
  ledger.failures.toList.map (·.line)

namespace LogReader

variable {Sink : Type}

/-- What becomes of a line, and the sink it leaves behind. -/
def judge (reader : LogReader Sink) (line : LogLine) (sink : Sink) : Verdict × Sink :=
  match line with
  | .damaged raw cause =>
    let name := raw.takeWhile (· != 44)
    let command := if name.isEmpty then none else some (String.ofList (Text.decodeUtf8Lossy name))
    (.failed command (Fault.message (.parse (.undecodable cause))), sink)
  | .text line =>
    if (Text.trim line.toList).isEmpty then (.passed, sink)
    else
      match Line.fields line with
      | .error fault => (.failed none fault.message, sink)
      | .ok tokens =>
        let dispatched := reader.table.dispatch tokens false sink
        match dispatched.result with
        | .ok true => (.dispatched, dispatched.sink)
        | .ok false => (.unknown, dispatched.sink)
        | .error fault => (.failed tokens.head? fault.message, dispatched.sink)

/-- Process a numbered line. -/
def settle (reader : LogReader Sink) (ledger : Ledger Sink) (job : LogLine × Nat) : Ledger Sink :=
  let (verdict, sink) := reader.judge job.1 ledger.sink
  { ledger with sink }.enter job.2 verdict

end LogReader

/-- A table forgives a failing line: it reacts to lines in alike ways on alike sinks, and
a line that fails leaves behind a sink that is alike to the one before. None of its
handlers ends the read. -/
structure RecordTable.Forgiving {Sink : Type} (table : RecordTable Sink)
    (alike : Sink → Sink → Prop) : Prop where
  agree : ∀ tokens {left right}, alike left right →
    (table.dispatch tokens false left).result = (table.dispatch tokens false right).result ∧
      alike (table.dispatch tokens false left).sink (table.dispatch tokens false right).sink
  failed : ∀ tokens {left right}, alike left right → ∀ fault,
    (table.dispatch tokens false left).result = .error fault →
      fault.isCancellation = false ∧ alike (table.dispatch tokens false left).sink right
  calm : ∀ tokens {left right}, alike left right →
    (table.dispatch tokens false left).cancels = false

namespace LogReader

variable {Sink : Type} {reader : LogReader Sink} {alike : Sink → Sink → Prop}

/-- Alike sinks get the same verdict. -/
theorem agree_judge (forgiving : reader.table.Forgiving alike) {left right : Sink}
    (same : alike left right) (line : LogLine) :
    Agree alike (reader.judge line left) (reader.judge line right) := by
  cases line with
  | damaged raw cause => exact ⟨_, left, right, rfl, rfl, same⟩
  | text line =>
    simp only [judge]
    split
    · exact ⟨_, left, right, rfl, rfl, same⟩
    · cases Line.fields line with
      | error fault => exact ⟨_, left, right, rfl, rfl, same⟩
      | ok tokens =>
        obtain ⟨results, sinks⟩ := forgiving.agree tokens same
        dsimp only
        rw [← results]
        split <;> exact ⟨_, _, _, rfl, rfl, sinks⟩

/-- A failing line leaves nothing in the sink. -/
theorem judge_failed (forgiving : reader.table.Forgiving alike) {left right : Sink}
    (same : alike left right) {line : LogLine} {command : Option String} {message : String}
    (fails : (reader.judge line left).1 = .failed command message) :
    alike (reader.judge line left).2 right := by
  cases line with
  | damaged raw cause => exact same
  | text line =>
    revert fails
    simp only [judge]
    split
    · nofun
    · cases Line.fields line with
      | error fault => exact fun _ => same
      | ok tokens =>
        dsimp only
        split
        · nofun
        · nofun
        · rename_i fault result
          exact fun _ => (forgiving.failed tokens same fault result).2

/-! ## Processing numbered lines -/

/-- What becomes of a line makes no difference to the sink that it leaves behind. -/
theorem sink_settle (reader : LogReader Sink) (ledger : Ledger Sink) (job : LogLine × Nat) :
    (reader.settle ledger job).sink = (reader.judge job.1 ledger.sink).2 := by
  simp only [settle]
  cases (reader.judge job.1 ledger.sink).1 <;> rfl

/-- A line that fails is put on record under its number, any other line is not. -/
theorem settle_cases (reader : LogReader Sink) (ledger : Ledger Sink) (job : LogLine × Nat) :
    (∃ command message, (reader.judge job.1 ledger.sink).1 = .failed command message ∧
      (reader.settle ledger job).failed = ledger.failed ++ [job.2]) ∨
    (∀ command message, (reader.judge job.1 ledger.sink).1 ≠ .failed command message) ∧
      (reader.settle ledger job).failed = ledger.failed := by
  obtain ⟨line, number⟩ := job
  simp only [settle]
  cases (reader.judge line ledger.sink).1 with
  | failed command message =>
    exact .inl ⟨command, message, rfl, by simp [Ledger.enter, Ledger.failed]⟩
  | passed => exact .inr ⟨nofun, rfl⟩
  | dispatched => exact .inr ⟨nofun, rfl⟩
  | unknown => exact .inr ⟨nofun, rfl⟩

/-- What is on record stays on record. -/
theorem failed_subset_foldl (reader : LogReader Sink) (jobs : List (LogLine × Nat))
    (ledger : Ledger Sink) : ledger.failed ⊆ (jobs.foldl reader.settle ledger).failed := by
  induction jobs generalizing ledger with
  | nil => exact List.Subset.refl _
  | cons job jobs inductionHypothesis =>
    refine List.Subset.trans ?_ (inductionHypothesis (reader.settle ledger job))
    rcases reader.settle_cases ledger job with ⟨_, _, _, recorded⟩ | ⟨_, recorded⟩
    · rw [recorded]
      exact List.subset_append_left ..
    · rw [recorded]
      exact List.Subset.refl _

/-- Only lines that were processed are on record, in the order of processing and each once. -/
theorem foldl_failed_sublist (reader : LogReader Sink) (jobs : List (LogLine × Nat))
    (ledger : Ledger Sink) :
    (jobs.foldl reader.settle ledger).failed.Sublist (ledger.failed ++ jobs.map (·.2)) := by
  induction jobs generalizing ledger with
  | nil => simp
  | cons job jobs inductionHypothesis =>
    refine List.Sublist.trans (inductionHypothesis (reader.settle ledger job)) ?_
    rcases reader.settle_cases ledger job with ⟨_, _, _, recorded⟩ | ⟨_, recorded⟩
    · simp [recorded]
    · rw [recorded]
      exact (List.sublist_cons_self ..).append_left _

end LogReader

/-- The second ledger has come to the same as the first one, without failures. -/
structure Ledger.Cleared {Sink : Type} (alike : Sink → Sink → Prop) (left right : Ledger Sink) :
    Prop where
  sink : alike left.sink right.sink
  dispatched : right.dispatched = left.dispatched
  unknown : right.unknown = left.unknown
  failures : right.failures = #[]

namespace LogReader

variable {Sink : Type} {reader : LogReader Sink} {alike : Sink → Sink → Prop}
  {left right : Ledger Sink}

/-- A line that fails need not be processed at all. -/
theorem cleared_settle_failed (forgiving : reader.table.Forgiving alike)
    (cleared : left.Cleared alike right) {job : LogLine × Nat} {command : Option String}
    {message : String} (fails : (reader.judge job.1 left.sink).1 = .failed command message) :
    (reader.settle left job).Cleared alike right := by
  have unchanged := judge_failed forgiving cleared.sink fails
  simp only [settle, fails]
  exact ⟨unchanged, cleared.dispatched, cleared.unknown, cleared.failures⟩

/-- A line that does not fail is processed alike. -/
theorem cleared_settle (forgiving : reader.table.Forgiving alike)
    (cleared : left.Cleared alike right) (line : LogLine) (number other : Nat)
    (succeeds : ∀ command message, (reader.judge line left.sink).1 ≠ .failed command message) :
    (reader.settle left (line, number)).Cleared alike (reader.settle right (line, other)) := by
  obtain ⟨verdict, first, second, onLeft, onRight, sinks⟩ :=
    agree_judge forgiving cleared.sink line
  rw [onLeft] at succeeds
  simp only [settle, onLeft, onRight]
  cases verdict with
  | failed command message => exact absurd rfl (succeeds command message)
  | passed => exact ⟨sinks, cleared.dispatched, cleared.unknown, cleared.failures⟩
  | dispatched =>
    exact ⟨sinks, congrArg (· + 1) cleared.dispatched, cleared.unknown, cleared.failures⟩
  | unknown => exact ⟨sinks, cleared.dispatched, congrArg (· + 1) cleared.unknown, cleared.failures⟩

/-- Processing only those lines that do not fail comes to the same, without failures. -/
theorem cleared_foldl (forgiving : reader.table.Forgiving alike)
    {jobs others : List (LogLine × Nat)} (cleared : left.Cleared alike right)
    (distinct : (jobs.map (·.2)).Nodup)
    (fresh : ∀ number ∈ jobs.map (·.2), number ∉ left.failed)
    (same : others.map (·.1) = (jobs.filter fun job =>
      job.2 ∉ (jobs.foldl reader.settle left).failed).map (·.1)) :
    (jobs.foldl reader.settle left).Cleared alike (others.foldl reader.settle right) := by
  induction jobs generalizing left right others with
  | nil =>
    obtain rfl : others = [] := by simpa using same
    exact cleared
  | cons job jobs inductionHypothesis =>
    obtain ⟨line, number⟩ := job
    rw [List.map_cons, List.nodup_cons] at distinct
    have onward : ∀ later ∈ jobs.map (·.2), later ∉ (reader.settle left (line, number)).failed := by
      intro later inside
      have old := fresh later (by simp_all)
      rcases reader.settle_cases left (line, number) with ⟨_, _, _, recorded⟩ | ⟨_, recorded⟩
      · rw [recorded, List.mem_append, List.mem_singleton]
        rintro (isOld | rfl)
        · exact old isOld
        · exact distinct.1 inside
      · rwa [recorded]
    rw [List.foldl_cons] at same ⊢
    rcases reader.settle_cases left (line, number) with
      ⟨command, message, fails, recorded⟩ | ⟨succeeds, recorded⟩
    · have listed :
          number ∈ (jobs.foldl reader.settle (reader.settle left (line, number))).failed :=
        reader.failed_subset_foldl jobs _ (by simp [recorded])
      rw [List.filter_cons_of_neg (by simpa using listed)] at same
      exact inductionHypothesis (cleared_settle_failed forgiving cleared fails) distinct.2 onward
        same
    · have unlisted :
          number ∉ (jobs.foldl reader.settle (reader.settle left (line, number))).failed := by
        intro listed
        have known := (reader.foldl_failed_sublist jobs _).subset listed
        rcases List.mem_append.mp known with isOld | isLater
        · exact fresh number (by simp) (recorded ▸ isOld)
        · exact distinct.1 isLater
      rw [List.filter_cons_of_pos (by simpa using unlisted)] at same
      obtain ⟨⟨kept, other⟩, others, rfl, rfl, rest⟩ := List.map_eq_cons_iff.mp same
      rw [List.foldl_cons]
      exact inductionHypothesis (cleared_settle forgiving cleared kept number other succeeds)
        distinct.2 onward rest

end LogReader

end JitTrace
