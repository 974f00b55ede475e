import JitTrace.Proofs.Line.Verdict
import JitTrace.Proofs.Trace.Likeness

/-!
# The table of the records that are understood

The declared layouts of all records are sound, so the table exists. It forgives failing
lines: whether the fields cannot be told apart, the event cannot be read or the event
cannot be applied, nothing that counts has changed by then.
-/

namespace JitTrace

/-- A record of the table reads its fields as they are declared and handles them as an
event. -/
structure RecordSpec.Implements (spec : RecordSpec Analyzer) (record : TraceRecord) : Prop where
  known : record ∈ TraceRecord.all
  name : spec.name = record.name
  layout : Layout.ofParsers record.name record.fields = .ok spec.layout
  handler : spec.handler = Analyzer.handler record

/-- A record of the table is one that is understood. -/
def RecordSpec.Understood (spec : RecordSpec Analyzer) : Prop :=
  ∃ record, spec.Implements record

/-- A line says this event: there is such a record, and this is what its fields are read as. -/
def TraceEvent.SaidBy (event : TraceEvent) (version : Version) (command : String)
    (fields : List String) : Prop :=
  ∃ record ∈ TraceRecord.all, record.name = command ∧
    ∃ layout arguments, Layout.ofParsers record.name record.fields = .ok layout ∧
      layout.read command fields false = .ok arguments ∧
      record.read version arguments = .ok event

namespace TraceRecord

/-- The layouts of all records are sound. -/
theorem exists_layout :
    ∀ record ∈ all, ∃ layout, Layout.ofParsers record.name record.fields = .ok layout := by
  have sound : ∀ record ∈ all, (Layout.ofParsers record.name record.fields).isOk = true := by
    decide
  intro record inside
  cases checked : Layout.ofParsers record.name record.fields with
  | error fault => simpa [checked, Except.isOk, Except.toBool] using sound record inside
  | ok layout => exact ⟨layout, rfl⟩

/-- No record has a field of an unusual conversion. -/
theorem plain_fields : ∀ record ∈ all, ∀ parser ∈ record.fields, parser.Plain := by
  simp [all, icNames, icRecord, FieldParser.Plain, FieldParser.reader?]

end TraceRecord

/-- Where the fields of a record that is understood cannot be read, the line alone is at
fault. -/
theorem RecordSpec.Implements.ofLine_read {spec : RecordSpec Analyzer} {record : TraceRecord}
    (implements : spec.Implements record) (command : String) (tokens : List String)
    (cancelled : Bool) : OfLine (spec.layout.read command tokens cancelled) :=
  Layout.ofLine_read (Layout.plain_of_checked (Layout.checked_check implements.layout)
    (TraceRecord.plain_fields record implements.known)) command tokens cancelled

namespace Analyzer

/-- Records that are understood can be added to a table. -/
theorem exists_register (records : List TraceRecord) (known : records ⊆ TraceRecord.all)
    {start : RecordTable Analyzer} (understood : ∀ spec ∈ start.records, spec.Understood) :
    ∃ table, records.foldlM
        (fun table record => table.register record.name record.fields (handler record)) start =
      .ok table ∧ ∀ spec ∈ table.records, spec.Understood := by
  induction records generalizing start with
  | nil => exact ⟨start, rfl, understood⟩
  | cons record records inductionHypothesis =>
    obtain ⟨inside, others⟩ := List.cons_subset.mp known
    obtain ⟨layout, checked⟩ := TraceRecord.exists_layout record inside
    simp only [List.foldlM_cons, RecordTable.register, checked, Except.map]
    refine inductionHypothesis others ?_
    intro spec listed
    rcases List.mem_append.mp listed with old | new
    · exact understood spec (List.mem_of_mem_filter old)
    · obtain rfl := List.mem_singleton.mp new
      exact ⟨record, inside, rfl, checked, rfl⟩

/-- The table of all records exists. -/
theorem exists_recordTable :
    ∃ table, recordTable = .ok table ∧ ∀ spec ∈ table.records, spec.Understood :=
  exists_register TraceRecord.all (List.Subset.refl _) (by simp)

/-- The reaction to a record, as an outcome. -/
theorem Alike.handle {left right : Analyzer} (alike : Alike left right) {record : TraceRecord}
    (inside : record ∈ TraceRecord.all) {arguments : Arguments}
    (fits : arguments.Fits record.fields) :
    Steady Alike right
      ((handler record arguments left).result, (handler record arguments left).sink)
      ((handler record arguments right).result, (handler record arguments right).sink) := by
  have version : right.version = left.version := by rw [alike.rest]
  have ofLine := TraceRecord.ofLine_read left.version record inside fits
  simp only [handler, version]
  cases read : record.read left.version arguments with
  | error fault =>
    exact .of_error alike alike (Fault.isCancellation_of_isOfLine (ofLine fault read))
  | ok event => exact alike.apply event

theorem handler_cancels (record : TraceRecord) (arguments : Arguments) (analyzer : Analyzer) :
    (handler record arguments analyzer).cancels = false := by
  simp only [handler]
  split <;> rfl

end Analyzer

namespace RecordTable

variable {table : RecordTable Analyzer}

/-- A line says nothing, and is at fault if it fails, or the event that it says is applied. -/
theorem dispatch_cases (understood : ∀ spec ∈ table.records, spec.Understood)
    (command : String) (fields : List String) (analyzer : Analyzer) :
    let dispatched := table.dispatch (command :: fields) false analyzer
    (dispatched.sink = analyzer ∧
        ∀ fault, dispatched.result = .error fault → fault.isOfLine = true) ∨
      ∃ event : TraceEvent, event.SaidBy analyzer.version command fields ∧
        dispatched.sink = (analyzer.apply event).2 ∧
        dispatched.result = (analyzer.apply event).1.map fun _ => true := by
  rw [dispatch]
  cases found : table.find? command with
  | none => exact .inl ⟨rfl, nofun⟩
  | some spec =>
    obtain ⟨record, implements⟩ := understood spec (List.mem_of_find?_eq_some found)
    have named : spec.name = command := by simpa using List.find?_some found
    have name : record.name = command := implements.name.symm.trans named
    dsimp only
    cases read : spec.layout.read command fields false with
    | error cause =>
      refine .inl ⟨rfl, ?_⟩
      rintro _ ⟨⟩
      exact implements.ofLine_read command fields false _ read
    | ok arguments =>
      have fits := Layout.fits_read implements.layout read
      simp only [implements.handler, Analyzer.handler]
      cases said : record.read analyzer.version arguments with
      | error cause =>
        refine .inl ⟨rfl, ?_⟩
        rintro _ ⟨⟩
        exact TraceRecord.ofLine_read analyzer.version record implements.known fits _ said
      | ok event =>
        exact .inr ⟨event, ⟨record, implements.known, name, spec.layout, arguments,
          implements.layout, read, said⟩, rfl, rfl⟩

/-- Whatever the table makes of the fields of a line, it does so steadily and calmly. -/
theorem steady_dispatch (understood : ∀ spec ∈ table.records, spec.Understood)
    (tokens : List String) {left right : Analyzer} (alike : left.Alike right) :
    Steady Analyzer.Alike right
      ((table.dispatch tokens false left).result, (table.dispatch tokens false left).sink)
      ((table.dispatch tokens false right).result, (table.dispatch tokens false right).sink) ∧
    (table.dispatch tokens false left).cancels = false := by
  cases tokens with
  | nil => exact ⟨.of_ok alike false, rfl⟩
  | cons command fields =>
    simp only [dispatch]
    cases found : table.find? command with
    | none => exact ⟨.of_ok alike false, rfl⟩
    | some spec =>
      have inside : spec ∈ table.records := List.mem_of_find?_eq_some found
      obtain ⟨record, implements⟩ := understood spec inside
      simp only [implements.handler]
      cases read : spec.layout.read command fields false with
      | error fault =>
        have ofLine := implements.ofLine_read command fields false fault read
        exact ⟨.of_error alike alike (Fault.isCancellation_of_isOfLine ofLine), rfl⟩
      | ok arguments =>
        have fits := Layout.fits_read implements.layout read
        exact ⟨(alike.handle implements.known fits).map _, Analyzer.handler_cancels record _ left⟩

/-- A table of records that are understood forgives failing lines. -/
theorem forgiving_of_understood (understood : ∀ spec ∈ table.records, spec.Understood) :
    table.Forgiving Analyzer.Alike where
  agree tokens left right alike := by
    obtain ⟨answer, first, second, onLeft, onRight, after⟩ :=
      (steady_dispatch understood tokens alike).1.agree
    rw [Prod.mk.injEq] at onLeft onRight
    rw [onLeft.1, onLeft.2, onRight.1, onRight.2]
    exact ⟨rfl, after⟩
  failed tokens left right alike := (steady_dispatch understood tokens alike).1.failed
  calm tokens left right alike := (steady_dispatch understood tokens alike).2

end RecordTable

end JitTrace
