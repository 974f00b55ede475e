import JitTrace.Record.Layout

/-!
# Record tables

A record table knows the layout and the handler of every record that a read is
interested in, by the record's name.
-/

namespace JitTrace

/-- What a handler did: whether it succeeded, the state it leaves behind, and
whether it asks for the read to be cancelled. -/
structure Reaction (Sink : Type) where
  result : Except Fault Unit
  sink : Sink
  cancels : Bool := false

/-- The action taken for a record. -/
abbrev Handler (Sink : Type) := Arguments → Sink → Reaction Sink

/-- A record with its layout and handler. -/
structure RecordSpec (Sink : Type) where
  name : String
  layout : Layout
  handler : Handler Sink

/-- The records of a table, each name once. -/
structure RecordTable (Sink : Type) where
  records : List (RecordSpec Sink) := []

/-- What became of a line whose fields have been told apart. -/
structure Dispatched (Sink : Type) where
  /-- Whether there is a record of that name, or why handling it failed. -/
  result : Except Fault Bool
  sink : Sink
  cancels : Bool := false

namespace RecordTable

variable {Sink : Type}

/-- The record of a name. -/
def find? (table : RecordTable Sink) (name : String) : Option (RecordSpec Sink) :=
  table.records.find? fun record => record.name == name

/-- The names of the records. -/
def names (table : RecordTable Sink) : List String :=
  table.records.map (·.name)

/-- Add a record; one of the same name is replaced. -/
def register (table : RecordTable Sink) (name : String) (parsers : List FieldParser)
    (handler : Handler Sink) : Except Fault (RecordTable Sink) :=
  (Layout.ofParsers name parsers).map fun layout =>
    { records := table.records.filter (fun record => record.name != name) ++
        [{ name, layout, handler }] }

/-- Read and handle the fields of a line. -/
def dispatch (table : RecordTable Sink) (tokens : List String) (cancelled : Bool)
    (sink : Sink) : Dispatched Sink :=
  match tokens with
  | [] => { result := .ok false, sink }
  | command :: fields =>
    match table.find? command with
    | none => { result := .ok false, sink }
    | some record =>
      match record.layout.read command fields cancelled with
      | .error fault => { result := .error fault, sink }
      | .ok arguments =>
        let reaction := record.handler arguments sink
        { result := reaction.result.map fun _ => true
          sink := reaction.sink
          cancels := reaction.cancels }

end RecordTable

end JitTrace
