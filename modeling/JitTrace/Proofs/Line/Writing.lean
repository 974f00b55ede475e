import JitTrace.Proofs.Line.Escapes
import JitTrace.Proofs.Text.Cut

/-!
# Writing lines

A field can be written between quotes or with escapes, whatever it holds, and each field of a
line in its own form. The fields of the line are then the ones that were written. Only a lone
empty field without quotes leaves nothing that could be read.
-/

namespace JitTrace

open Number (HexNumber natural?)

namespace Line

/-- How a field is written. -/
inductive FieldForm where
  | quoted
  | escaped
deriving DecidableEq

/-- A field to be written. -/
structure WrittenField where
  form : FieldForm
  text : String
deriving DecidableEq

/-- A character between quotes: a quote is written twice. -/
def quotedChar (c : Char) : List Char :=
  if c = '"' then ['"', '"'] else [c]

/-- A character outside quotes: what a reader would not take for itself is written as an
escape. -/
def escapedChar : Char → List Char
  | '\\' => "\\\\".toList
  | '\n' => "\\n".toList
  | ',' => "\\x2C".toList
  | '"' => "\\x22".toList
  | '\r' => "\\x0D".toList
  | c => [c]

/-- The characters of a written field. -/
def WrittenField.render (field : WrittenField) : List Char :=
  match field.form with
  | .quoted => '"' :: field.text.toList.flatMap quotedChar ++ ['"']
  | .escaped => field.text.toList.flatMap escapedChar

/-- The characters of a line of written fields, with commas between them. -/
def line (written : List WrittenField) : List Char :=
  [','].intercalate (written.map WrittenField.render)

/-! ## Reading fields -/

section Reading

variable {inner cs raw field rest : List Char}

theorem fieldsFrom_of_takeQuoted (taken : takeQuoted inner = some (field, ',' :: rest)) :
    fieldsFrom ('"' :: inner) = (fieldsFrom rest).map (field :: ·) := by
  rw [fieldsFrom]
  split <;> simp_all

theorem fieldsFrom_of_takeQuoted_nil (taken : takeQuoted inner = some (field, [])) :
    fieldsFrom ('"' :: inner) = .ok [field] := by
  rw [fieldsFrom]
  split <;> simp_all

theorem fieldsFrom_of_cutFirst (unquoted : cs.head? ≠ some '"')
    (cut : Text.cutFirst (· == ',') cs = some (raw, rest)) (read : unescape raw = .ok field) :
    fieldsFrom cs = (fieldsFrom rest).map (field :: ·) := by
  rw [fieldsFrom]
  · split <;> simp_all
  · rintro inner rfl
    exact unquoted rfl

theorem fieldsFrom_of_cutFirst_none (unquoted : cs.head? ≠ some '"')
    (uncut : Text.cutFirst (· == ',') cs = none) (read : unescape cs = .ok field) :
    fieldsFrom cs = .ok [field] := by
  rw [fieldsFrom]
  · split
    · rw [read]
      rfl
    · simp_all
  · rintro inner rfl
    exact unquoted rfl

end Reading

/-! ## Fields between quotes -/

/-- A field between quotes ends with its quote, unless another quote follows. -/
theorem takeQuoted_flatMap (cs : List Char) {rest : List Char} (ends : rest.head? ≠ some '"') :
    takeQuoted (cs.flatMap quotedChar ++ '"' :: rest) = some (cs, rest) := by
  induction cs with
  | nil =>
    cases rest with
    | nil => rfl
    | cons c rest =>
      rw [List.flatMap_nil, List.nil_append, takeQuoted]
      rintro more ⟨⟩
      exact ends rfl
  | cons c cs inductionHypothesis =>
    rw [List.flatMap_cons, List.append_assoc, quotedChar]
    by_cases isQuote : c = '"'
    · subst isQuote
      exact congrArg (Option.map _) inductionHypothesis
    · rw [if_neg isQuote, List.singleton_append, takeQuoted, inductionHypothesis]
      · rfl
      all_goals simp [isQuote]

/-! ## Fields with escapes -/

/-- What is written with escapes stands for the field. -/
theorem denotes_escaped (cs : List Char) : Denotes HexNumber (cs.flatMap escapedChar) cs := by
  induction cs with
  | nil => exact .nil
  | cons c cs inductionHypothesis =>
    have code {c first second : Char} (isNumber : natural? 16 [first, second] = some c.toNat) :
        Denotes HexNumber ('\\' :: 'x' :: ([first, second] ++ cs.flatMap escapedChar)) (c :: cs) :=
      .short rfl (Number.natural?_eq_some.mp isNumber) inductionHypothesis
    rw [List.flatMap_cons, escapedChar.eq_def]
    split
    · exact .backslash inductionHypothesis
    · exact .lineFeed inductionHypothesis
    · exact code (by decide)
    · exact code (by decide)
    · exact code (by decide)
    · rename_i ordinary _ _ _ _
      exact .plain ordinary inductionHypothesis

/-- Nothing that ends a field, begins a quoted one or ends a line is left outside quotes. -/
theorem clear_of_mem_escaped {cs : List Char} {c : Char} (inside : c ∈ cs.flatMap escapedChar) :
    c ≠ ',' ∧ c ≠ '"' ∧ c ≠ '\r' := by
  obtain ⟨written, -, member⟩ := List.mem_flatMap.mp inside
  have clear : ∀ c ∈ escapedChar written, c ≠ ',' ∧ c ≠ '"' ∧ c ≠ '\r' := by
    rw [escapedChar.eq_def]
    split
    case h_6 notComma notQuote notReturn =>
      intro c isWritten
      obtain rfl := List.mem_singleton.mp isWritten
      exact ⟨notComma, notQuote, notReturn⟩
    all_goals simp
  exact clear c member

theorem head?_flatMap_escapedChar (cs : List Char) {rest : List Char}
    (unquoted : rest.head? ≠ some '"') :
    (cs.flatMap escapedChar ++ rest).head? ≠ some '"' := by
  cases written : cs.flatMap escapedChar with
  | nil => exact unquoted
  | cons c more =>
    have inside : c ∈ cs.flatMap escapedChar := written ▸ List.mem_cons_self
    simpa using (clear_of_mem_escaped inside).2.1

/-! ## Lines -/

/-- A field that is not the last one of its line. -/
theorem fieldsFrom_render_append (field : WrittenField) (rest : List Char) :
    fieldsFrom (field.render ++ ',' :: rest) =
      (fieldsFrom rest).map (field.text.toList :: ·) := by
  obtain ⟨form, text⟩ := field
  cases form with
  | quoted =>
    have taken : takeQuoted (text.toList.flatMap quotedChar ++ '"' :: ',' :: rest) =
        some (text.toList, ',' :: rest) := takeQuoted_flatMap text.toList (by simp)
    simp only [WrittenField.render, List.cons_append, List.append_assoc, List.nil_append]
    exact fieldsFrom_of_takeQuoted taken
  | escaped =>
    have clear : ∀ c ∈ text.toList.flatMap escapedChar, (c == ',') = false :=
      fun c inside => by simpa using (clear_of_mem_escaped inside).1
    exact fieldsFrom_of_cutFirst (head?_flatMap_escapedChar text.toList (by simp))
      (Text.cutFirst_append clear rfl rest) (unescape_of_denotes (denotes_escaped text.toList))

/-- The last field of a line. -/
theorem fieldsFrom_render (field : WrittenField) :
    fieldsFrom field.render = .ok [field.text.toList] := by
  obtain ⟨form, text⟩ := field
  cases form with
  | quoted => exact fieldsFrom_of_takeQuoted_nil (takeQuoted_flatMap text.toList (by simp))
  | escaped =>
    have clear : ∀ c ∈ text.toList.flatMap escapedChar, (c == ',') = false :=
      fun c inside => by simpa using (clear_of_mem_escaped inside).1
    have unquoted := head?_flatMap_escapedChar text.toList (by simp : [].head? ≠ some '"')
    rw [List.append_nil] at unquoted
    exact fieldsFrom_of_cutFirst_none unquoted (Text.cutFirst_eq_none clear)
      (unescape_of_denotes (denotes_escaped text.toList))

theorem line_cons_cons (field next : WrittenField) (more : List WrittenField) :
    line (field :: next :: more) = field.render ++ ',' :: line (next :: more) := by
  simp [line, List.intercalate]

theorem line_singleton (field : WrittenField) : line [field] = field.render := by
  simp [line]

theorem fieldsFrom_line (field : WrittenField) (more : List WrittenField) :
    fieldsFrom (line (field :: more)) =
      .ok ((field :: more).map fun field => field.text.toList) := by
  induction more generalizing field with
  | nil => rw [line_singleton, fieldsFrom_render, List.map_singleton]
  | cons next more inductionHypothesis =>
    rw [line_cons_cons, fieldsFrom_render_append, inductionHypothesis]
    rfl

/-- Only an empty field without quotes is written as nothing. -/
theorem render_eq_nil {field : WrittenField} : field.render = [] ↔ field = ⟨.escaped, ""⟩ := by
  obtain ⟨form, text⟩ := field
  cases form with
  | quoted => simp [WrittenField.render]
  | escaped =>
    have kept (c : Char) : escapedChar c ≠ [] := by
      rw [escapedChar.eq_def]
      split <;> simp
    have nothing : text.toList.flatMap escapedChar = [] ↔ text.toList = [] := by
      rw [List.flatMap_eq_nil_iff, List.eq_nil_iff_forall_not_mem]
      simp only [kept, imp_false]
    simpa [WrittenField.render] using nothing

theorem line_eq_nil {written : List WrittenField} :
    line written = [] ↔ written = [] ∨ written = [⟨.escaped, ""⟩] := by
  match written with
  | [] => simp [line]
  | [field] => simp [line_singleton, render_eq_nil]
  | field :: next :: more => simp [line_cons_cons]

theorem getLast?_render (field : WrittenField) : field.render.getLast? ≠ some '\r' := by
  obtain ⟨form, text⟩ := field
  cases form with
  | quoted =>
    simp only [WrittenField.render, List.getLast?_concat]
    decide
  | escaped => exact fun last => (clear_of_mem_escaped (List.mem_of_getLast? last)).2.2 rfl

/-- No line ends in a carriage return that would be taken for a part of its end. -/
theorem withoutReturn_line (written : List WrittenField) :
    Text.withoutReturn (line written) = line written := by
  have last : (line written).getLast? ≠ some '\r' := by
    induction written with
    | nil => simp [line]
    | cons field more inductionHypothesis =>
      cases more with
      | nil => exact line_singleton field ▸ getLast?_render field
      | cons next more =>
        rw [line_cons_cons, List.getLast?_append, List.getLast?_cons]
        cases rest : (line (next :: more)).getLast? with
        | none => simp
        | some c => simpa [rest] using inductionHypothesis
  rw [Text.withoutReturn]
  split
  · rename_i isReturn
    exact absurd isReturn last
  · rfl

/-- Fields are read back from the line they were written to, each in whatever form. Only the
line of one empty field without quotes is empty, and has no fields. -/
theorem fields_line (written : List WrittenField) :
    fields (String.ofList (line written)) =
        .ok (if written = [⟨.escaped, ""⟩] then [] else written.map (·.text)) ∧
      (line written = [] ↔ written = [] ∨ written = [⟨.escaped, ""⟩]) := by
  refine ⟨?_, line_eq_nil⟩
  rw [fields, String.toList_ofList, withoutReturn_line]
  cases isLine : line written with
  | nil =>
    rcases line_eq_nil.mp isLine with rfl | rfl <;> simp
  | cons c cs =>
    have notEmpty : ¬ (written = [] ∨ written = [⟨.escaped, ""⟩]) := by
      simp [← line_eq_nil, isLine]
    rw [not_or] at notEmpty
    obtain ⟨field, more, rfl⟩ := List.exists_cons_of_ne_nil notEmpty.1
    have read := fieldsFrom_line field more
    rw [isLine] at read
    rw [if_neg notEmpty.2]
    simp only [read, List.map_map, Function.comp_def, String.ofList_toList]

example : String.ofList (line [⟨.quoted, "say \"a,b\""⟩, ⟨.escaped, "c,\n"⟩, ⟨.escaped, ""⟩]) =
    "\"say \"\"a,b\"\"\",c\\x2C\\n," := by
  decide +kernel

end Line

end JitTrace
