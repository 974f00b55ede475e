import JitTrace.Fault
import JitTrace.Text.Cut

/-!
# Fields of a line

A log line is a list of fields between commas. A field that starts with a double
quote runs to the matching quote, and a doubled quote inside stands for one. Any
other field may hold the escapes `\n`, `\\`, `\xHH` and `\uHHHH`.
-/

namespace JitTrace.Line

/-- The content of a quoted field, whose opening quote has been read, and what
follows its closing quote. -/
def takeQuoted : List Char → Option (List Char × List Char)
  | [] => none
  | '"' :: '"' :: rest =>
    (takeQuoted rest).map fun (field, after) => ('"' :: field, after)
  | '"' :: rest => some ([], rest)
  | c :: rest => (takeQuoted rest).map fun (field, after) => (c :: field, after)

/-- The character denoted by the next `count` hexadecimal digits. The length is
checked in bytes, so a wide character never makes up for a missing digit. -/
def hexEscape (count : Nat) (cs : List Char) : Except ParseFault Char :=
  let digits := cs.take count
  if Text.byteCount digits != count then
    .error (.truncatedEscape (String.ofList digits))
  else
    match Number.unsigned? 16 UInt32.size digits with
    | none => .error (.hexEscape (String.ofList digits))
    | some code =>
      if h : code.isValidChar then .ok (Char.ofNatAux code h)
      else .error (.codePoint code)

/-- Replace the escapes of an unquoted field by what they stand for. -/
def unescape (cs : List Char) : Except ParseFault (List Char) :=
  match cs with
  | [] => .ok []
  | ['\\'] => .error .danglingBackslash
  | '\\' :: c :: rest =>
    if c == 'n' then (unescape rest).map ('\n' :: ·)
    else if c == '\\' then (unescape rest).map ('\\' :: ·)
    else if c == 'x' then
      match hexEscape 2 rest with
      | .ok denoted => (unescape (rest.drop 2)).map (denoted :: ·)
      | .error fault => .error fault
    else if c == 'u' then
      match hexEscape 4 rest with
      | .ok denoted => (unescape (rest.drop 4)).map (denoted :: ·)
      | .error fault => .error fault
    else .error (.unknownEscape c)
  | c :: rest => (unescape rest).map (c :: ·)
termination_by cs.length
decreasing_by all_goals simp only [List.length_drop, List.length_cons]; omega

/-- What follows a quoted field is no longer than the field's input. -/
theorem length_takeQuoted_le {cs field after : List Char}
    (taken : takeQuoted cs = some (field, after)) : after.length ≤ cs.length := by
  fun_induction takeQuoted cs generalizing field after with
  | case1 => simp at taken
  | case2 rest inductionHypothesis =>
    obtain ⟨⟨front, back⟩, inner, equal⟩ := Option.map_eq_some_iff.1 taken
    simp only [Prod.mk.injEq] at equal
    obtain ⟨_, rfl⟩ := equal
    have bounded := inductionHypothesis inner
    simp only [List.length_cons]
    omega
  | case3 rest =>
    simp only [Option.some.injEq, Prod.mk.injEq] at taken
    obtain ⟨_, rfl⟩ := taken
    simp
  | case4 c rest _ _ inductionHypothesis =>
    obtain ⟨⟨front, back⟩, inner, equal⟩ := Option.map_eq_some_iff.1 taken
    simp only [Prod.mk.injEq] at equal
    obtain ⟨_, rfl⟩ := equal
    have bounded := inductionHypothesis inner
    simp only [List.length_cons]
    omega

/-- What follows a cut is shorter than the text that was cut. -/
theorem length_cutFirst_lt {isSeparator : Char → Bool} {cs before after : List Char}
    (cut : Text.cutFirst isSeparator cs = some (before, after)) :
    after.length < cs.length := by
  obtain ⟨_, _, equal, _⟩ := Text.eq_append_of_cutFirst cut
  rw [equal]
  simp only [List.length_append, List.length_cons]
  omega

/-- The fields of a line that has at least one. -/
def fieldsFrom (cs : List Char) : Except ParseFault (List (List Char)) :=
  match cs with
  | '"' :: inner =>
    match _taken : takeQuoted inner with
    | none => .error .unterminatedQuote
    | some (field, []) => .ok [field]
    | some (field, next :: rest) =>
      if next == ',' then (fieldsFrom rest).map (field :: ·)
      else .error (.unexpectedAfterQuote (String.ofList (next :: rest)))
  | unquoted =>
    match _cut : Text.cutFirst (· == ',') unquoted with
    | none => (unescape unquoted).map ([·])
    | some (raw, rest) =>
      match unescape raw with
      | .error fault => .error fault
      | .ok field => (fieldsFrom rest).map (field :: ·)
termination_by cs.length
decreasing_by
  · have bounded := length_takeQuoted_le _taken
    simp only [List.length_cons] at bounded ⊢
    omega
  · exact length_cutFirst_lt _cut

/-- The decoded fields of a line; an empty line has none. -/
def fields (line : String) : Except Fault (List String) :=
  match Text.withoutReturn line.toList with
  | [] => .ok []
  | c :: cs =>
    match fieldsFrom (c :: cs) with
    | .ok fields => .ok (fields.map String.ofList)
    | .error fault => .error (.parse fault)

end JitTrace.Line
