import JitTrace.Proofs.Outcome
import JitTrace.Proofs.Record.Faults

/-!
# Declared fields and the tokens that they read

A list of fields can be declared when only scalar fields are wrapped, a tail comes last, and
no field that needs a token comes behind one that can do without. Then every field of a line
has its own tokens: they start behind as many tokens as there are fields in front of it that
use one up. What each field makes of its tokens decides what is read from the line, and the
first field that fails decides how reading it fails.
-/

namespace JitTrace

open Outcome (bind_eq_ok bind_eq_error map_eq_ok map_eq_error mapM_eq_ok mapM_eq_error)

/-! ## Declarations -/

namespace FieldParser

/-- The field needs a token of its own, whose text is converted. -/
def isScalar (parser : FieldParser) : Bool :=
  parser.reader?.isSome

theorem isScalar_of_reader {parser : FieldParser} {reader : FieldReader}
    (reads : parser.reader? = some reader) : parser.isScalar = true := by
  rw [isScalar, reads, Option.isSome_some]

theorem isScalar_of_other {parser : FieldParser} (notRest : ∀ inner, parser ≠ .rest inner)
    (notOptional : ∀ inner default, parser ≠ .optional inner default)
    (notCommand : parser ≠ .command) (notFlag : parser ≠ .cancellation) :
    parser.isScalar = true := by
  cases parser with
  | rest inner => exact absurd rfl (notRest inner)
  | optional inner default => exact absurd rfl (notOptional inner default)
  | command => exact absurd rfl notCommand
  | cancellation => exact absurd rfl notFlag
  | int | address | text | custom => rfl

@[simp] theorem isScalar_optional (inner : FieldParser) (default : FieldValue) :
    (optional inner default).isScalar = false := rfl

@[simp] theorem isScalar_rest (inner : FieldParser) : (rest inner).isScalar = false := rfl

@[simp] theorem isScalar_command : command.isScalar = false := rfl

@[simp] theorem isScalar_cancellation : cancellation.isScalar = false := rfl

def isOptional : FieldParser → Bool
  | .optional .. => true
  | _ => false

def isRest : FieldParser → Bool
  | .rest _ => true
  | _ => false

/-- If the field wraps another one, that one is scalar. -/
def wrapsScalar : FieldParser → Bool
  | .optional inner _ | .rest inner => inner.isScalar
  | _ => true

/-- A scalar field is no tail, cannot be missing and wraps nothing. -/
theorem steady_of_reader {parser : FieldParser} {reader : FieldReader}
    (reads : parser.reader? = some reader) :
    parser.isRest = false ∧ parser.isOptional = false ∧ parser.wrapsScalar = true := by
  cases parser with
  | optional | rest | command | cancellation => cases reads
  | int | address | text | custom => exact ⟨rfl, rfl, rfl⟩

/-- A field may be declared somewhere in front of another one. Nothing comes behind a tail, and
no field that needs a token comes behind one that may be missing. -/
structure MayPrecede (earlier later : FieldParser) : Prop where
  notRest : earlier.isRest = false
  needless : earlier.isOptional = true → later.isScalar = false

end FieldParser

/-- The fields are declared as they have to be. -/
structure WellDeclared (parsers : List FieldParser) : Prop where
  wraps : ∀ parser ∈ parsers, parser.wrapsScalar = true
  ordered : parsers.Pairwise FieldParser.MayPrecede

theorem wellDeclared_nil : WellDeclared [] :=
  ⟨List.forall_mem_nil _, .nil⟩

theorem wellDeclared_cons {parser : FieldParser} {parsers : List FieldParser} :
    WellDeclared (parser :: parsers) ↔ parser.wrapsScalar = true ∧
      (∀ later ∈ parsers, parser.MayPrecede later) ∧ WellDeclared parsers := by
  constructor
  · rintro ⟨wraps, ordered⟩
    obtain ⟨here, others⟩ := List.forall_mem_cons.mp wraps
    obtain ⟨behind, orderly⟩ := List.pairwise_cons.mp ordered
    exact ⟨here, behind, others, orderly⟩
  · rintro ⟨here, behind, others, orderly⟩
    exact ⟨List.forall_mem_cons.mpr ⟨here, others⟩, List.pairwise_cons.mpr ⟨behind, orderly⟩⟩

/-- In front of a field that is neither a tail nor may be missing, anything may be declared. -/
theorem wellDeclared_cons_steady {parser : FieldParser} {parsers : List FieldParser}
    (notRest : parser.isRest = false) (notOptional : parser.isOptional = false)
    (wraps : parser.wrapsScalar = true) :
    WellDeclared (parser :: parsers) ↔ WellDeclared parsers := by
  rw [wellDeclared_cons, and_iff_right wraps, and_iff_right]
  exact fun later _ => ⟨notRest, by simp [notOptional]⟩

namespace Layout

theorem exists_map_iff {layout : Except Fault Layout} {change : Layout → Layout} :
    (∃ changed, layout.map change = .ok changed) ↔ ∃ result, layout = .ok result := by
  cases layout <;> simp [Except.map]

/-- Checking goes through when the fields are declared as they have to be and, behind a field
that may be missing, none of them needs a token. -/
theorem exists_check_iff {record : String} {seenOptional : Bool} {position : Nat}
    {parsers : List FieldParser} :
    (∃ layout, check record seenOptional position parsers = .ok layout) ↔
      WellDeclared parsers ∧
        (seenOptional = true → ∀ parser ∈ parsers, parser.isScalar = false) := by
  fun_induction check record seenOptional position parsers with
  | case1 => simp [wellDeclared_nil]
  | case2 seenOptional position inner others more =>
    -- A tail in front of something else.
    obtain ⟨other, others, rfl⟩ := List.exists_cons_of_ne_nil (l := others) (by simpa using more)
    simp only [reduceCtorEq, exists_false, false_iff, wellDeclared_cons, not_and]
    intro declared
    exact absurd (declared.2.1 other List.mem_cons_self).notRest (by simp [FieldParser.isRest])
  | case3 seenOptional position inner others last wraps =>
    simp [wellDeclared_cons, FieldParser.wrapsScalar, FieldParser.isScalar, wraps]
  | case4 seenOptional position inner others last reader found =>
    obtain rfl : others = [] := by simpa using last
    have scalar := FieldParser.isScalar_of_reader found
    simp [wellDeclared_cons, wellDeclared_nil, FieldParser.wrapsScalar, scalar]
  | case5 seenOptional position inner default others wraps =>
    simp [wellDeclared_cons, FieldParser.wrapsScalar, FieldParser.isScalar, wraps]
  | case6 seenOptional position inner default others reader found inductionHypothesis =>
    have scalar := FieldParser.isScalar_of_reader found
    have needless : (∀ later ∈ others, (FieldParser.optional inner default).MayPrecede later) ↔
        ∀ later ∈ others, later.isScalar = false :=
      forall₂_congr fun _ _ =>
        ⟨fun precedes => precedes.needless rfl, fun needless => ⟨rfl, fun _ => needless⟩⟩
    rw [exists_map_iff, inductionHypothesis, wellDeclared_cons, needless]
    simp only [FieldParser.wrapsScalar, scalar, List.forall_mem_cons, FieldParser.isScalar_optional]
    tauto
  | case7 seenOptional position others inductionHypothesis =>
    rw [exists_map_iff, inductionHypothesis, wellDeclared_cons_steady rfl rfl rfl]
    simp
  | case8 seenOptional position others inductionHypothesis =>
    rw [exists_map_iff, inductionHypothesis, wellDeclared_cons_steady rfl rfl rfl]
    simp
  | case9 position field others notRest notOptional notCommand notFlag =>
    have scalar := FieldParser.isScalar_of_other notRest notOptional notCommand notFlag
    simp [scalar]
  | case10 seenOptional position field others notRest notOptional notCommand notFlag _ unread =>
    have scalar := FieldParser.isScalar_of_other notRest notOptional notCommand notFlag
    simp [FieldParser.isScalar, unread] at scalar
  | case11 seenOptional position field others _ _ _ _ first reader found inductionHypothesis =>
    obtain ⟨notRest, notOptional, wraps⟩ := FieldParser.steady_of_reader found
    rw [exists_map_iff, inductionHypothesis, wellDeclared_cons_steady notRest notOptional wraps]
    simp [first]

/-- What is wrong with a list of fields is a mistake in the declaration. -/
theorem configuration_of_check {record : String} {seenOptional : Bool} {position : Nat}
    {parsers : List FieldParser} {fault : Fault}
    (refused : check record seenOptional position parsers = .error fault) :
    ∃ cause, fault = .configuration cause := by
  fun_induction check record seenOptional position parsers with
  | case1 | case4 => cases refused
  | case2 | case3 | case5 | case9 | case10 => cases refused; exact ⟨_, rfl⟩
  | case6 _ _ _ _ _ _ _ inductionHypothesis | case7 _ _ _ inductionHypothesis
  | case8 _ _ _ inductionHypothesis | case11 _ _ _ _ _ _ _ _ _ _ _ inductionHypothesis =>
    exact inductionHypothesis (map_eq_error.mp refused)

theorem exists_ofParsers_iff {record : String} {parsers : List FieldParser} :
    (∃ layout, ofParsers record parsers = .ok layout) ↔ WellDeclared parsers := by
  rw [ofParsers, exists_check_iff]
  simp

end Layout

/-! ## Fields and their tokens -/

namespace FieldParser

/-- The field uses up a token, or all that are left. -/
def usesTokens : FieldParser → Bool
  | .command | .cancellation => false
  | _ => true

/-- What a scalar field makes of a token. -/
def Reads (parser : FieldParser) (token : String) (outcome : Except Fault FieldValue) : Prop :=
  ∃ reader, parser.reader? = some reader ∧ reader.read token = outcome

theorem Reads.isScalar {parser : FieldParser} {token : String}
    {outcome : Except Fault FieldValue} (reads : parser.Reads token outcome) :
    parser.isScalar = true :=
  isScalar_of_reader reads.choose_spec.1

/-- A scalar field blames its declaration only when its own conversion does. -/
theorem Reads.custom {parser : FieldParser} {token : String} {cause : ConfigurationFault}
    (blames : parser.Reads token (.error (.configuration cause))) :
    ∃ read, parser = .custom read ∧ read token = .error (.configuration cause) := by
  obtain ⟨reader, reads, read⟩ := blames
  cases parser with
  | int => cases reads; cases FieldReader.plain_int token _ read
  | address => cases reads; cases FieldReader.plain_address token _ read
  | text => cases reads; cases FieldReader.plain_text token _ read
  | custom convert => cases reads; exact ⟨convert, rfl, read⟩
  | optional | rest | command | cancellation => cases reads

/-- The value that a field takes from the tokens that are left for it. -/
inductive Takes (command : String) (cancelled : Bool) :
    FieldParser → List String → FieldValue → Prop
  | required {parser token tokens value} : parser.Reads token (.ok value) →
    Takes command cancelled parser (token :: tokens) value
  | given {inner default token tokens value} : inner.Reads token (.ok value) →
    Takes command cancelled (.optional inner default) (token :: tokens) value
  | missing {inner default} : Takes command cancelled (.optional inner default) [] default
  | rest {inner tokens items} : List.Forall₂ (inner.Reads · <| .ok ·) tokens items →
    Takes command cancelled (.rest inner) tokens (.list items)
  | command {tokens} : Takes command cancelled .command tokens (.text command)
  | cancellation {tokens} : Takes command cancelled .cancellation tokens (.cancellation cancelled)

/-- Why a field cannot take a value from the tokens that are left for it, of the `available`
ones that the line has. -/
inductive Fails (command : String) (available : Nat) : FieldParser → List String → Fault → Prop
  | missing {parser} : parser.isScalar = true →
    Fails command available parser [] (.parse (.missingField command available))
  | required {parser token tokens fault} : parser.Reads token (.error fault) →
    Fails command available parser (token :: tokens) fault
  | given {inner default token tokens fault} : inner.Reads token (.error fault) →
    Fails command available (.optional inner default) (token :: tokens) fault
  | rest {inner front token back fault} :
    (∀ earlier ∈ front, ∃ item, inner.Reads earlier (.ok item)) →
    inner.Reads token (.error fault) →
    Fails command available (.rest inner) (front ++ token :: back) fault

/-- The field that is wrapped, or else the field itself. -/
def unwrapped : FieldParser → FieldParser
  | .optional inner _ | .rest inner => inner
  | parser => parser

theorem unwrapped_of_isScalar {parser : FieldParser} (scalar : parser.isScalar = true) :
    parser.unwrapped = parser := by
  cases parser with
  | optional | rest => cases scalar
  | int | address | text | custom | command | cancellation => rfl

/-- A field fails for want of a token, or because of one that it is given. -/
theorem Fails.cases_token {parser : FieldParser} {command : String} {available : Nat}
    {tokens : List String} {fault : Fault} (fails : parser.Fails command available tokens fault) :
    fault = .parse (.missingField command available) ∨
      ∃ token ∈ tokens, parser.unwrapped.Reads token (.error fault) := by
  cases fails with
  | missing => exact .inl rfl
  | @required _ token _ _ refused =>
    rw [unwrapped_of_isScalar refused.isScalar]
    exact .inr ⟨token, List.mem_cons_self, refused⟩
  | @given _ _ token _ _ refused => exact .inr ⟨token, List.mem_cons_self, refused⟩
  | @rest _ _ token _ _ _ refused => exact .inr ⟨token, by simp, refused⟩

section Scalar

variable {parser : FieldParser} {reader : FieldReader} (reads : parser.reader? = some reader)
  {command : String} {cancelled : Bool} {available : Nat} {token : String} {tokens : List String}
  {value : FieldValue} {outcome : Except Fault FieldValue} {fault : Fault}

include reads

theorem reads_iff : parser.Reads token outcome ↔ reader.read token = outcome := by
  simp [Reads, reads]

theorem usesTokens_of_reader : parser.usesTokens = true := by
  cases parser with
  | optional | rest | command | cancellation => cases reads
  | int | address | text | custom => rfl

theorem takes_iff : parser.Takes command cancelled tokens value ↔
    ∃ token rest, tokens = token :: rest ∧ reader.read token = .ok value := by
  constructor
  · intro takes
    cases takes with
    | required given => exact ⟨_, _, rfl, (reads_iff reads).mp given⟩
    | given | missing | rest | command | cancellation => cases reads
  · rintro ⟨token, rest, rfl, given⟩
    exact .required ((reads_iff reads).mpr given)

theorem fails_iff : parser.Fails command available tokens fault ↔
    tokens = [] ∧ fault = .parse (.missingField command available) ∨
      ∃ token rest, tokens = token :: rest ∧ reader.read token = .error fault := by
  constructor
  · intro fails
    cases fails with
    | missing => exact .inl ⟨rfl, rfl⟩
    | required refused => exact .inr ⟨_, _, rfl, (reads_iff reads).mp refused⟩
    | given | rest => cases reads
  · rintro (⟨rfl, rfl⟩ | ⟨token, rest, rfl, refused⟩)
    · exact .missing (isScalar_of_reader reads)
    · exact .required ((reads_iff reads).mpr refused)

end Scalar

end FieldParser

section Fields

variable {parser : FieldParser} {field : LayoutField} (checked : parser.Checked field)
  {command : String} {cancelled : Bool} {available : Nat} {tokens : List String}
  {value : FieldValue} {fault : Fault}

/-- What a checked field makes of the tokens that are left for it. -/
def LayoutField.take (command : String) (cancelled : Bool) (available : Nat) :
    LayoutField → List String → Except Fault FieldValue
  | .required _, [] => .error (.parse (.missingField command available))
  | .optional _ default, [] => .ok default
  | .required reader, token :: _ | .optional reader _, token :: _ => reader.read token
  | .rest reader, tokens => (tokens.mapM reader.read).map .list
  | .command, _ => .ok (.text command)
  | .cancellation, _ => .ok (.cancellation cancelled)

include checked

theorem LayoutField.take_eq_ok :
    field.take command cancelled available tokens = .ok value ↔
      parser.Takes command cancelled tokens value := by
  cases checked with
  | required reads => cases tokens <;> simp [take, FieldParser.takes_iff reads]
  | @optional inner default reader reads =>
    cases tokens with
    | nil =>
      rw [take, Except.ok.injEq]
      constructor
      · rintro rfl
        exact .missing
      · intro takes
        cases takes with
        | missing => rfl
    | cons token tokens =>
      rw [take, ← FieldParser.reads_iff reads]
      constructor
      · exact .given
      · intro takes
        cases takes with
        | required given => cases given.isScalar
        | given given => exact given
  | @rest inner reader reads =>
    rw [take, map_eq_ok]
    simp only [mapM_eq_ok fun _ _ _ => (FieldParser.reads_iff reads).symm]
    constructor
    · rintro ⟨items, read, rfl⟩
      exact .rest read
    · intro takes
      cases takes with
      | required given => cases given.isScalar
      | rest read => exact ⟨_, read, rfl⟩
  | command =>
    rw [take, Except.ok.injEq]
    constructor
    · rintro rfl
      exact .command
    · intro takes
      cases takes with
      | required given => cases given.isScalar
      | command => rfl
  | cancellation =>
    rw [take, Except.ok.injEq]
    constructor
    · rintro rfl
      exact .cancellation
    · intro takes
      cases takes with
      | required given => cases given.isScalar
      | cancellation => rfl

theorem LayoutField.take_eq_error :
    field.take command cancelled available tokens = .error fault ↔
      parser.Fails command available tokens fault := by
  cases checked with
  | required reads => cases tokens <;> simp [take, FieldParser.fails_iff reads, eq_comm]
  | @optional inner default reader reads =>
    cases tokens with
    | nil =>
      simp only [take, reduceCtorEq, false_iff]
      rintro ⟨scalar⟩
      cases scalar
    | cons token tokens =>
      rw [take, ← FieldParser.reads_iff reads]
      constructor
      · exact .given
      · intro fails
        cases fails with
        | required refused => cases refused.isScalar
        | given refused => exact refused
  | @rest inner reader reads =>
    rw [take, map_eq_error, mapM_eq_error]
    simp only [← FieldParser.reads_iff reads]
    constructor
    · rintro ⟨front, token, back, rfl, earlier, refused⟩
      exact .rest earlier refused
    · intro fails
      cases fails with
      | missing scalar => cases scalar
      | required refused => cases refused.isScalar
      | rest earlier refused => exact ⟨_, _, _, rfl, earlier, refused⟩
  | command | cancellation =>
    simp only [take, reduceCtorEq, false_iff]
    intro fails
    cases fails with
    | missing scalar => cases scalar
    | required refused => cases refused.isScalar

/-- A field that can take a value does not fail. -/
theorem FieldParser.not_fails_of_takes (takes : parser.Takes command cancelled tokens value) :
    ¬parser.Fails command available tokens fault := by
  intro fails
  have taken : field.take command cancelled available tokens = .ok value :=
    (LayoutField.take_eq_ok checked).mpr takes
  have failed : field.take command cancelled available tokens = .error fault :=
    (LayoutField.take_eq_error checked).mpr fails
  rw [taken] at failed
  contradiction

/-- A field that is no tail leaves the tokens alone that it does not use up. -/
theorem LayoutField.take_append (notRest : parser.isRest = false) {more : List String}
    {availableThere : Nat} (enough : parser.usesTokens.toNat ≤ tokens.length) :
    field.take command cancelled available (tokens ++ more) =
      field.take command cancelled availableThere tokens := by
  cases checked with
  | required reads =>
    rw [FieldParser.usesTokens_of_reader reads] at enough
    obtain ⟨token, tokens, rfl⟩ := List.exists_cons_of_length_pos enough
    rfl
  | optional =>
    obtain ⟨token, tokens, rfl⟩ := List.exists_cons_of_length_pos enough
    rfl
  | rest => cases notRest
  | command | cancellation => rfl

end Fields

/-! ## Lines -/

/-- The tokens that are left for the field at a position: those behind the tokens that the
fields in front of it use up. -/
def tokensFor (parsers : List FieldParser) (tokens : List String) (position : Nat) :
    List String :=
  tokens.drop ((parsers.take position).countP (·.usesTokens))

section Tokens

variable (parser : FieldParser) (parsers : List FieldParser) (tokens : List String)

theorem countP_usesTokens_cons : (parser :: parsers).countP (·.usesTokens) =
    parser.usesTokens.toNat + parsers.countP (·.usesTokens) := by
  rw [List.countP_cons, Nat.add_comm]
  cases parser.usesTokens <;> rfl

@[simp] theorem tokensFor_zero : tokensFor parsers tokens 0 = tokens := by
  simp [tokensFor]

/-- The fields behind the first one go on where it leaves off. -/
@[simp] theorem tokensFor_cons_succ (position : Nat) :
    tokensFor (parser :: parsers) tokens (position + 1) =
      tokensFor parsers (tokens.drop parser.usesTokens.toNat) position := by
  rw [tokensFor, List.take_succ_cons, countP_usesTokens_cons, tokensFor, List.drop_drop]

end Tokens

namespace Layout

variable {parser : FieldParser} {field : LayoutField} {parsers : List FieldParser}
  {layout : Layout} {command : String} {cancelled : Bool} {available : Nat}
  {tokens : List String} {values : List FieldValue} {fault : Fault}

/-- The first field takes its value, and the others go on behind the token that it uses. -/
theorem readFields_cons (checked : parser.Checked field)
    (last : parser.isRest = true → layout = []) :
    readFields command cancelled available (field :: layout) tokens = do
      let value ← field.take command cancelled available tokens
      let others ← layout.readFields command cancelled available
        (tokens.drop parser.usesTokens.toNat)
      return value :: others := by
  cases checked with
  | required reads =>
    rw [FieldParser.usesTokens_of_reader reads]
    cases tokens <;> rfl
  | optional => cases tokens <;> rfl
  | @rest inner reader reads =>
    obtain rfl := last rfl
    simp only [readFields, LayoutField.take]
    cases tokens.mapM reader.read <;> rfl
  | command => rfl
  | cancellation => rfl

/-- Each declared field has its checked one. -/
theorem checked_at (checked : List.Forall₂ FieldParser.Checked parsers layout) {position : Nat}
    (found : parsers[position]? = some parser) :
    ∃ field : LayoutField, layout[position]? = some field ∧ parser.Checked field := by
  obtain ⟨inside, rfl⟩ := List.getElem?_eq_some_iff.mp found
  have within : position < layout.length := checked.length_eq ▸ inside
  exact ⟨layout[position], List.getElem?_eq_getElem within, checked.get inside within⟩

/-- Behind a tail, nothing is declared. -/
theorem eq_nil_of_rest (declared : WellDeclared (parser :: parsers))
    (checked : List.Forall₂ FieldParser.Checked parsers layout) (tail : parser.isRest = true) :
    layout = [] := by
  cases checked with
  | nil => rfl
  | cons =>
    have precedes := (wellDeclared_cons.mp declared).2.1 _ List.mem_cons_self
    exact absurd tail (by simp [precedes.notRest])

/-- A line is read when each field takes a value from the tokens that are left for it, and
what is read from it are these values. -/
theorem readFields_eq_ok (declared : WellDeclared parsers)
    (checked : List.Forall₂ FieldParser.Checked parsers layout) :
    layout.readFields command cancelled available tokens = .ok values ↔
      values.length = parsers.length ∧
        ∀ (position : Nat) (parser : FieldParser) (value : FieldValue),
          parsers[position]? = some parser → values[position]? = some value →
            parser.Takes command cancelled (tokensFor parsers tokens position) value := by
  induction checked generalizing tokens values with
  | nil => simp [readFields, eq_comm]
  | @cons parser field parsers layout here others inductionHypothesis =>
    have behind := (wellDeclared_cons.mp declared).2.2
    rw [readFields_cons here (eq_nil_of_rest declared others)]
    simp only [bind_eq_ok, pure, Except.pure, Except.ok.injEq, LayoutField.take_eq_ok here,
      inductionHypothesis behind]
    constructor
    · rintro ⟨value, taken, others, ⟨length, each⟩, rfl⟩
      refine ⟨by simp [length], ?_⟩
      rintro (_ | position) parser found foundAt givenAt
      · simp_all
      · rw [tokensFor_cons_succ]
        exact each position parser found (by simpa using foundAt) (by simpa using givenAt)
    · rintro ⟨length, each⟩
      obtain ⟨value, others, rfl⟩ := List.exists_cons_of_length_eq_add_one length
      refine ⟨value, by simpa using each 0 parser value rfl rfl, others,
        ⟨by simpa using length, fun position parser found foundAt givenAt => ?_⟩, rfl⟩
      simpa using each (position + 1) parser found (by simpa using foundAt) (by simpa using givenAt)

/-- Reading a line fails when some field cannot take a value, and then the first such field
says why. -/
theorem readFields_eq_error (declared : WellDeclared parsers)
    (checked : List.Forall₂ FieldParser.Checked parsers layout) :
    layout.readFields command cancelled available tokens = .error fault ↔
      ∃ (position : Nat) (parser : FieldParser), parsers[position]? = some parser ∧
        parser.Fails command available (tokensFor parsers tokens position) fault ∧
        ∀ earlier < position, ∀ parser : FieldParser, parsers[earlier]? = some parser →
          ∃ value, parser.Takes command cancelled (tokensFor parsers tokens earlier) value := by
  induction checked generalizing tokens with
  | nil => simp [readFields]
  | @cons parser field parsers layout here others inductionHypothesis =>
    have behind := (wellDeclared_cons.mp declared).2.2
    rw [readFields_cons here (eq_nil_of_rest declared others)]
    simp only [bind_eq_error, pure, Except.pure, reduceCtorEq, and_false, exists_false, or_false,
      LayoutField.take_eq_ok here, LayoutField.take_eq_error here, inductionHypothesis behind]
    constructor
    · rintro (fails | ⟨value, taken, position, later, foundAt, fails, earlier⟩)
      · exact ⟨0, parser, rfl, by simpa using fails, fun _ before => absurd before (by omega)⟩
      · refine ⟨position + 1, later, by simpa using foundAt, by simpa using fails, ?_⟩
        rintro (_ | before) isBefore first firstAt
        · obtain rfl : parser = first := by simpa using firstAt
          exact ⟨value, by simpa using taken⟩
        · simpa using earlier before (by omega) first (by simpa using firstAt)
    · rintro ⟨_ | position, later, foundAt, fails, earlier⟩
      · obtain rfl : parser = later := by simpa using foundAt
        exact .inl (by simpa using fails)
      · obtain ⟨value, taken⟩ := earlier 0 (by omega) parser rfl
        refine .inr ⟨value, by simpa using taken, position, later, by simpa using foundAt,
          by simpa using fails, fun before isBefore first firstAt => ?_⟩
        simpa using earlier (before + 1) (by omega) first (by simpa using firstAt)

/-- Without a tail, the tokens that no field uses up are left alone. -/
theorem readFields_append (declared : WellDeclared parsers)
    (checked : List.Forall₂ FieldParser.Checked parsers layout)
    (noRest : ∀ parser ∈ parsers, parser.isRest = false) {availableThere : Nat}
    {more : List String} (enough : parsers.countP (·.usesTokens) ≤ tokens.length) :
    layout.readFields command cancelled available (tokens ++ more) =
      layout.readFields command cancelled availableThere tokens := by
  induction checked generalizing tokens with
  | nil => rfl
  | @cons parser field parsers layout here others inductionHypothesis =>
    have last := eq_nil_of_rest declared others
    obtain ⟨notRest, noRest⟩ := List.forall_mem_cons.mp noRest
    rw [countP_usesTokens_cons] at enough
    rw [readFields_cons here last, readFields_cons here last,
      LayoutField.take_append here notRest (by omega), List.drop_append_of_le_length (by omega),
      inductionHypothesis (wellDeclared_cons.mp declared).2.2 noRest
        (by rw [List.length_drop]; omega)]

/-- Lines of a record are read as its fields are declared. -/
structure ReadsAsDeclared (layout : Layout) (parsers : List FieldParser) (command : String)
    (cancelled : Bool) (tokens : List String) : Prop where
  /-- Every field has a value, which it takes from its own tokens. -/
  values : ∀ arguments, layout.read command tokens cancelled = .ok arguments ↔
    arguments.command = command ∧ arguments.values.size = parsers.length ∧
      ∀ (position : Nat) (parser : FieldParser) (value : FieldValue),
        parsers[position]? = some parser → arguments.values[position]? = some value →
          parser.Takes command cancelled (tokensFor parsers tokens position) value
  /-- Reading fails exactly when one of the fields does. -/
  fails : (∃ fault, layout.read command tokens cancelled = .error fault) ↔
    ∃ (position : Nat) (parser : FieldParser) (fault : Fault), parsers[position]? = some parser ∧
      parser.Fails command tokens.length (tokensFor parsers tokens position) fault
  /-- The first field that fails says why. -/
  firstFailure : ∀ fault, layout.read command tokens cancelled = .error fault ↔
    ∃ (position : Nat) (parser : FieldParser), parsers[position]? = some parser ∧
      parser.Fails command tokens.length (tokensFor parsers tokens position) fault ∧
      ∀ earlier < position, ∀ parser : FieldParser, parsers[earlier]? = some parser →
        ∃ value, parser.Takes command cancelled (tokensFor parsers tokens earlier) value
  /-- The declaration is blamed only by a conversion of its own. -/
  configuration : ∀ cause, layout.read command tokens cancelled = .error (.configuration cause) →
    ∃ parser ∈ parsers, ∃ convert, parser.unwrapped = .custom convert ∧
      ∃ token ∈ tokens, convert token = .error (.configuration cause)
  /-- Without a tail, only as many tokens matter as there are fields that use one up. -/
  surplus : (∀ parser ∈ parsers, parser.isRest = false) →
    layout.read command (tokens.take (parsers.countP (·.usesTokens))) cancelled =
      layout.read command tokens cancelled

theorem read_eq_ok {arguments : Arguments} (declared : WellDeclared parsers)
    (checked : List.Forall₂ FieldParser.Checked parsers layout) :
    layout.read command tokens cancelled = .ok arguments ↔
      arguments.command = command ∧ arguments.values.size = parsers.length ∧
        ∀ (position : Nat) (parser : FieldParser) (value : FieldValue),
          parsers[position]? = some parser → arguments.values[position]? = some value →
            parser.Takes command cancelled (tokensFor parsers tokens position) value := by
  obtain ⟨name, ⟨values⟩⟩ := arguments
  rw [read, map_eq_ok]
  simp only [Arguments.mk.injEq, Array.mk.injEq, readFields_eq_ok declared checked,
    List.size_toArray, List.getElem?_toArray]
  constructor
  · rintro ⟨_, taken, rfl, rfl⟩
    exact ⟨rfl, taken⟩
  · rintro ⟨rfl, taken⟩
    exact ⟨values, taken, rfl, rfl⟩

theorem read_eq_error (declared : WellDeclared parsers)
    (checked : List.Forall₂ FieldParser.Checked parsers layout) :
    layout.read command tokens cancelled = .error fault ↔
      ∃ (position : Nat) (parser : FieldParser), parsers[position]? = some parser ∧
        parser.Fails command tokens.length (tokensFor parsers tokens position) fault ∧
        ∀ earlier < position, ∀ parser : FieldParser, parsers[earlier]? = some parser →
          ∃ value, parser.Takes command cancelled (tokensFor parsers tokens earlier) value := by
  rw [read, map_eq_error, readFields_eq_error declared checked]

theorem exists_read_error_iff (declared : WellDeclared parsers)
    (checked : List.Forall₂ FieldParser.Checked parsers layout) :
    (∃ fault, layout.read command tokens cancelled = .error fault) ↔
      ∃ (position : Nat) (parser : FieldParser) (fault : Fault),
        parsers[position]? = some parser ∧
          parser.Fails command tokens.length (tokensFor parsers tokens position) fault := by
  constructor
  · rintro ⟨fault, failed⟩
    obtain ⟨position, parser, found, fails, -⟩ := (read_eq_error declared checked).mp failed
    exact ⟨position, parser, fault, found, fails⟩
  · rintro ⟨position, parser, fault, found, fails⟩
    cases outcome : layout.read command tokens cancelled with
    | error fault => exact ⟨fault, rfl⟩
    | ok arguments =>
      -- Every field takes a value, and one that does cannot fail.
      obtain ⟨-, size, each⟩ := (read_eq_ok declared checked).mp outcome
      obtain ⟨inside, -⟩ := List.getElem?_eq_some_iff.mp found
      have takes := each position parser _ found (Array.getElem?_eq_getElem (by omega))
      obtain ⟨field, -, here⟩ := checked_at checked found
      exact absurd fails (FieldParser.not_fails_of_takes here takes)

theorem custom_of_read_configuration {cause : ConfigurationFault} (declared : WellDeclared parsers)
    (checked : List.Forall₂ FieldParser.Checked parsers layout)
    (failed : layout.read command tokens cancelled = .error (.configuration cause)) :
    ∃ parser ∈ parsers, ∃ convert, parser.unwrapped = .custom convert ∧
      ∃ token ∈ tokens, convert token = .error (.configuration cause) := by
  obtain ⟨position, parser, found, fails, -⟩ := (read_eq_error declared checked).mp failed
  rcases fails.cases_token with missing | ⟨token, inside, refused⟩
  · cases missing
  · obtain ⟨convert, isCustom, blames⟩ := refused.custom
    exact ⟨parser, List.mem_of_getElem? found, convert, isCustom, token,
      List.mem_of_mem_drop inside, blames⟩

theorem read_take (declared : WellDeclared parsers)
    (checked : List.Forall₂ FieldParser.Checked parsers layout)
    (noRest : ∀ parser ∈ parsers, parser.isRest = false) :
    layout.read command (tokens.take (parsers.countP (·.usesTokens))) cancelled =
      layout.read command tokens cancelled := by
  rcases Nat.lt_or_ge tokens.length (parsers.countP (·.usesTokens)) with few | enough
  · rw [List.take_of_length_le (Nat.le_of_lt few)]
  · conv_rhs => rw [← List.take_append_drop (parsers.countP (·.usesTokens)) tokens]
    rw [read, read, readFields_append declared checked noRest (by simp [enough])]

/-- Fields can be declared exactly when they are declared as they have to be, and then every
line is read as they are declared. -/
theorem declared_fields_read (record : String) (parsers : List FieldParser) :
    match ofParsers record parsers with
    | .ok layout => WellDeclared parsers ∧
        ∀ command cancelled tokens, layout.ReadsAsDeclared parsers command cancelled tokens
    | .error fault => ¬WellDeclared parsers ∧ ∃ cause, fault = .configuration cause := by
  have accepted : (∃ layout, ofParsers record parsers = .ok layout) ↔ WellDeclared parsers :=
    exists_ofParsers_iff
  cases outcome : ofParsers record parsers with
  | error fault =>
    refine ⟨fun declared => ?_, configuration_of_check outcome⟩
    obtain ⟨layout, found⟩ := accepted.mpr declared
    simp [found] at outcome
  | ok layout =>
    have declared := accepted.mp ⟨layout, outcome⟩
    have checked := checked_check outcome
    exact ⟨declared, fun command cancelled tokens =>
      { values := fun _ => read_eq_ok declared checked
        fails := exists_read_error_iff declared checked
        firstFailure := fun _ => read_eq_error declared checked
        configuration := fun _ => custom_of_read_configuration declared checked
        surplus := read_take declared checked }⟩

example : (ofParsers "note" [.text, .optional .text .absent, .command]).bind
    (·.read "note" ["begin"] false) = .ok ⟨"note", #[.text "begin", .absent, .text "note"]⟩ :=
  rfl

end Layout

end JitTrace
