import JitTrace.Record.Layout
import Mathlib.Data.List.Forall2

/-!
# Fields that answer what they are asked for

A handler asks the fields of its record for values, by position and kind. Which values a
field can have is settled by its declaration, so it can be decided once for all lines
whether a field answers a question.
-/

namespace JitTrace

/-- One more pair in front of pairs that are related. -/
theorem forall₂_of_map {Left Right : Type} {related : Left → Right → Prop} {left : Left}
    {lefts : List Left} {right : Right} {rest : Except Fault (List Right)} {rights : List Right}
    (mapped : rest.map (right :: ·) = .ok rights) (here : related left right)
    (others : ∀ {more}, rest = .ok more → List.Forall₂ related lefts more) :
    List.Forall₂ related (left :: lefts) rights := by
  cases rest with
  | error fault => simp [Except.map] at mapped
  | ok more =>
    obtain rfl : right :: more = rights := by simpa [Except.map] using mapped
    exact .cons here (others rfl)

/-! ## Checked fields -/

/-- A checked field comes from a declared one. -/
inductive FieldParser.Checked : FieldParser → LayoutField → Prop
  | required {parser reader} : parser.reader? = some reader → Checked parser (.required reader)
  | optional {inner default reader} :
    inner.reader? = some reader → Checked (.optional inner default) (.optional reader default)
  | rest {inner reader} : inner.reader? = some reader → Checked (.rest inner) (.rest reader)
  | command : Checked .command .command
  | cancellation : Checked .cancellation .cancellation

/-- Checking takes the declared fields one by one. -/
theorem Layout.checked_check {record : String} {seenOptional : Bool} {position : Nat}
    {parsers : List FieldParser} {layout : Layout}
    (checked : check record seenOptional position parsers = .ok layout) :
    List.Forall₂ FieldParser.Checked parsers layout := by
  fun_induction check record seenOptional position parsers generalizing layout with
  | case1 =>
    obtain rfl : [] = layout := by simpa using checked
    exact .nil
  | case2 => simp_all
  | case3 => simp_all
  | case4 seenOptional position inner others last reader found =>
    obtain rfl : others = [] := by simpa using last
    obtain rfl : [.rest reader] = layout := by simpa [found] using checked
    exact .cons (.rest found) .nil
  | case5 => simp_all
  | case6 seenOptional position inner default others reader found inductionHypothesis =>
    exact forall₂_of_map checked (.optional found) inductionHypothesis
  | case7 seenOptional position others inductionHypothesis =>
    exact forall₂_of_map checked .command inductionHypothesis
  | case8 seenOptional position others inductionHypothesis =>
    exact forall₂_of_map checked .cancellation inductionHypothesis
  | case9 => simp_all
  | case10 => simp_all
  | case11 seenOptional position field others notRest notOptional notCommand notFlag required
      reader found inductionHypothesis =>
    exact forall₂_of_map checked (.required found) inductionHypothesis

/-! ## Values of fields -/

/-- The values that a declared field can have. -/
def FieldParser.Admits : FieldParser → FieldValue → Prop
  | .int, value => ∃ number, value = .int number
  | .address, value => ∃ address, value = .address address
  | .text, value | .command, value => ∃ text, value = .text text
  | .custom read, value => ∃ raw, read raw = .ok value
  | .optional inner default, value => inner.Admits value ∨ value = default
  | .rest inner, value => ∃ items, value = .list items ∧ ∀ item ∈ items, inner.Admits item
  | .cancellation, value => ∃ cancelled, value = .cancellation cancelled

theorem exists_of_map {Result Other : Type} {outcome : Except Fault Result}
    {change : Result → Other} {other : Other} (mapped : outcome.map change = .ok other) :
    ∃ result, other = change result := by
  cases outcome with
  | error fault => simp [Except.map] at mapped
  | ok result => exact ⟨result, by simpa [Except.map] using mapped.symm⟩

/-- What a plain field is converted to, it can have. -/
theorem FieldParser.admits_of_read {parser : FieldParser} {reader : FieldReader}
    (reads : parser.reader? = some reader) {raw : String} {value : FieldValue}
    (read : reader.read raw = .ok value) : parser.Admits value := by
  cases parser with
  | int | address =>
    cases reads
    exact exists_of_map read
  | text =>
    cases reads
    exact ⟨raw, by simpa [FieldReader.read] using read.symm⟩
  | custom convert =>
    cases reads
    exact ⟨raw, read⟩
  | _ => simp [reader?] at reads

theorem FieldParser.admits_of_mapM {parser : FieldParser} {reader : FieldReader}
    (reads : parser.reader? = some reader) {tokens : List String} {items : List FieldValue}
    (read : tokens.mapM reader.read = .ok items) : ∀ item ∈ items, parser.Admits item := by
  induction tokens generalizing items with
  | nil =>
    obtain rfl : [] = items := by simpa [pure, Except.pure] using read
    nofun
  | cons token tokens inductionHypothesis =>
    rw [List.mapM_cons] at read
    cases first : reader.read token with
    | error fault => simp [first, bind, Except.bind] at read
    | ok value =>
      cases others : tokens.mapM reader.read with
      | error fault => simp [first, others, bind, Except.bind] at read
      | ok values =>
        obtain rfl : value :: values = items := by
          simpa [first, others, bind, Except.bind, pure, Except.pure] using read
        rintro item (_ | ⟨_, inside⟩)
        · exact admits_of_read reads first
        · exact inductionHypothesis others item inside

/-- The values that are read fit the fields that are declared. -/
theorem Layout.admits_readFields {parsers : List FieldParser} {layout : Layout}
    (checked : List.Forall₂ FieldParser.Checked parsers layout) {command : String}
    {cancelled : Bool} {available : Nat} {tokens : List String} {values : List FieldValue}
    (read : layout.readFields command cancelled available tokens = .ok values) :
    List.Forall₂ FieldParser.Admits parsers values := by
  induction checked generalizing tokens values with
  | nil =>
    obtain rfl : [] = values := by simpa [readFields] using read
    exact .nil
  | @cons parser field parsers layout here others inductionHypothesis =>
    cases here with
    | command => exact forall₂_of_map read ⟨command, rfl⟩ inductionHypothesis
    | cancellation => exact forall₂_of_map read ⟨cancelled, rfl⟩ inductionHypothesis
    | @required _ reader reads =>
      cases tokens with
      | nil => simp [readFields] at read
      | cons token tokens =>
        cases first : reader.read token with
        | error fault => simp [readFields, first, bind, Except.bind] at read
        | ok value =>
          simp only [readFields, first] at read
          exact forall₂_of_map read (FieldParser.admits_of_read reads first) inductionHypothesis
    | @optional inner default reader reads =>
      cases tokens with
      | nil => exact forall₂_of_map read (.inr rfl) inductionHypothesis
      | cons token tokens =>
        cases first : reader.read token with
        | error fault => simp [readFields, first, bind, Except.bind] at read
        | ok value =>
          simp only [readFields, first] at read
          exact forall₂_of_map read (.inl (FieldParser.admits_of_read reads first))
            inductionHypothesis
    | @rest inner reader reads =>
      cases all : tokens.mapM reader.read with
      | error fault => simp [readFields, all, bind, Except.bind] at read
      | ok items =>
        simp only [readFields, all] at read
        exact forall₂_of_map read ⟨items, rfl, FieldParser.admits_of_mapM reads all⟩
          inductionHypothesis

/-- The arguments fit the fields that are declared. -/
def Arguments.Fits (arguments : Arguments) (parsers : List FieldParser) : Prop :=
  List.Forall₂ FieldParser.Admits parsers arguments.values.toList

/-- What is read by the layout of a record fits its fields. -/
theorem Layout.fits_read {record : String} {parsers : List FieldParser} {layout : Layout}
    (checked : ofParsers record parsers = .ok layout) {command : String} {tokens : List String}
    {cancelled : Bool} {arguments : Arguments}
    (read : layout.read command tokens cancelled = .ok arguments) : arguments.Fits parsers := by
  rw [Layout.read] at read
  cases fields : layout.readFields command cancelled tokens.length tokens with
  | error fault => simp [fields, Except.map] at read
  | ok values =>
    obtain rfl : ⟨command, values.toArray⟩ = arguments := by
      simpa [fields, Except.map] using read
    exact admits_readFields (checked_check checked) fields

/-! ## Answers -/

/-- The value is a text. -/
def FieldValue.isText : FieldValue → Bool
  | .text _ => true
  | _ => false

/-- The value answers a question for a kind of value. -/
def FieldValue.answers : ExpectedValue → FieldValue → Bool
  | .int, .int _ | .int, .address _ | .address, .address _ | .text, .text _ | .list, .list _
  | .cancellation, .cancellation _ => true
  | .address, .int value => 0 ≤ value
  | .textList, .list items => items.all (·.isText)
  | _, _ => false

/-- Every value that the field can have answers a question for a kind of value. -/
def FieldParser.answers : ExpectedValue → FieldParser → Bool
  | .int, .int | .int, .address | .address, .address | .text, .text | .text, .command
  | .cancellation, .cancellation | .list, .rest _ | .textList, .rest .text => true
  | expected, .optional inner default => inner.answers expected && default.answers expected
  | _, _ => false

/-- The field may be missing, and every other value that it can have answers a question for
a kind of value. -/
def FieldParser.answersIfPresent (expected : ExpectedValue) : FieldParser → Bool
  | .optional inner .absent => inner.answers expected
  | _ => false

/-- The values of a field answer what the field answers. -/
theorem FieldParser.Admits.answers {expected : ExpectedValue} {parser : FieldParser}
    {value : FieldValue} (admitted : parser.Admits value)
    (answering : parser.answers expected = true) : value.answers expected = true := by
  induction parser generalizing expected value with
  | optional inner default inductionHypothesis =>
    rw [FieldParser.answers, Bool.and_eq_true] at answering
    rcases admitted with given | rfl
    · exact inductionHypothesis given answering.1
    · exact answering.2
  | rest inner =>
    obtain ⟨items, rfl, all⟩ := admitted
    cases expected with
    | list => rfl
    | textList =>
      cases inner with
      | text =>
        rw [FieldValue.answers, List.all_eq_true]
        intro item inside
        obtain ⟨text, rfl⟩ := all item inside
        rfl
      | _ => simp [FieldParser.answers] at answering
    | _ => simp [FieldParser.answers] at answering
  | custom read => simp [FieldParser.answers] at answering
  | _ =>
    obtain ⟨found, rfl⟩ := admitted
    cases expected <;> first | rfl | simp [FieldParser.answers] at answering

/-- Items that can all be read can be read together. -/
theorem exists_mapM {Item Value : Type} {read : Item → Except Fault Value} {items : List Item}
    (each : ∀ item ∈ items, ∃ value, read item = .ok value) :
    ∃ values, items.mapM read = .ok values := by
  induction items with
  | nil => exact ⟨[], rfl⟩
  | cons item items inductionHypothesis =>
    obtain ⟨value, first⟩ := each item (List.mem_cons_self ..)
    obtain ⟨values, others⟩ := inductionHypothesis fun other inside =>
      each other (List.mem_cons_of_mem _ inside)
    exact ⟨value :: values, by rw [List.mapM_cons, first, others]; rfl⟩

namespace Arguments

variable {arguments : Arguments} {position : Nat} {value : FieldValue}
  (found : arguments.get? position = some value)
include found

theorem exists_int (answering : value.answers .int = true) :
    ∃ number, arguments.int position = .ok number := by
  rw [int, found]
  cases value <;> first | exact ⟨_, rfl⟩ | simp [FieldValue.answers] at answering

theorem exists_address (answering : value.answers .address = true) :
    ∃ address, arguments.address position = .ok address := by
  rw [address, found]
  cases value with
  | address value => exact ⟨_, rfl⟩
  | int value =>
    have natural : 0 ≤ value := by simpa [FieldValue.answers] using answering
    exact ⟨_, if_pos natural⟩
  | _ => simp [FieldValue.answers] at answering

theorem exists_text (answering : value.answers .text = true) :
    ∃ text, arguments.text position = .ok text := by
  rw [text, found]
  cases value <;> first | exact ⟨_, rfl⟩ | simp [FieldValue.answers] at answering

theorem exists_textList (answering : value.answers .textList = true) :
    ∃ texts, arguments.textList position = .ok texts := by
  cases value with
  | list items =>
    rw [FieldValue.answers, List.all_eq_true] at answering
    rw [textList, list, found]
    refine exists_mapM fun item inside => ?_
    have isText := answering item inside
    cases item <;> first | exact ⟨_, rfl⟩ | simp [FieldValue.isText] at isText
  | _ => simp [FieldValue.answers] at answering

end Arguments

namespace Arguments.Fits

variable {arguments : Arguments} {parsers : List FieldParser} {position : Nat}
  (fits : arguments.Fits parsers)
include fits

/-- Where a field is declared there is a value of it. -/
theorem exists_get? {holds : FieldParser → Bool}
    (declared : parsers[position]?.any holds = true) :
    ∃ parser value, holds parser = true ∧ arguments.get? position = some value ∧
      parser.Admits value := by
  obtain ⟨sameLength, each⟩ := List.forall₂_iff_get.mp fits
  cases found : parsers[position]? with
  | none => simp [found] at declared
  | some parser =>
    obtain ⟨inside, rfl⟩ := List.getElem?_eq_some_iff.mp found
    have stored : position < arguments.values.toList.length := sameLength ▸ inside
    refine ⟨parsers[position], arguments.values.toList[position], ?_, ?_, each _ inside stored⟩
    · simpa [found] using declared
    · rw [get?, ← Array.getElem?_toList, List.getElem?_eq_getElem stored]

theorem exists_answer {expected : ExpectedValue}
    (declared : parsers[position]?.any (·.answers expected) = true) :
    ∃ value, arguments.get? position = some value ∧ value.answers expected = true := by
  obtain ⟨parser, value, answering, found, admitted⟩ := fits.exists_get? declared
  exact ⟨value, found, admitted.answers answering⟩

theorem int (declared : parsers[position]?.any (·.answers .int) = true) :
    ∃ number, arguments.int position = .ok number := by
  obtain ⟨value, found, answering⟩ := fits.exists_answer declared
  exact exists_int found answering

theorem address (declared : parsers[position]?.any (·.answers .address) = true) :
    ∃ address, arguments.address position = .ok address := by
  obtain ⟨value, found, answering⟩ := fits.exists_answer declared
  exact exists_address found answering

theorem text (declared : parsers[position]?.any (·.answers .text) = true) :
    ∃ text, arguments.text position = .ok text := by
  obtain ⟨value, found, answering⟩ := fits.exists_answer declared
  exact exists_text found answering

theorem textList (declared : parsers[position]?.any (·.answers .textList) = true) :
    ∃ texts, arguments.textList position = .ok texts := by
  obtain ⟨value, found, answering⟩ := fits.exists_answer declared
  exact exists_textList found answering

/-- A field that may be missing is missing or answers. -/
theorem isAbsent_or_exists_answer {expected : ExpectedValue}
    (declared : parsers[position]?.any (·.answersIfPresent expected) = true) :
    arguments.isAbsent position = true ∨
      ∃ value, arguments.get? position = some value ∧ value.answers expected = true := by
  obtain ⟨parser, value, answering, found, admitted⟩ := fits.exists_get? declared
  cases parser with
  | optional inner default =>
    cases default with
    | absent =>
      rcases admitted with given | rfl
      · exact .inr ⟨value, found, given.answers answering⟩
      · exact .inl (by rw [isAbsent, found])
    | _ => simp [FieldParser.answersIfPresent] at answering
  | _ => simp [FieldParser.answersIfPresent] at answering

theorem ifPresent {Answer : Type} {expected : ExpectedValue} {answer : Except Fault Answer}
    (declared : parsers[position]?.any (·.answersIfPresent expected) = true)
    (answered : ∀ {value}, arguments.get? position = some value →
      value.answers expected = true → ∃ given, answer = .ok given) :
    ∃ given?, (if arguments.isAbsent position then .ok none else answer.map some) =
      .ok given? := by
  split
  · exact ⟨none, rfl⟩
  · rename_i present
    rcases fits.isAbsent_or_exists_answer declared with absent | ⟨value, found, answering⟩
    · exact absurd absent present
    · obtain ⟨given, read⟩ := answered found answering
      exact ⟨some given, by rw [read]; rfl⟩

theorem text? (declared : parsers[position]?.any (·.answersIfPresent .text) = true) :
    ∃ text?, arguments.text? position = .ok text? :=
  fits.ifPresent declared exists_text

theorem address? (declared : parsers[position]?.any (·.answersIfPresent .address) = true) :
    ∃ address?, arguments.address? position = .ok address? :=
  fits.ifPresent declared exists_address

end Arguments.Fits

end JitTrace
