import JitTrace.CpuProfile.Export
import JitTrace.Proofs.Number.Decimal
import JitTrace.Proofs.Text.Cut
import JitTrace.Trace.Analyzer
import Mathlib.Data.List.TakeWhile

/-!
# Names of functions

The engine names a function and, behind a space, where its source is. The location is taken from
behind the last space, so it is found whatever the function is called. The bare name ends at the
first space: of a name with spaces of its own no more than the first word is exported, and no
more than this word is asked for where optimizations are disabled.
-/

namespace JitTrace

/-- A name as the engine writes it: what a function is called, and where its source is. -/
structure NamedAt (name called : String) (position : FilePosition) : Prop where
  name_eq : name = called ++ " " ++ position.text
  hasUri : position.uri ≠ ""
  oneWord : ' ' ∉ position.uri.toList

/-! ## Locations -/

namespace FilePosition

theorem toList_text (position : FilePosition) : position.text.toList =
    position.uri.toList ++ ':' :: Nat.toDigits 10 position.line.toNat ++
      ':' :: Nat.toDigits 10 position.column.toNat := by
  simp [text, toString, Nat.toList_repr]

theorem word32?_toDigits (word : UInt32) :
    Number.word32? (Nat.toDigits 10 word.toNat) = some word :=
  Number.readIn_decimal.word32?_eq_some.mpr (.bare (Number.decimalNumber_toDigits _))

/-- Colons of the uri are no matter, since the numbers are taken from the end. -/
theorem ofCharacters?_text {position : FilePosition} (hasUri : position.uri ≠ "") :
    ofCharacters? position.text.toList = some position := by
  have nonempty : position.uri.toList ≠ [] := mt String.toList_eq_nil_iff.mp hasUri
  have numbers (number : Nat) : ':' ∉ Nat.toDigits 10 number :=
    Number.notMem_toDigits rfl number
  rw [toList_text, ofCharacters?, Text.cutLast_append (numbers _)]
  simp [Text.cutLast_append (numbers _), word32?_toDigits, nonempty]

theorem ofFunctionName?_eq {name called : String} {position : FilePosition}
    (named : NamedAt name called position) : ofFunctionName? name = some position := by
  have oneWord : ' ' ∉ position.text.toList := by
    simp [toList_text, named.oneWord, Number.notMem_toDigits]
  have cut : name.toList = called.toList ++ ' ' :: position.text.toList := by
    simp [named.name_eq]
  rw [ofFunctionName?, cut, Text.cutLast_append oneWord]
  exact ofCharacters?_text named.hasUri

end FilePosition

/-! ## Bare names -/

variable {entry : CodeEntry} {called : String} {position : FilePosition}

namespace CodeEntry

/-- The bare name is the first word of what the function is called. -/
theorem bareName_eq (named : NamedAt entry.name called position) :
    entry.bareName = String.ofList (called.toList.takeWhile (· != ' ')) := by
  have separated : entry.name.toList = called.toList ++ ' ' :: position.text.toList := by
    simp [named.name_eq]
  obtain ⟨rest, cut⟩ : ∃ rest, Text.cutFirst (· == ' ') entry.name.toList =
      some (called.toList.takeWhile (· != ' '), rest) :=
    separated ▸ Text.exists_cutFirst_append rfl _ _
  rw [bareName, cut]

theorem bareName_eq_iff (named : NamedAt entry.name called position) :
    entry.bareName = called ↔ ' ' ∉ called.toList := by
  rw [bareName_eq named, ← String.toList_inj, String.toList_ofList, List.takeWhile_eq_self_iff]
  simp only [bne_iff_ne]
  exact ⟨fun distinct inside => distinct _ inside rfl,
    fun oneWord c inside isSpace => oneWord (isSpace ▸ inside)⟩

end CodeEntry

/-- Where the name of a function is cut. -/
structure CutName (entry : CodeEntry) (called : String) (position : FilePosition) : Prop where
  /-- The location is found whatever the function is called. -/
  location : FilePosition.ofFunctionName? entry.name = some position
  bare : entry.bareName = String.ofList (called.toList.takeWhile (· != ' '))
  /-- Only of a name without spaces both parts are what was written. -/
  whole_iff : entry.bareName = called ↔ ' ' ∉ called.toList
  exported : ∀ (profile : Profile) (label : String) (id : CodeId),
    profile.functionOf? id = some entry →
      let frame := profile.callFrame label (some id)
      frame.functionName = (if entry.bareName.isEmpty then "(anonymous)" else entry.bareName) ∧
        frame.url = (profile.scriptUrl? id).getD position.uri ∧
        frame.lineNumber = Profile.fromZero position.line ∧
        frame.columnNumber = Profile.fromZero position.column
  /-- A deopt of the function's code without a position of its own has this one. -/
  deopt : ∀ (analyzer : Analyzer) (address : UInt64) (id : CodeId),
    analyzer.profile.findEntry? address = some id → analyzer.profile.namedEntry id = entry →
      analyzer.positionAt address = position
  /-- Optimization is disabled by the bare name. -/
  disabled : ∀ (map : CodeMap) (id : CodeId) (name : String), map.entry id = entry →
    (id ∈ Profile.functionsNamed map name ↔ (∃ address, (address, id) ∈ map.dynamics.toList) ∧
      entry.isSharedFunction = true ∧ name = entry.bareName)

/-- The location of a function is found for every name, and its bare name is the first word. -/
theorem function_name_cut (named : NamedAt entry.name called position) :
    CutName entry called position where
  location := FilePosition.ofFunctionName?_eq named
  bare := entry.bareName_eq named
  whole_iff := entry.bareName_eq_iff named
  exported profile label id function := by
    simp [Profile.callFrame, function, FilePosition.ofFunctionName?_eq named]
  deopt analyzer address id found function := by
    simp [Analyzer.positionAt, found, function, FilePosition.ofFunctionName?_eq named]
  disabled map id name isEntry := by
    simp [Profile.functionsNamed, isEntry, @eq_comm _ name]

theorem namedAt_getter : NamedAt "get size a.js:3:5" "get size" ⟨"a.js", 3, 5⟩ :=
  ⟨by decide, by decide, by decide⟩

theorem function_name_cut_getter :
    NamedAt (CodeEntry.sharedFunction "get size a.js:3:5").name "get size" ⟨"a.js", 3, 5⟩ ∧
      CutName (.sharedFunction "get size a.js:3:5") "get size" ⟨"a.js", 3, 5⟩ :=
  ⟨namedAt_getter, function_name_cut namedAt_getter⟩

/-- Of a getter's name no more than the first word is left, although its location is found. -/
theorem getter_name_truncated :
    NamedAt "get size a.js:3:5" "get size" ⟨"a.js", 3, 5⟩ ∧
      FilePosition.ofFunctionName? "get size a.js:3:5" = some ⟨"a.js", 3, 5⟩ ∧
      (CodeEntry.sharedFunction "get size a.js:3:5").bareName = "get" ∧ "get" ≠ "get size" :=
  ⟨namedAt_getter, FilePosition.ofFunctionName?_eq namedAt_getter, by decide, by decide⟩

end JitTrace
