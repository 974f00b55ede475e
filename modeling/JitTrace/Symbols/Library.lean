import JitTrace.Fault
import JitTrace.Number.Word
import JitTrace.Text.Blank
import JitTrace.Text.Cut

/-!
# Symbols of native libraries

The log records only the address range of a library. The functions inside it
come from a symbol listing, whose lines read `ADDRESS [SIZE] TYPE NAME`.
-/

namespace JitTrace

/-- A function of a library, occupying `[start, stop)`. -/
structure LibrarySymbol where
  name : String
  start : UInt64
  stop : UInt64
deriving DecidableEq, Repr

/-- The functions of a library; empty when none are known. -/
abbrev SymbolProvider := String → Except Fault (List LibrarySymbol)

/-- The provider that knows no library. -/
def SymbolProvider.none : SymbolProvider := fun _ => .ok []

namespace LibrarySymbol

/-- A line of a listing. -/
structure Listed where
  start : UInt64
  size : Option UInt64
  name : String
deriving Repr

/-- The types of functions in a listing. -/
def isFunctionType (kind : List Char) : Bool :=
  kind == ['t'] || kind == ['T'] || kind == ['w'] || kind == ['W']

/-- The size column, when the text starts with one, and what follows. A single
byte is no size but the type column. `none` when the column is damaged. -/
def sizeColumn? (cs : List Char) : Option (Option UInt64 × List Char) :=
  match Text.cutFirst Text.isBlank cs with
  | some (field, after) =>
    if 1 < Text.byteCount field then
      (Number.word64? 16 field).map fun size => (some size, Text.trimFront after)
    else some (none, cs)
  | none => some (none, cs)

/-- Read a line of a listing; `none` for a line that names no function. -/
def readLine? (cs : List Char) : Option Listed := do
  let (address, after) ← Text.cutFirst Text.isBlank (Text.trimFront cs)
  let start ← Number.word64? 16 address
  let (size, after) ← sizeColumn? (Text.trimFront after)
  let (kind, name) ← Text.cutFirst Text.isBlank after
  let name := Text.trim name
  if isFunctionType kind && !name.isEmpty then some ⟨start, size, String.ofList name⟩ else none

/-- The range of each listed function. One without a size ends where the next
one starts; a last one without a size has no end and is dropped, as is a
function with no room. -/
def withEnds : List Listed → List LibrarySymbol
  | [] => []
  | listed :: rest =>
    let stop? :=
      match listed.size with
      | some size => some (Number.saturatingAdd listed.start size)
      | none => rest.head?.map (·.start)
    match stop? with
    | some stop =>
      if listed.start < stop then ⟨listed.name, listed.start, stop⟩ :: withEnds rest
      else withEnds rest
    | none => withEnds rest

/-- The functions of a listing, by address. -/
def readListing (text : String) : List LibrarySymbol :=
  let listed := (Text.lines text.toList).filterMap readLine?
  withEnds (listed.mergeSort fun left right => left.start ≤ right.start)

/-- Shift a symbol up; `none` when it would leave the address space. -/
def shift? (symbol : LibrarySymbol) (distance : UInt64) : Option LibrarySymbol :=
  if symbol.start.toNat + distance.toNat < UInt64.size &&
      symbol.stop.toNat + distance.toNat < UInt64.size then
    some { symbol with start := symbol.start + distance, stop := symbol.stop + distance }
  else none

/-- The place of a symbol in a library mapped at `[start, stop)`. An address below
the library's size is an offset into it, any other is absolute already; what
does not fit into the mapping is dropped. -/
def place? (start stop : UInt64) (symbol : LibrarySymbol) : Option LibrarySymbol :=
  let distance := if symbol.start < Number.saturatingSub stop start then start else 0
  (symbol.shift? distance).filter fun placed => start ≤ placed.start && placed.stop ≤ stop

/-- Place the symbols of a library. -/
def placeAll (symbols : List LibrarySymbol) (start stop : UInt64) : List LibrarySymbol :=
  symbols.filterMap (place? start stop)

end LibrarySymbol

end JitTrace
