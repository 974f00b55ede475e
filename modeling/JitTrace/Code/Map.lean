import JitTrace.Code.Entry
import JitTrace.Number.Word
import JitTrace.SplayTree.Walk
import Std.Data.HashMap

/-!
# The code map

Which code occupies which addresses. Libraries and their symbols have indices of
their own, and the pages that libraries cover route lookups to them; all other
lookups go to the generated code, which comes and goes. New generated code
evicts whatever it overlaps. Entries themselves are never dropped, so call trees
and samples can keep referring to them.
-/

namespace JitTrace

/-- The result of an address lookup. -/
structure Located where
  id : CodeId
  start : UInt64
  /-- The distance of the address from `start`. -/
  offset : UInt64
deriving DecidableEq, Repr

/-- How often each name has been given out, beyond the first time. -/
structure NameSupply where
  known : Std.HashMap String Nat := {}

/-- The next distinct form of a name: the name itself, then `name {1}`, and so on. -/
def NameSupply.next (supply : NameSupply) (name : String) : String × NameSupply :=
  match supply.known[name]? with
  | none => (name, ⟨supply.known.insert name 0⟩)
  | some count =>
    (name ++ " \x7b" ++ toString (count + 1) ++ "\x7d", ⟨supply.known.insert name (count + 1)⟩)

/-- An index of code by start address. -/
abbrev AddressIndex := SplayTree UInt64 CodeId

/-- A run of pages, first and last included. -/
structure PageSpan where
  first : UInt64
  last : UInt64
deriving Repr

/-- The code of a profiled process. -/
structure CodeMap where
  arena : Array CodeEntry := #[]
  dynamics : AddressIndex := {}
  statics : AddressIndex := {}
  libraries : AddressIndex := {}
  /-- The pages that lookups take to the libraries. -/
  pages : List PageSpan := []
  names : NameSupply := {}

namespace CodeMap

/-- The map without code. -/
def empty : CodeMap := {}

instance : Inhabited CodeMap := ⟨empty⟩

/-- The page that an address lies on. -/
def pageOf (address : UInt64) : UInt64 :=
  address >>> 12

/-- The first address behind a range, at most the greatest address. -/
def rangeEnd (start size : UInt64) : UInt64 :=
  Number.saturatingAdd start size

/-- The entry behind an id. -/
def entry (map : CodeMap) (id : CodeId) : CodeEntry :=
  map.arena.getD id.index default

/-- Change the entry behind an id. -/
def modifyEntry (map : CodeMap) (id : CodeId) (change : CodeEntry → CodeEntry) : CodeMap :=
  { map with arena := map.arena.modify id.index change }

/-- Store an entry that no address leads to. -/
def addDetached (map : CodeMap) (entry : CodeEntry) : CodeId × CodeMap :=
  (⟨map.arena.size⟩, { map with arena := map.arena.push entry })

/-- Route the pages of `[start, stop)` to the libraries; an empty range still
claims the page it starts on. -/
def markPages (map : CodeMap) (start stop : UInt64) : CodeMap :=
  let lastAddress := max (Number.saturatingSub stop 1) start
  { map with pages := ⟨pageOf start, pageOf lastAddress⟩ :: map.pages }

/-- Whether lookups of an address are routed to the libraries. -/
def isMarked (map : CodeMap) (address : UInt64) : Bool :=
  let page := pageOf address
  map.pages.any fun span => span.first ≤ page && page ≤ span.last

/-- Register a library. An address holds the first library registered there. -/
def addLibrary (map : CodeMap) (start : UInt64) (entry : CodeEntry) : CodeId × CodeMap :=
  let map := map.markPages start (rangeEnd start entry.size)
  let (id, map) := map.addDetached entry
  (id, { map with libraries := (map.libraries.insert start id).2 })

/-- Register a symbol. It is found only where a library's pages lead to it. -/
def addStaticCode (map : CodeMap) (start : UInt64) (entry : CodeEntry) : CodeId × CodeMap :=
  let (id, map) := map.addDetached entry
  (id, { map with statics := (map.statics.insert start id).2 })

/-- The starts of the entries that overlap `[start, stop)`, from the top down,
beginning with the last entry at or below `address`. Each step goes strictly
below the entry just seen, so the number of entries bounds the steps. -/
def coveredStarts (arena : Array CodeEntry) (start stop : UInt64) :
    Nat → UInt64 → AddressIndex → List UInt64 × AddressIndex
  | 0, _, index => ([], index)
  | steps + 1, address, index =>
    let (handle?, index) := index.greatestAtMost address
    match handle?.bind index.pair? with
    | none => ([], index)
    | some (entryStart, id) =>
      let entryStop := rangeEnd entryStart (arena.getD id.index default).size
      let covered := if entryStart < stop && start < entryStop then [entryStart] else []
      if entryStart ≤ start || entryStart == 0 then
        (covered, index)
      else
        let (below, index) := coveredStarts arena start stop steps (entryStart - 1) index
        (covered ++ below, index)

/-- Drop the generated code that overlaps `[start, stop)`. -/
def evictCovered (map : CodeMap) (start stop : UInt64) : CodeMap :=
  if stop ≤ start then map
  else
    let (starts, dynamics) :=
      coveredStarts map.arena start stop (map.dynamics.size + 1) (stop - 1) map.dynamics
    { map with dynamics := starts.foldl (fun index address => (index.remove address).2) dynamics }

/-- Let the generated code `id` of size `size` start at `start`, evicting what it
overlaps and what starts there. -/
def placeCode (map : CodeMap) (start size : UInt64) (id : CodeId) : CodeMap :=
  let map := map.evictCovered start (rangeEnd start size)
  { map with dynamics := ((map.dynamics.remove start).2.insert start id).2 }

/-- Register generated code. -/
def addCode (map : CodeMap) (start : UInt64) (entry : CodeEntry) : CodeId × CodeMap :=
  let (id, map) := map.addDetached entry
  (id, map.placeCode start entry.size id)

/-- Relocate the generated code that starts at `source`. -/
def moveCode (map : CodeMap) (source target : UInt64) : Except Fault Unit × CodeMap :=
  match map.dynamics.remove source with
  | (none, dynamics) => (.error (.codeNotFound source), { map with dynamics })
  | (some (_, id), dynamics) =>
    let map := { map with dynamics }
    (.ok (), map.placeCode target (map.entry id).size id)

/-- Drop the generated code that starts at `start`. -/
def deleteCode (map : CodeMap) (start : UInt64) : Option CodeId × CodeMap :=
  let (removed, dynamics) := map.dynamics.remove start
  (removed.map (·.2), { map with dynamics })

/-- Keep the generated code that a visitor wants to keep, in address order; the number
of entries dropped. -/
def retainDynamicWith {State : Type} (map : CodeMap)
    (keep : State → UInt64 → CodeId → CodeEntry → Bool × State) (state : State) :
    Nat × State × CodeMap :=
  let visit := fun state start id =>
    let (stays, state) := keep state start id (map.entry id)
    (stays, id, state)
  let (state, dynamics) := map.dynamics.retainWith visit state
  (map.dynamics.size - dynamics.size, state, { map with dynamics })

/-- Keep the generated code that satisfies a test; the number of entries dropped. -/
def retainDynamic (map : CodeMap) (keep : UInt64 → CodeId → CodeEntry → Bool) : Nat × CodeMap :=
  let (dropped, _, map) :=
    map.retainDynamicWith (fun _ start id entry => (keep start id entry, ())) ()
  (dropped, map)

/-- The code behind a node of an index, when it covers the address. -/
def locate? (arena : Array CodeEntry) (index : AddressIndex) (address : UInt64)
    (handle : Handle) : Option Located :=
  match index.pair? handle with
  | none => none
  | some (start, id) =>
    if start ≤ address && address < rangeEnd start (arena.getD id.index default).size then
      some ⟨id, start, address - start⟩
    else none

/-- Look an address up in an index. -/
def findIn (arena : Array CodeEntry) (index : AddressIndex) (address : UInt64) :
    Option Located × AddressIndex :=
  let (handle?, index) := index.greatestAtMost address
  (handle?.bind (locate? arena index address), index)

/-- What `findIn` finds, without rearranging the index. -/
def peekIn? (arena : Array CodeEntry) (index : AddressIndex) (address : UInt64) :
    Option Located :=
  (index.peekAtMost? address).bind (locate? arena index address)

/-- Whether an address lies between the start of the first piece of generated
code and the end of the last one. -/
def inDynamicRange (map : CodeMap) (address : UInt64) : Bool :=
  match map.dynamics.minimum?, map.dynamics.maximum? with
  | some (lowest, _), some (highest, id) =>
    lowest ≤ address && address < rangeEnd highest (map.entry id).size
  | _, _ => false

/-- Give an entry the distinct form of its name, once. -/
def numberName (map : CodeMap) (id : CodeId) : CodeMap :=
  let entry := map.entry id
  if entry.numbered || entry.name.isEmpty then map
  else
    let (name, names) := map.names.next entry.name
    { map.modifyEntry id fun entry => { entry with name, numbered := true } with names }

/-- The code covering an address. Generated code gets the distinct form of its
name when it is first found. -/
def findAddress (map : CodeMap) (address : UInt64) : Option Located × CodeMap :=
  if map.isMarked address then
    match findIn map.arena map.statics address with
    | (some located, statics) => (some located, { map with statics })
    | (none, statics) =>
      let (located?, libraries) := findIn map.arena map.libraries address
      (located?, { map with statics, libraries })
  else if !map.inDynamicRange address then (none, map)
  else
    match findIn map.arena map.dynamics address with
    | (none, dynamics) => (none, { map with dynamics })
    | (some located, dynamics) =>
      (some located, numberName { map with dynamics } located.id)

/-- The code covering an address, without where it starts. It is found as by
`findAddress`. -/
def findEntry (map : CodeMap) (address : UInt64) : Option CodeId × CodeMap :=
  let (located?, map) := map.findAddress address
  (located?.map (·.id), map)

/-- The code covering an address, leaving indices and names alone. -/
def lookup? (map : CodeMap) (address : UInt64) : Option Located :=
  if map.isMarked address then
    (peekIn? map.arena map.statics address).or (peekIn? map.arena map.libraries address)
  else if !map.inDynamicRange address then none
  else peekIn? map.arena map.dynamics address

/-- The generated code that starts at an address. -/
def dynamicAt (map : CodeMap) (start : UInt64) : Option CodeId × CodeMap :=
  let (id?, dynamics) := map.dynamics.get start
  (id?, { map with dynamics })

/-- Where live generated code starts. -/
def dynamicAddressOf? (map : CodeMap) (id : CodeId) : Option UInt64 :=
  (map.dynamics.toList.find? fun (_, stored) => stored == id).map (·.1)

/-- The name of an entry as call trees show it. -/
def displayName (map : CodeMap) (id : CodeId) : String :=
  let entry := map.entry id
  match entry.flavor with
  | .plain => entry.name
  | .dynamic => entry.codeType ++ ": " ++ entry.name
  | .compiled function state =>
    entry.codeType ++ ": " ++ state.marker ++ (map.entry function).functionName
  | .sharedFunction => entry.functionName

end CodeMap

end JitTrace
