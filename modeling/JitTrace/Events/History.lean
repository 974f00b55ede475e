import Std.Data.HashMap

/-!
# Histories

Updates grouped by what they happened to. Groups stand in the order in which
they were first seen, and the updates of a group in the order they came. A table
leads from a key to the place of its group.
-/

namespace JitTrace

/-- The updates of one key. -/
structure HistoryEntry (Key Update : Type) where
  key : Key
  updates : List Update
deriving Repr

/-- Groups of updates, with the place of each key's group. -/
structure History (Key Update : Type) [DecidableEq Key] [Hashable Key] where
  entries : Array (HistoryEntry Key Update) := #[]
  places : Std.HashMap Key Nat := {}

namespace History

variable {Key Update : Type} [DecidableEq Key] [Hashable Key]

/-- The place of a key's group. A key without one gets a group without updates,
behind all others. -/
def placeOf (key : Key) (history : History Key Update) : Nat × History Key Update :=
  match history.places[key]? with
  | some place => (place, history)
  | none =>
    let place := history.entries.size
    (place,
      { entries := history.entries.push ⟨key, []⟩
        places := history.places.insert key place })

/-- Add an update to its key's group, which is created when there is none. -/
def add (key : Key) (update : Update) (history : History Key Update) : History Key Update :=
  let (place, history) := history.placeOf key
  { history with
    entries := history.entries.modify place fun entry =>
      { entry with updates := entry.updates ++ [update] } }

/-- The group of a key. -/
def get? (history : History Key Update) (key : Key) : Option (HistoryEntry Key Update) :=
  history.places[key]?.bind fun place => history.entries[place]?

/-- The groups in the order in which they were first seen. -/
def toList (history : History Key Update) : List (HistoryEntry Key Update) :=
  history.entries.toList

/-- The number of groups. -/
def length (history : History Key Update) : Nat :=
  history.entries.size

end History

/-- The last element among those of the highest rank. -/
def highest? {Item : Type} (rank : Item → Nat) : List Item → Option Item
  | [] => none
  | item :: items =>
    match highest? rank items with
    | none => some item
    | some later => if rank later < rank item then some item else some later

end JitTrace
