import JitTrace.SplayTree.Basic

/-!
# Walks over splay trees

Walks follow the thread, so they see the entries in key order whatever the
shape. A double-ended walk stops when the two ends have met.
-/

namespace JitTrace

namespace SplayTree

variable {Key Value : Type}

/-- The direction of a walk along the thread. -/
inductive Heading where
  | ascending
  | descending
deriving DecidableEq, Repr

/-- The neighbour of a handle in a direction. -/
def neighbour? (tree : SplayTree Key Value) (heading : Heading) (handle : Handle) :
    Option Handle :=
  match heading with
  | .ascending => tree.next? handle
  | .descending => tree.previous? handle

/-- At most `count` handles along the thread. -/
def walk (tree : SplayTree Key Value) (heading : Heading) :
    Nat → Option Handle → List Handle
  | 0, _ => []
  | _, none => []
  | count + 1, some handle =>
    handle :: tree.walk heading count (tree.neighbour? heading handle)

/-- The entries from a handle on, in a direction. -/
def entriesFrom (tree : SplayTree Key Value) (heading : Heading) (start : Option Handle) :
    List (Key × Value) :=
  (tree.walk heading tree.size start).filterMap tree.pair?

/-- All entries in key order. -/
def toList (tree : SplayTree Key Value) : List (Key × Value) :=
  tree.entriesFrom .ascending tree.first

/-- All keys in order. -/
def keys (tree : SplayTree Key Value) : List Key :=
  tree.toList.map (·.1)

/-- All values in key order. -/
def values (tree : SplayTree Key Value) : List Value :=
  tree.toList.map (·.2)

/-- The smallest key. -/
def minimum? (tree : SplayTree Key Value) : Option (Key × Value) :=
  tree.first.bind tree.pair?

/-- The largest key. -/
def maximum? (tree : SplayTree Key Value) : Option (Key × Value) :=
  tree.last.bind tree.pair?

/-- A walk with two ends. -/
structure Cursor where
  front : Option Handle
  back : Option Handle
  remaining : Nat
deriving Repr

/-- A walk over every entry. -/
def cursor (tree : SplayTree Key Value) : Cursor :=
  ⟨tree.first, tree.last, tree.size⟩

/-- Take the next entry at one end. -/
def step (tree : SplayTree Key Value) (cursor : Cursor) (heading : Heading) :
    Option ((Key × Value) × Cursor) :=
  match cursor.remaining with
  | 0 => none
  | remaining + 1 =>
    match heading with
    | .ascending => do
      let handle ← cursor.front
      let entry ← tree.pair? handle
      return (entry, { cursor with front := tree.next? handle, remaining })
    | .descending => do
      let handle ← cursor.back
      let entry ← tree.pair? handle
      return (entry, { cursor with back := tree.previous? handle, remaining })

/-- Take up to `count` entries at one end. -/
def take (tree : SplayTree Key Value) (cursor : Cursor) (heading : Heading) :
    Nat → List (Key × Value) × Cursor
  | 0 => ([], cursor)
  | count + 1 =>
    match tree.step cursor heading with
    | none => ([], cursor)
    | some (entry, cursor) =>
      let (entries, cursor) := tree.take cursor heading count
      (entry :: entries, cursor)

/-- The written form of a map, entries in key order. -/
def text (showKey : Key → String) (showValue : Value → String)
    (tree : SplayTree Key Value) : String :=
  "\x7b" ++ ", ".intercalate (tree.toList.map fun (key, value) =>
    showKey key ++ ": " ++ showValue value) ++ "\x7d"

variable [Ord Key] {State : Type}

/-- Visit the entries from a link of the thread on. The visitor may replace the
value and says whether the entry stays. The successor is read before a removal,
which rearranges the tree but leaves the rest of the thread as it was. -/
def tryRetainFrom (visit : State → Key → Value → Bool × Value × State) :
    Nat → Option Handle → State → SplayTree Key Value → Option (State × SplayTree Key Value)
  | _, none, state, tree => some (state, tree)
  | 0, some _, _, _ => none
  | steps + 1, some handle, state, tree => do
    let slot ← tree.slot? handle
    let (stays, value, state) := visit state slot.key slot.value
    let tree ← tree.tryModify handle fun slot => { slot with value }
    let tree ← if stays then some tree else (tree.tryRemove slot.key).map (·.2)
    tryRetainFrom visit steps slot.next state tree

/-- Visit every entry in key order, keeping those the visitor wants to keep. -/
def tryRetain (tree : SplayTree Key Value)
    (visit : State → Key → Value → Bool × Value × State) (state : State) :
    Option (State × SplayTree Key Value) :=
  tryRetainFrom visit tree.slots.size tree.first state tree

/-- Visit every entry in key order, keeping those the visitor wants to keep. -/
def retainWith (tree : SplayTree Key Value)
    (visit : State → Key → Value → Bool × Value × State) (state : State) :
    State × SplayTree Key Value :=
  (tree.tryRetain visit state).getD (state, empty)

end SplayTree

end JitTrace
