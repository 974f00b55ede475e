import JitTrace.Proofs.SplayTree.Handles

/-!
# Walks from both ends

A cursor walks the thread from both ends at once, and only a count keeps its ends from
crossing. In whatever order it is called at which end, what it has given at the front, what is
still ahead, and what it has given at the back make up the entries. A walk in one direction
from a node passes through what lies there and ends by itself.
-/

namespace JitTrace.SplayTree

variable {Key Value : Type}

/-- Calls at the ends of a cursor, one after the other: at which end each of them was made and
what it got, and the cursor in the end. A call that gets nothing leaves the cursor as it is. -/
def serve (tree : SplayTree Key Value) :
    Cursor → List Heading → List (Heading × Option (Key × Value)) × Cursor
  | cursor, [] => ([], cursor)
  | cursor, heading :: calls =>
    match tree.step cursor heading with
    | some (entry, onward) =>
      let (answers, last) := tree.serve onward calls
      ((heading, some entry) :: answers, last)
    | none =>
      let (answers, last) := tree.serve cursor calls
      ((heading, none) :: answers, last)

/-- The entries that the calls at one end got. -/
def obtained (heading : Heading) (answers : List (Heading × Option (Key × Value))) :
    List (Key × Value) :=
  answers.filterMap fun answer => if answer.1 = heading then answer.2 else none

/-! ## One call -/

/-- A cursor has given the nodes `before` at the front and the nodes `behind` at the back, and
has those between them still to give. -/
structure Between (before ahead behind : List Handle) (cursor : Cursor) : Prop where
  front : cursor.front = (ahead ++ behind).head?
  back : cursor.back = (before ++ ahead).getLast?
  remaining : cursor.remaining = ahead.length

variable {tree : SplayTree Key Value} {before ahead behind order : List Handle} {cursor : Cursor}

/-- A cursor with nothing ahead gives nothing at either end. -/
theorem Between.step_eq_none (between : Between before [] behind cursor) (heading : Heading) :
    tree.step cursor heading = none := by
  rw [step, between.remaining, List.length_nil]

section Ordered

variable [Ord Key]

/-- A call at the front gives the first node ahead. -/
theorem Coherent.exists_step_ascending {handle : Handle}
    (coherent : Coherent tree (before ++ (handle :: ahead) ++ behind))
    (between : Between before (handle :: ahead) behind cursor) :
    ∃ entry onward, tree.pair? handle = some entry ∧
      tree.step cursor .ascending = some (entry, onward) ∧
      Between (before ++ [handle]) ahead behind onward := by
  have inside : handle ∈ before ++ (handle :: ahead) ++ behind := by simp
  obtain ⟨entry, found⟩ := coherent.exists_pair inside
  have next : tree.next? handle = (ahead ++ behind).head? :=
    coherent.beside?_eq .right (ahead ++ behind) before (by simp [Side.join])
  have stands : cursor.front = some handle := between.front
  refine ⟨entry, ⟨(ahead ++ behind).head?, cursor.back, ahead.length⟩, found, ?_, rfl, ?_, rfl⟩
  · rw [step, between.remaining, List.length_cons]
    simp [stands, found, next]
  · rw [between.back, List.append_assoc, List.singleton_append]

/-- A call at the back gives the last node ahead. -/
theorem Coherent.exists_step_descending {handle : Handle}
    (coherent : Coherent tree (before ++ (ahead ++ [handle]) ++ behind))
    (between : Between before (ahead ++ [handle]) behind cursor) :
    ∃ entry onward, tree.pair? handle = some entry ∧
      tree.step cursor .descending = some (entry, onward) ∧
      Between before ahead (handle :: behind) onward := by
  have inside : handle ∈ before ++ (ahead ++ [handle]) ++ behind := by simp
  obtain ⟨entry, found⟩ := coherent.exists_pair inside
  have previous : tree.previous? handle = (before ++ ahead).getLast? :=
    (coherent.beside?_eq .left (before ++ ahead) behind (by simp [Side.join])).trans
      (by simp [Side.orient])
  have stands : cursor.back = some handle := by simp [between.back, ← List.append_assoc]
  refine ⟨entry, ⟨cursor.front, (before ++ ahead).getLast?, ahead.length⟩, found, ?_, ?_, rfl, rfl⟩
  · rw [step, between.remaining, List.length_append, List.length_singleton]
    simp [stands, found, previous]
  · rw [between.front, List.append_assoc, List.singleton_append]

end Ordered

/-! ## Calls in a row -/

/-- What calls got from a cursor that gave the nodes `first` at the front and the nodes `last` at
the back, and has the nodes `rest` still to give. -/
structure Gives (tree : SplayTree Key Value) (calls : List Heading) (first rest last : List Handle)
    (answers : List (Heading × Option (Key × Value))) : Prop where
  named : answers.map (·.1) = calls
  ascending : obtained .ascending answers = tree.entries first
  descending : obtained .descending answers = (tree.entries last).reverse
  /-- There is an entry for every call as long as there are nodes, and then for none. -/
  served : ∀ answer ∈ answers.take (first.length + rest.length + last.length), answer.2.isSome
  refused : ∀ answer ∈ answers.drop (first.length + rest.length + last.length), answer.2 = none

namespace Gives

variable {calls : List Heading} {first rest last : List Handle} {handle : Handle}
  {entry : Key × Value} {answers : List (Heading × Option (Key × Value))}

theorem nil (tree : SplayTree Key Value) (rest : List Handle) : Gives tree [] [] rest [] [] where
  named := rfl
  ascending := rfl
  descending := rfl
  served := by simp
  refused := by simp

/-- A call gets nothing. -/
theorem none (gives : Gives tree calls [] [] [] answers) (heading : Heading) :
    Gives tree (heading :: calls) [] [] [] ((heading, Option.none) :: answers) where
  named := congrArg (heading :: ·) gives.named
  ascending := by simpa [obtained] using gives.ascending
  descending := by simpa [obtained] using gives.descending
  served := by simp
  refused := List.forall_mem_cons.mpr ⟨rfl, gives.refused⟩

/-- A call gets an entry at the front. -/
theorem front (gives : Gives tree calls first rest last answers)
    (found : tree.pair? handle = some entry) :
    Gives tree (.ascending :: calls) (handle :: first) rest last
      ((.ascending, some entry) :: answers) where
  named := congrArg (Heading.ascending :: ·) gives.named
  ascending := by
    rw [entries_cons found, ← gives.ascending]
    rfl
  descending := gives.descending
  served := by
    rw [List.length_cons, Nat.succ_add, Nat.succ_add]
    exact List.forall_mem_cons.mpr ⟨rfl, gives.served⟩
  refused := by
    rw [List.length_cons, Nat.succ_add, Nat.succ_add]
    exact gives.refused

/-- A call gets an entry at the back. -/
theorem back (gives : Gives tree calls first rest last answers)
    (found : tree.pair? handle = some entry) :
    Gives tree (.descending :: calls) first rest (last ++ [handle])
      ((.descending, some entry) :: answers) where
  named := congrArg (Heading.descending :: ·) gives.named
  ascending := gives.ascending
  descending := by
    rw [entries_append, entries_cons found, List.reverse_append, ← gives.descending]
    rfl
  served := by
    rw [List.length_append, List.length_singleton, ← Nat.add_assoc]
    exact List.forall_mem_cons.mpr ⟨rfl, gives.served⟩
  refused := by
    rw [List.length_append, List.length_singleton, ← Nat.add_assoc]
    exact gives.refused

end Gives

/-- Calls at either end divide the nodes ahead into those given at the front, those still to
give, and those given at the back. -/
theorem Coherent.exists_gives [Ord Key] (coherent : Coherent tree order) (calls : List Heading)
    (inOrder : before ++ ahead ++ behind = order) (between : Between before ahead behind cursor) :
    ∃ first rest last, first ++ rest ++ last = ahead ∧
      Between (before ++ first) rest (last ++ behind) (tree.serve cursor calls).2 ∧
      Gives tree calls first rest last (tree.serve cursor calls).1 := by
  induction calls generalizing before ahead behind cursor with
  | nil => exact ⟨[], ahead, [], by simp, by simpa [serve] using between, .nil tree ahead⟩
  | cons heading calls inductionHypothesis =>
    by_cases exhausted : ahead = []
    · subst exhausted
      obtain ⟨first, rest, last, whole, between', gives⟩ := inductionHypothesis inOrder between
      obtain ⟨⟨rfl, rfl⟩, rfl⟩ : (first = [] ∧ rest = []) ∧ last = [] := by
        simpa only [List.append_eq_nil_iff] using whole
      rw [serve, between.step_eq_none heading]
      exact ⟨[], [], [], rfl, between', gives.none heading⟩
    cases heading with
    | ascending =>
      obtain ⟨handle, ahead, rfl⟩ := List.exists_cons_of_ne_nil exhausted
      obtain ⟨entry, onward, found, steps, goesOn⟩ :=
        (inOrder ▸ coherent).exists_step_ascending between
      obtain ⟨first, rest, last, rfl, between', gives⟩ :=
        inductionHypothesis (by simpa using inOrder) goesOn
      rw [serve, steps]
      exact ⟨handle :: first, rest, last, rfl, by simpa using between', gives.front found⟩
    | descending =>
      obtain ⟨ahead, handle, rfl⟩ := (List.eq_nil_or_concat' ahead).resolve_left exhausted
      obtain ⟨entry, onward, found, steps, goesOn⟩ :=
        (inOrder ▸ coherent).exists_step_descending between
      obtain ⟨first, rest, last, rfl, between', gives⟩ :=
        inductionHypothesis (by simpa using inOrder) goesOn
      rw [serve, steps]
      exact ⟨first, rest, last ++ [handle], by simp, by simpa using between', gives.back found⟩

/-- What calls at the ends of a cursor over `entries` get. -/
structure Interleaves (entries : List (Key × Value)) (calls : List Heading)
    (answers : List (Heading × Option (Key × Value))) (last : Cursor) : Prop where
  /-- Every call is answered, in turn. -/
  named : answers.map (·.1) = calls
  /-- The calls at the front got the first entries in order, those at the back the last ones
  backwards. -/
  split : ∃ ahead,
    obtained .ascending answers ++ ahead ++ (obtained .descending answers).reverse = entries
  /-- No entry was given twice. -/
  once : (obtained .ascending answers ++ obtained .descending answers).Nodup
  /-- The cursor tells how many entries it has not given. -/
  remaining : last.remaining =
    entries.length - ((obtained .ascending answers).length + (obtained .descending answers).length)
  /-- As many calls as there are entries get one, and no more. -/
  served : ∀ answer ∈ answers.take entries.length, answer.2.isSome
  refused : ∀ answer ∈ answers.drop entries.length, answer.2 = none

/-- A cursor over all entries has none of them given. -/
theorem Coherent.between_cursor [Ord Key] (coherent : Coherent tree order) :
    Between [] order [] tree.cursor where
  front := (coherent.threaded .right).start_eq.trans (by simp [Side.orient])
  back := (coherent.threaded .left).start_eq.trans (by simp [Side.orient])
  remaining := coherent.size

/-- A cursor over all entries gives what lies between its ends. -/
theorem Coherent.interleaves [Ord Key] [Std.TransOrd Key] (coherent : Coherent tree order)
    (calls : List Heading) :
    Interleaves (tree.entries order) calls (tree.serve tree.cursor calls).1
      (tree.serve tree.cursor calls).2 := by
  obtain ⟨first, rest, last, rfl, between, gives⟩ :=
    coherent.exists_gives calls (by simp) coherent.between_cursor
  have distinct : (tree.entries (first ++ rest ++ last)).Nodup :=
    coherent.ascending_entries.imp fun ascends same => by
      rw [same, Std.ReflOrd.compare_self] at ascends
      contradiction
  have total := coherent.length_entries (List.Subset.refl _)
  have onFirst : (tree.entries first).length = first.length := coherent.length_entries (by simp)
  have onLast : (tree.entries last).length = last.length := coherent.length_entries (by simp)
  refine ⟨gives.named, ⟨tree.entries rest, ?_⟩, ?_, ?_, ?_, ?_⟩
  · simp [gives.ascending, gives.descending]
  · rw [gives.ascending, gives.descending,
      ((List.reverse_perm (tree.entries last)).append_left (tree.entries first)).nodup_iff]
    refine distinct.sublist ?_
    rw [entries_append, entries_append]
    exact (List.sublist_append_left _ _).append (List.Sublist.refl _)
  · rw [gives.ascending, gives.descending, List.length_reverse, between.remaining, total]
    simp only [List.length_append]
    omega
  · rw [total, List.length_append, List.length_append]
    exact gives.served
  · rw [total, List.length_append, List.length_append]
    exact gives.refused

/-! ## Walks from a node -/

/-- A walk from a node in a direction passes through the entries `passed`, and then ends. -/
structure Passes (tree : SplayTree Key Value) (heading : Heading) (start : Handle)
    (passed : List (Key × Value)) : Prop where
  leads : ∃ handles, Leads (tree.neighbour? heading) (some start) handles none ∧
    handles.map tree.pair? = passed.map some
  sees : tree.entriesFrom heading (some start) = passed

/-- A walk passes through what the thread leads through. -/
theorem passes_of_leads {heading : Heading} {start : Handle} {handles : List Handle}
    {passed : List (Key × Value)}
    (leads : Leads (tree.beside? heading.side) (some start) handles none)
    (pairs : handles.map tree.pair? = passed.map some) (enough : handles.length ≤ tree.size) :
    Passes tree heading start passed where
  leads := ⟨handles, neighbour?_eq_beside? tree heading ▸ leads, pairs⟩
  sees := by
    rw [entriesFrom, walk_of_leads leads enough]
    calc handles.filterMap tree.pair?
      _ = (handles.map tree.pair?).filterMap id := by simp [List.filterMap_map]
      _ = (passed.map some).filterMap id := by rw [pairs]
      _ = passed := by simp

/-- From a node on, a walk passes through the nodes that lie there. -/
theorem Coherent.passes [Ord Key] (coherent : Coherent tree order) {heading : Heading}
    {handle : Handle} {before beyond : List Handle} {passed : List (Key × Value)}
    (inOrder : heading.side.orient order = before ++ handle :: beyond)
    (pairs : (handle :: beyond).map tree.pair? = passed.map some) :
    Passes tree heading handle passed := by
  have threaded := coherent.threaded heading.side
  rw [inOrder] at threaded
  obtain ⟨middle, -, onward⟩ := Leads.append_iff.mp threaded
  obtain rfl : middle = some handle := onward.1
  refine passes_of_leads onward pairs ?_
  have lengths := congrArg List.length inOrder
  rw [Side.length_orient, List.length_append] at lengths
  rw [coherent.size]
  omega

/-- The entries of a coherent tree are those of its nodes, one by one. -/
theorem Coherent.exists_split [Ord Key] (coherent : Coherent tree order)
    {before beyond : List (Key × Value)} {entry : Key × Value}
    (inOrder : tree.entries order = before ++ entry :: beyond) :
    ∃ smaller handle greater, order = smaller ++ handle :: greater ∧
      smaller.map tree.pair? = before.map some ∧ tree.pair? handle = some entry ∧
      greater.map tree.pair? = beyond.map some := by
  have pairs := coherent.map_pair?_eq (List.Subset.refl order)
  rw [inOrder, List.map_append, List.map_cons] at pairs
  obtain ⟨smaller, more, rfl, onSmaller, onMore⟩ := List.map_eq_append_iff.mp pairs
  obtain ⟨handle, greater, rfl, found, onGreater⟩ := List.map_eq_cons_iff.mp onMore
  exact ⟨smaller, handle, greater, rfl, onSmaller, found, onGreater⟩

/-- What iterating over a tree gives, all in all. -/
structure Iterates [Ord Key] (tree : SplayTree Key Value) (entries : List (Key × Value)) :
    Prop where
  ascending : entries.Pairwise fun first second => compare first.1 second.1 = .lt
  /-- From both ends, in whatever order the ends are called. -/
  fromEnds : ∀ calls, Interleaves entries calls (tree.serve tree.cursor calls).1
    (tree.serve tree.cursor calls).2
  /-- From the node of an entry, towards either side. -/
  fromNodes : ∀ before entry beyond, entries = before ++ entry :: beyond →
    ∃ handle, tree.pair? handle = some entry ∧
      (∀ other, tree.key? other = some entry.1 → other = handle) ∧
      Passes tree .ascending handle (entry :: beyond) ∧
      Passes tree .descending handle (entry :: before.reverse)

theorem Coherent.iterates [Ord Key] [Std.TransOrd Key] (coherent : Coherent tree order) :
    Iterates tree (tree.entries order) where
  ascending := coherent.ascending_entries
  fromEnds := coherent.interleaves
  fromNodes before entry beyond inOrder := by
    obtain ⟨smaller, handle, greater, rfl, onSmaller, found, onGreater⟩ :=
      coherent.exists_split inOrder
    have names : tree.key? handle = some entry.1 := by
      rw [key?_eq_map_pair?, found, Option.map_some]
    have ahead : Side.right.orient (smaller ++ handle :: greater) = smaller ++ handle :: greater :=
      rfl
    have back : Side.left.orient (smaller ++ handle :: greater) =
        greater.reverse ++ handle :: smaller.reverse := by simp [Side.orient]
    refine ⟨handle, found, fun other isNamed => ?_, coherent.passes ahead ?_,
      coherent.passes back ?_⟩
    · exact coherent.eq_of_key? isNamed names Std.ReflOrd.compare_self
    · rw [List.map_cons, List.map_cons, found, onGreater]
    · rw [List.map_cons, List.map_cons, found, List.map_reverse, onSmaller, List.map_reverse]

/-- Whatever calls have built a tree, and in whatever order the ends of a cursor are called,
iterating over the tree gives the entries that the calls leave in a sorted map. -/
theorem exists_iterates_of_calls [Ord Key] [Std.TransOrd Key] (calls : List (Call Key Value)) :
    ∃ tree, calls.foldlM Call.tryPerform (empty : SplayTree Key Value) = some tree ∧
      Iterates tree (calls.foldl Call.onMap []) := by
  obtain ⟨tree, runs, ⟨order, coherent⟩, contents⟩ := valid_empty.exists_calls calls
  rw [coherent.toList_eq, toList_empty] at contents
  exact ⟨tree, runs, contents ▸ coherent.iterates⟩

/-- The thread of a tree whose root was removed, and its slot used again. -/
theorem exists_iterates_of_reusing_calls :
    Std.TransOrd Nat ∧
      ∃ tree, [Call.perform (.insert 4 10), .perform (.insert 2 20), .perform (.insert 6 30),
          .perform (.remove 4), .perform (.insert 5 40), .assign 6 (· + 1)].foldlM
            Call.tryPerform (empty : SplayTree Nat Nat) = some tree ∧
        Iterates tree [(2, 20), (5, 40), (6, 31)] :=
  ⟨inferInstance, exists_iterates_of_calls _⟩

end JitTrace.SplayTree
