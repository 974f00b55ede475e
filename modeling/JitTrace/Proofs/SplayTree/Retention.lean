import JitTrace.Proofs.SplayTree.Entries
import JitTrace.Proofs.SplayTree.Removal

/-!
# Values of coherent splay trees

Reading and overwriting values leaves a tree coherent over the same nodes, and a
visit of every entry ends with the nodes that the visitor wants to keep. A visited
node is removed after its successor has been read, so the visit goes on in the order
it began with.
-/

namespace JitTrace.SplayTree

variable {Key Value : Type} {tree : SplayTree Key Value} {order : List Handle}

/-- The tree with the value of a node changed. -/
def revalue (tree : SplayTree Key Value) (handle : Handle) (change : Value → Value) :
    SplayTree Key Value :=
  tree.modifySlot handle fun slot => { slot with value := change slot.value }

theorem pair?_revalue (tree : SplayTree Key Value) (handle : Handle) (change : Value → Value)
    (other : Handle) :
    (tree.revalue handle change).pair? other =
      if other = handle then (tree.pair? other).map (Prod.map id change) else tree.pair? other := by
  rw [revalue, pair?, slot?_modifySlot, pair?]
  split <;> simp [Function.comp_def]

/-- Any reading of a slot that ignores the value is the same. -/
theorem slot?_revalue_bind {Read : Type} (tree : SplayTree Key Value) (handle : Handle)
    (change : Value → Value) (read : Slot Key Value → Option Read)
    (ignores : ∀ slot value, read { slot with value } = read slot) (other : Handle) :
    ((tree.revalue handle change).slot? other).bind read = (tree.slot? other).bind read := by
  rw [revalue, slot?_modifySlot]
  split
  · rw [Option.bind_map]
    congr 1
    funext slot
    exact ignores slot _
  · rfl

theorem key?_revalue (tree : SplayTree Key Value) (handle : Handle) (change : Value → Value) :
    (tree.revalue handle change).key? = tree.key? := by
  funext other
  rw [key?, key?, Option.map_eq_bind, Option.map_eq_bind]
  exact slot?_revalue_bind tree handle change _ (fun _ _ => rfl) other

variable [Ord Key]

/-- A change of a value leaves a coherent tree coherent. -/
theorem Coherent.revalue (coherent : Coherent tree order) (handle : Handle)
    (change : Value → Value) : Coherent (tree.revalue handle change) order := by
  have child : (tree.revalue handle change).child? = tree.child? := by
    funext side
    exact funext (slot?_revalue_bind tree handle change (·.child side) fun _ _ => by
      cases side <;> rfl)
  have beside : (tree.revalue handle change).beside? = tree.beside? := by
    funext side
    exact funext (slot?_revalue_bind tree handle change (·.neighbour side) fun _ _ => by
      cases side <;> rfl)
  have live : ∀ other, ((tree.revalue handle change).slot? other).isSome =
      (tree.slot? other).isSome := by
    intro other
    rw [SplayTree.revalue, slot?_modifySlot]
    split <;> simp
  refine ⟨?_, fun other => ?_, ?_, fun side => ?_, coherent.size, ?_⟩
  · rw [child]
    exact coherent.linked
  · rw [live, coherent.live]
  · exact coherent.ascending.imp fun {first second} precedes => by
      simpa only [Precedes, key?_revalue] using precedes
  · rw [beside, SplayTree.revalue, entrance_modifySlot]
    exact coherent.threaded side
  · exact coherent.freeList.congr rfl (by simp [SplayTree.revalue, modifySlot]) live

variable [Std.TransOrd Key]

/-- Looking a value up finds it, and only rearranges the tree. -/
theorem Coherent.exists_tryGet (coherent : Coherent tree order) (key : Key) :
    ∃ searched, tree.tryGet key =
        some ((order.find? fun handle => tree.direction key handle == .eq).bind tree.value?,
          searched) ∧
      Rearranged tree searched ∧ Coherent searched order := by
  obtain ⟨searched, finds, same, after⟩ := coherent.exists_tryFind key
  refine ⟨searched, ?_, same, after⟩
  cases found : order.find? fun handle => tree.direction key handle == .eq with
  | none => simp [tryGet, finds, found]
  | some handle =>
    obtain ⟨slot, slotFound⟩ :=
      Option.isSome_iff_exists.mp ((after.live handle).mpr (List.mem_of_find?_eq_some found))
    have value : tree.value? handle = some slot.value := by
      rw [← same.value?]
      simp [value?, slotFound]
    simp [tryGet, finds, found, slotFound, value]

/-- Changing the value of a key gives the value it had, changes the entry of the node that
holds the key alone, and leaves a coherent tree. -/
theorem Coherent.exists_tryChange (coherent : Coherent tree order) (key : Key)
    (change : Value → Value) :
    let holder? := order.find? fun handle => tree.direction key handle == .eq
    ∃ changed, tree.tryChange key change = some (holder?.bind tree.value?, changed) ∧
      Coherent changed order ∧ ∀ other, changed.pair? other =
        if holder? = some other then (tree.pair? other).map (Prod.map id change)
        else tree.pair? other := by
  intro holder?
  obtain ⟨searched, finds, same, after⟩ := coherent.exists_tryFind key
  change tree.tryFind key = some (holder?, searched) at finds
  cases found : holder? with
  | none =>
    exact ⟨searched, by simp [tryChange, finds, found], after, fun other => by
      simp [same.pair?]⟩
  | some handle =>
    have live := (after.live handle).mpr (List.mem_of_find?_eq_some found)
    obtain ⟨slot, slotFound⟩ := Option.isSome_iff_exists.mp live
    have value : tree.value? handle = some slot.value := by
      rw [← same.value?]
      simp [value?, slotFound]
    refine ⟨searched.revalue handle change, ?_, after.revalue handle change, fun other => ?_⟩
    · simp [tryChange, finds, found, slotFound, value, tryModify_of_live live,
        SplayTree.revalue]
    · rw [pair?_revalue, same.pair?]
      simp only [Option.some.injEq, eq_comm]

/-- A node that holds a key divides the smaller keys from the greater ones. -/
theorem Coherent.directions {before after : List Handle} {handle : Handle} {key : Key}
    (coherent : Coherent tree (before ++ handle :: after))
    (holds : tree.direction key handle = .eq) :
    (∀ other ∈ before, tree.direction key other = .gt) ∧
      ∀ other ∈ after, tree.direction key other = .lt := by
  obtain ⟨-, onward, across⟩ := List.pairwise_append.mp (coherent.searchable key).ordered
  constructor
  · intro other inBefore
    simpa [holds] using across other inBefore handle List.mem_cons_self
  · intro other inAfter
    simpa [holds] using (List.pairwise_cons.mp onward).1 other inAfter

/-- At most one node holds a key. -/
theorem Coherent.eq_of_direction (coherent : Coherent tree order) {key : Key}
    {first second : Handle} (inFirst : first ∈ order) (inSecond : second ∈ order)
    (onFirst : tree.direction key first = .eq) (onSecond : tree.direction key second = .eq) :
    first = second := by
  obtain ⟨before, after, rfl⟩ := List.append_of_mem inFirst
  obtain ⟨smaller, greater⟩ := coherent.directions onFirst
  rcases List.mem_append.mp inSecond with inBefore | inRest
  · simp [smaller second inBefore] at onSecond
  · rcases List.mem_cons.mp inRest with same | inAfter
    · exact same.symm
    · simp [greater second inAfter] at onSecond

/-- A node that holds a key is the one found for it. -/
theorem Coherent.find?_eq_some_iff (coherent : Coherent tree order) {key : Key}
    {handle : Handle} :
    (order.find? fun handle => tree.direction key handle == .eq) = some handle ↔
      handle ∈ order ∧ tree.direction key handle = .eq := by
  constructor
  · intro found
    exact ⟨List.mem_of_find?_eq_some found, by simpa using List.find?_some found⟩
  · rintro ⟨inside, holds⟩
    have present : (order.find? fun handle => tree.direction key handle == .eq).isSome :=
      List.find?_isSome.mpr ⟨handle, inside, by simp [holds]⟩
    obtain ⟨holder, found⟩ := Option.isSome_iff_exists.mp present
    have holderHolds : tree.direction key holder = .eq := by simpa using List.find?_some found
    rw [found, coherent.eq_of_direction (List.mem_of_find?_eq_some found) inside holderHolds holds]

/-- Changing the value of a node changes the entries of no other node. -/
theorem Coherent.entries_revalue {kept rest : List Handle} {handle : Handle}
    (coherent : Coherent tree (kept ++ handle :: rest)) (change : Value → Value) :
    (tree.revalue handle change).entries kept = tree.entries kept ∧
      (tree.revalue handle change).entries rest = tree.entries rest := by
  have distinct := coherent.distinct
  simp only [List.nodup_append, List.nodup_cons, List.mem_cons] at distinct
  obtain ⟨-, ⟨notInRest, -⟩, keptApart⟩ := distinct
  have elsewhere : ∀ other, other ≠ handle →
      (tree.revalue handle change).pair? other = tree.pair? other := by
    intro other different
    rw [pair?_revalue, if_neg different]
  constructor
  · exact entries_congr fun other inside =>
      elsewhere other (keptApart other inside handle (.inl rfl))
  · exact entries_congr fun other inside => elsewhere other (ne_of_mem_of_not_mem inside notInRest)

/-- Removing the key of a node takes that node out and leaves the entries of the others. -/
theorem Coherent.exists_tryRemove_node {kept rest : List Handle} {handle : Handle} {key : Key}
    {value : Value} (coherent : Coherent tree (kept ++ handle :: rest))
    (here : tree.pair? handle = some (key, value)) :
    ∃ entry shrunk, tree.tryRemove key = some (some entry, shrunk) ∧
      Coherent shrunk (kept ++ rest) ∧
      ∀ other ∈ kept ++ rest, shrunk.pair? other = tree.pair? other := by
  have present : tree.direction key handle = .eq := by
    rw [direction, key?_eq_map_pair?, here]
    exact Std.ReflOrd.compare_self
  have distinct := coherent.distinct
  simp only [List.nodup_append, List.nodup_cons, List.mem_cons] at distinct
  obtain ⟨-, ⟨notInRest, -⟩, keptApart⟩ := distinct
  have notInKept : handle ∉ kept := fun inside => keptApart handle inside handle (.inl rfl) rfl
  rcases coherent.exists_tryRemove key with
    ⟨searched, -, -, -, absent⟩ | ⟨entry, shrunk, before, after, old, removes, inOrder, -, removed⟩
  · exact absurd present (absent handle (by simp))
  · have oldInside : old ∈ kept ++ handle :: rest := by simp [← inOrder]
    obtain rfl : handle = old :=
      coherent.eq_of_direction (by simp) oldInside present removed.found
    obtain ⟨rfl, -, rfl⟩ := (List.append_cons_inj_of_notMem notInKept notInRest).mp inOrder.symm
    have notInside : handle ∉ kept ++ rest := by simp [notInKept, notInRest]
    exact ⟨entry, shrunk, removes, removed.coherent, fun other inside =>
      removed.kept other (ne_of_mem_of_not_mem inside notInside)⟩

/-! ## Visits -/

section Visits

variable {State : Type} (visit : State → Key → Value → Bool × Value × State)

omit [Ord Key] [Std.TransOrd Key] in
/-- What a visitor leaves of entries that it sees one after the other. -/
def retained : State → List (Key × Value) → State × List (Key × Value)
  | state, [] => (state, [])
  | state, (key, value) :: rest =>
    let (stays, value, state) := visit state key value
    let (state, kept) := retained state rest
    (state, if stays then (key, value) :: kept else kept)

omit [Ord Key] [Std.TransOrd Key] in
/-- A visitor that leaves values alone leaves some of the entries. -/
theorem retained_sublist (keeps : ∀ state key value, (visit state key value).2.1 = value)
    (state : State) (entries : List (Key × Value)) :
    (retained visit state entries).2.Sublist entries := by
  induction entries generalizing state with
  | nil => exact .slnil
  | cons entry rest inductionHypothesis =>
    obtain ⟨key, value⟩ := entry
    simp only [retained, keeps]
    split
    · exact (inductionHypothesis _).cons_cons _
    · exact (inductionHypothesis _).cons _

omit [Ord Key] [Std.TransOrd Key] in
/-- A visitor that leaves values alone and remembers nothing leaves what passes its test. -/
theorem retained_eq_filter (keeps : ∀ state key value, (visit state key value).2.1 = value)
    (test : Key × Value → Bool)
    (tests : ∀ state key value, (visit state key value).1 = test (key, value))
    (state : State) (entries : List (Key × Value)) :
    (retained visit state entries).2 = entries.filter test := by
  induction entries generalizing state with
  | nil => rfl
  | cons entry rest inductionHypothesis =>
    obtain ⟨key, value⟩ := entry
    simp only [retained, keeps, tests, inductionHypothesis, List.filter_cons]

/-- A visit that has come as far as `rest` leaves the nodes behind it alone, and leaves
of the others what the visitor wants to keep. What is left keeps its keys. -/
theorem Coherent.exists_tryRetainFrom {kept rest : List Handle} {steps : Nat}
    (coherent : Coherent tree (kept ++ rest)) (enough : rest.length ≤ steps) (state : State) :
    ∃ after order, tryRetainFrom visit steps rest.head? state tree =
        some ((retained visit state (tree.entries rest)).1, after) ∧
      Coherent after order ∧
      after.entries order =
        tree.entries kept ++ (retained visit state (tree.entries rest)).2 ∧
      order ⊆ kept ++ rest ∧ ∀ other ∈ order, after.key? other = tree.key? other := by
  induction rest generalizing tree kept steps state with
  | nil =>
    refine ⟨tree, kept, ?_, by simpa using coherent, by simp [entries, retained], by simp,
      fun _ _ => rfl⟩
    cases steps <;> rfl
  | cons handle rest inductionHypothesis =>
    obtain ⟨steps, rfl⟩ : ∃ fewer, steps = fewer + 1 :=
      Nat.exists_eq_add_one_of_ne_zero (by rintro rfl; simp at enough)
    have enough : rest.length ≤ steps := by simpa using enough
    have live := (coherent.live handle).mpr (by simp)
    obtain ⟨slot, found⟩ := Option.isSome_iff_exists.mp live
    have next : slot.next = rest.head? := by
      have beside : tree.beside? .right handle = rest.head? :=
        coherent.beside?_eq .right rest kept (by simp [Side.join])
      simpa [beside?, found, Slot.neighbour] using beside
    obtain ⟨⟨stays, value, state'⟩, visited⟩ :
        ∃ outcome, visit state slot.key slot.value = outcome := ⟨_, rfl⟩
    let marked := tree.revalue handle fun _ => value
    have marks : tree.tryModify handle (fun slot => { slot with value }) = some marked :=
      tryModify_of_live live _
    have markedCoherent : Coherent marked (kept ++ handle :: rest) := coherent.revalue handle _
    obtain ⟨keptSame, restSame⟩ : marked.entries kept = tree.entries kept ∧
        marked.entries rest = tree.entries rest := coherent.entries_revalue _
    have here : tree.pair? handle = some (slot.key, slot.value) := by simp [pair?, found]
    have markedHere : marked.pair? handle = some (slot.key, value) := by
      simp [marked, pair?_revalue, here]
    have markedKey : marked.key? = tree.key? := key?_revalue ..
    rw [entries_cons here]
    cases stays with
    | true =>
      have onward : Coherent marked ((kept ++ [handle]) ++ rest) := by simpa using markedCoherent
      obtain ⟨after, order, retains, afterCoherent, entries, within, keys⟩ :=
        inductionHypothesis onward enough state'
      refine ⟨after, order, ?_, afterCoherent, ?_, ?_, markedKey ▸ keys⟩
      · rw [restSame] at retains
        simp [tryRetainFrom, found, visited, marks, next, retains, retained]
      · rw [entries, entries_append, keptSame, restSame, entries_cons markedHere]
        simp [retained, visited, SplayTree.entries]
      · simpa using within
    | false =>
      obtain ⟨entry, shrunk, removes, shrunkCoherent, others⟩ :=
        markedCoherent.exists_tryRemove_node markedHere
      have keptLast : shrunk.entries kept = marked.entries kept :=
        entries_congr fun other inside => others other (List.mem_append_left _ inside)
      have restLast : shrunk.entries rest = marked.entries rest :=
        entries_congr fun other inside => others other (List.mem_append_right _ inside)
      obtain ⟨after, order, retains, afterCoherent, entries, within, keys⟩ :=
        inductionHypothesis shrunkCoherent enough state'
      rw [restLast, restSame] at retains entries
      refine ⟨after, order, ?_, afterCoherent, ?_, ?_, fun other inside => ?_⟩
      · simp [tryRetainFrom, found, visited, marks, next, removes, retains, retained]
      · rw [entries, keptLast, keptSame]
        simp [retained, visited]
      · exact List.Subset.trans within
          ((List.sublist_cons_self handle rest).append_left kept).subset
      · rw [keys other inside, key?_eq_map_pair?, others other (within inside),
          ← key?_eq_map_pair?, markedKey]

/-- A visit of every entry leaves a coherent tree of those that the visitor keeps, at the nodes
that held them. -/
theorem Coherent.exists_tryRetain (coherent : Coherent tree order) (state : State) :
    ∃ after kept, tree.tryRetain visit state =
        some ((retained visit state tree.toList).1, after) ∧
      Coherent after kept ∧ after.toList = (retained visit state tree.toList).2 ∧
      kept ⊆ order ∧ ∀ handle ∈ kept, after.key? handle = tree.key? handle := by
  have first : tree.first = order.head? := coherent.entrance_eq .right
  have started : Coherent tree ([] ++ order) := coherent
  obtain ⟨after, kept, retains, afterCoherent, entries, within, keys⟩ :=
    started.exists_tryRetainFrom visit (coherent.length_le coherent.distinct) state
  rw [← first, ← coherent.toList_eq] at retains
  rw [← coherent.toList_eq, ← afterCoherent.toList_eq] at entries
  exact ⟨after, kept, retains, afterCoherent, by simpa [SplayTree.entries] using entries, within,
    keys⟩

end Visits

end JitTrace.SplayTree
