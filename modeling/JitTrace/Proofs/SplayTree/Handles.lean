import JitTrace.Proofs.SplayTree.Refinement

/-!
# Handles that last

A handle names a key for as long as the key stays. Whatever is inserted, removed, looked up or
left out beside it, the handle leads to the same key, and its neighbours on the thread are those
that the key has in the sorted map. A visit of all entries, which removes while it walks, is no
exception.
-/

namespace JitTrace.SplayTree

variable {Key Value : Type}

/-! ## Visits on record -/

/-- A visitor that also keeps a record of the entries that it sees. -/
def recorded {State : Type} (visit : State → Key → Value → Bool × Value × State) :
    State × List (Key × Value) → Key → Value → Bool × Value × State × List (Key × Value)
  | (state, seen), key, value =>
    let (stays, changed, state) := visit state key value
    (stays, changed, state, seen ++ [(key, value)])

section Recorded

variable {State : Type} (visit : State → Key → Value → Bool × Value × State)

/-- The record changes nothing about what is left, and holds every entry once and in order. -/
theorem retained_recorded (state : State) (seen entries : List (Key × Value)) :
    retained (recorded visit) (state, seen) entries =
      (((retained visit state entries).1, seen ++ entries), (retained visit state entries).2) := by
  induction entries generalizing state seen with
  | nil => simp [retained]
  | cons entry rest inductionHypothesis =>
    obtain ⟨key, value⟩ := entry
    simp only [retained, recorded, inductionHypothesis, List.append_assoc, List.singleton_append]

variable [Ord Key]

/-- A visit on record is the visit. -/
theorem tryRetainFrom_recorded (steps : Nat) (start : Option Handle) (state : State)
    (seen : List (Key × Value)) (tree : SplayTree Key Value) :
    (tryRetainFrom (recorded visit) steps start (state, seen) tree).map (Prod.map Prod.fst id) =
      tryRetainFrom visit steps start state tree := by
  induction steps generalizing start state seen tree with
  | zero => cases start <;> rfl
  | succ steps inductionHypothesis =>
    cases start with
    | none => rfl
    | some handle =>
      rw [tryRetainFrom, tryRetainFrom]
      cases tree.slot? handle with
      | none => rfl
      | some slot =>
        obtain ⟨⟨stays, value, state'⟩, visited⟩ :
            ∃ outcome, visit state slot.key slot.value = outcome := ⟨_, rfl⟩
        have onRecord : recorded visit (state, seen) slot.key slot.value =
            (stays, value, state', seen ++ [(slot.key, slot.value)]) := by rw [recorded, visited]
        simp only [Option.bind_eq_bind, Option.bind_some, visited, onRecord]
        cases stays <;> simp only [if_true, Bool.false_eq_true, if_false,
          Option.map_bind, Function.comp_def, inductionHypothesis]

end Recorded

/-! ## Places of handles -/

variable [Ord Key] {tree : SplayTree Key Value} {order : List Handle}

/-- A handle names a key, no other handle does, and its neighbours on the thread lead to the
entries that come before and after the key. -/
structure Stands (tree : SplayTree Key Value) (handle : Handle) (key : Key) : Prop where
  names : tree.key? handle = some key
  unique : ∀ other same, tree.key? other = some same → compare key same = .eq → other = handle
  previous : (tree.previous? handle).map tree.pair? = (predecessor? key tree.toList).map some
  next : (tree.next? handle).map tree.pair? = (successor? key tree.toList).map some

/-- Nodes with a key are listed. -/
theorem Coherent.mem_of_key? (coherent : Coherent tree order) {handle : Handle} {key : Key}
    (names : tree.key? handle = some key) : handle ∈ order := by
  refine (coherent.live handle).mp ?_
  rw [key?, Option.map_eq_some_iff] at names
  obtain ⟨slot, found, -⟩ := names
  rw [found]
  rfl

/-- The keys of a tree are those of its nodes. -/
theorem Coherent.mem_keys_iff (coherent : Coherent tree order) {key : Key} :
    key ∈ tree.keys ↔ ∃ handle, tree.key? handle = some key := by
  rw [keys, coherent.toList_eq, entries, List.map_filterMap, List.mem_filterMap]
  simp only [← key?_eq_map_pair?]
  exact exists_congr fun handle => and_iff_right_of_imp coherent.mem_of_key?

variable [Std.TransOrd Key]

/-- Handles of one key are the same. -/
theorem Coherent.eq_of_key? (coherent : Coherent tree order) {first second : Handle}
    {key same : Key} (onFirst : tree.key? first = some same)
    (onSecond : tree.key? second = some key) (equal : compare key same = .eq) : first = second :=
  coherent.eq_of_direction (coherent.mem_of_key? onFirst) (coherent.mem_of_key? onSecond)
    ((direction_of_key? onFirst).trans equal)
    ((direction_of_key? onSecond).trans Std.ReflOrd.compare_self)

/-- The neighbour of a node on a side leads to the nearest entry on that side. -/
theorem Coherent.map_beside? (coherent : Coherent tree order) {handle : Handle} {key : Key}
    (names : tree.key? handle = some key) (side : Side) (wanted : Ordering → Bool)
    (near : wanted side.ordering = true) (here : wanted .eq = false)
    (far : wanted side.opposite.ordering = false) :
    (tree.beside? side handle).map tree.pair? =
      (nearest? key wanted side tree.toList).map some := by
  obtain ⟨before, beyond, rfl⟩ := List.append_of_mem (coherent.mem_of_key? names)
  have equal : tree.direction key handle = .eq :=
    (direction_of_key? names).trans Std.ReflOrd.compare_self
  obtain ⟨smaller, greater⟩ := coherent.directions equal
  have nodes : (side.orient (tree.wantedNodes (before ++ handle :: beyond) key wanted)).head? =
      tree.beside? side handle := by
    rw [wantedNodes, List.filter_append, List.filter_cons_of_neg (by simp [equal, here]),
      filter_of_direction smaller (fun ordering => wanted ordering.swap),
      filter_of_direction greater (fun ordering => wanted ordering.swap)]
    cases side with
    | left =>
      have wantsSmaller : wanted .lt = true := near
      have wantsGreater : wanted .gt = false := far
      simp [coherent.beside?_eq .left before beyond rfl, wantsSmaller, wantsGreater]
    | right =>
      have wantsSmaller : wanted .lt = false := far
      have wantsGreater : wanted .gt = true := near
      have isBeside : tree.beside? .right handle = beyond.head? :=
        coherent.beside?_eq .right beyond before (by simp [Side.join])
      simp [isBeside, Side.orient, wantsSmaller, wantsGreater]
  have within : ∀ other ∈ tree.beside? side handle, other ∈ before ++ handle :: beyond := by
    intro other isBeside
    rw [← nodes] at isBeside
    exact (List.mem_filter.mp (Side.mem_orient.mp (List.mem_of_head? isBeside))).1
  rw [coherent.nearest?_eq, nodes, coherent.map_pair? within]

theorem Valid.stands (valid : Valid tree) {handle : Handle} {key : Key}
    (names : tree.key? handle = some key) : Stands tree handle key := by
  obtain ⟨order, coherent⟩ := valid
  refine ⟨names, fun other same isNamed equal => coherent.eq_of_key? isNamed names equal, ?_, ?_⟩
  · rw [← nearest?_isLT]
    exact coherent.map_beside? names .left (·.isLT) rfl rfl rfl
  · exact coherent.map_beside? names .right (·.isGT) rfl rfl rfl

/-- The call does not remove the key, and does not clear the tree. -/
def Call.Spares (key : Key) (map : List (Key × Value)) : Call Key Value → Prop
  | .perform (.remove other) => compare other key ≠ .eq
  | .perform (.retain visit state) => key ∈ (retained visit state map).2.map (·.1)
  | .perform .clear => False
  | _ => True

/-- None of the calls, made on a sorted map one after the other, removes the key or clears the
map. -/
def Spared (key : Key) : List (Key × Value) → List (Call Key Value) → Prop
  | _, [] => True
  | map, call :: calls => call.Spares key map ∧ Spared key (call.onMap map) calls

/-- When some of the nodes are left, and lead to the keys that they led to, the handle of a key
that is left leads to it: the node that holds the key has held it before. -/
theorem Coherent.key?_of_kept (coherent : Coherent tree order) {after : SplayTree Key Value}
    {kept : List Handle} (keptCoherent : Coherent after kept)
    (keys : ∀ handle ∈ kept, after.key? handle = tree.key? handle) {handle : Handle} {key : Key}
    (names : tree.key? handle = some key) (isKept : key ∈ after.keys) :
    after.key? handle = some key := by
  obtain ⟨holder, holds⟩ := keptCoherent.mem_keys_iff.mp isKept
  have held := (keys holder (keptCoherent.mem_of_key? holds)).symm.trans holds
  rwa [← coherent.eq_of_key? held names Std.ReflOrd.compare_self]

omit [Ord Key] [Std.TransOrd Key] in
theorem eq_of_map_snd {Answer : Type} {outcome : Option (Answer × SplayTree Key Value)}
    {answer : Answer} {reached after : SplayTree Key Value}
    (isOutcome : outcome = some (answer, reached))
    (performs : outcome.map (·.2) = some after) : reached = after := by
  rw [isOutcome] at performs
  exact Option.some.inj performs

/-- A handle leads to its key after an operation that spares the key. -/
theorem Coherent.key?_operation (coherent : Coherent tree order)
    {operation : Operation Key Value} {after : SplayTree Key Value}
    (performs : operation.tryPerform tree = some after) {handle : Handle} {key : Key}
    (names : tree.key? handle = some key)
    (spares : (Call.perform operation).Spares key tree.toList) :
    after.key? handle = some key := by
  rw [← names]
  cases operation with
  | insert added value =>
    rcases coherent.exists_tryInsert added value with
      ⟨_, inserts, same, -, -⟩ | ⟨_, before, beyond, new, inserts, -, isAdded⟩
    · obtain rfl := eq_of_map_snd inserts performs
      rw [same.key?]
    · obtain rfl := eq_of_map_snd inserts performs
      have notNew : handle ≠ new := by
        rintro rfl
        rw [key?, isAdded.fresh] at names
        contradiction
      rw [key?_eq_map_pair?, isAdded.kept handle notNew, ← key?_eq_map_pair?]
  | remove other =>
    rcases coherent.exists_tryRemove other with
      ⟨_, removes, same, -, -⟩ | ⟨_, _, before, beyond, old, removes, -, -, isRemoved⟩
    · obtain rfl := eq_of_map_snd removes performs
      rw [same.key?]
    · obtain rfl := eq_of_map_snd removes performs
      have notOld : handle ≠ old := by
        rintro rfl
        exact spares ((direction_of_key? names).symm.trans isRemoved.found)
      rw [key?_eq_map_pair?, isRemoved.kept handle notOld, ← key?_eq_map_pair?]
  | find other =>
    obtain ⟨_, finds, same, -⟩ := coherent.exists_tryFind other
    obtain rfl := eq_of_map_snd finds performs
    rw [same.key?]
  | get other =>
    obtain ⟨_, gets, same, -⟩ := coherent.exists_tryGet other
    obtain rfl := eq_of_map_snd gets performs
    rw [same.key?]
  | modify other change =>
    obtain ⟨_, changes, -, pairs⟩ := coherent.exists_tryChange other change
    obtain rfl := eq_of_map_snd changes performs
    rw [key?_eq_map_pair?, pairs, key?_eq_map_pair?]
    split <;> simp [Function.comp_def]
  | greatestBelow other =>
    obtain ⟨_, _, finds, same, -⟩ := coherent.exists_tryNearest other (·.isLT) .left rfl rfl
    obtain rfl := eq_of_map_snd finds performs
    rw [same.key?]
  | greatestAtMost other =>
    obtain ⟨_, _, finds, same, -⟩ := coherent.exists_tryNearest other (·.isLE) .left rfl rfl
    obtain rfl := eq_of_map_snd finds performs
    rw [same.key?]
  | leastAbove other =>
    obtain ⟨_, _, finds, same, -⟩ := coherent.exists_tryNearest other (·.isGT) .right rfl rfl
    obtain rfl := eq_of_map_snd finds performs
    rw [same.key?]
  | retain visit state =>
    obtain ⟨left, kept, retains, keptCoherent, contents, -, keys⟩ :=
      coherent.exists_tryRetain visit state
    obtain rfl := eq_of_map_snd retains performs
    have isKept : key ∈ left.keys := by
      rw [SplayTree.keys, contents]
      exact spares
    rw [coherent.key?_of_kept keptCoherent keys names isKept, names]
  | clear => exact spares.elim

/-- A handle leads to its key after a call that spares the key. -/
theorem Valid.key?_call (valid : Valid tree) {call : Call Key Value} {after : SplayTree Key Value}
    (performs : call.tryPerform tree = some after) {handle : Handle} {key : Key}
    (names : tree.key? handle = some key) (spares : call.Spares key tree.toList) :
    after.key? handle = some key := by
  obtain ⟨order, coherent⟩ := valid
  cases call with
  | perform operation => exact coherent.key?_operation performs names spares
  | assign other change =>
    rw [Call.tryPerform, coherent.tryPeek_eq] at performs
    cases found : order.find? fun handle => tree.direction other handle == .eq with
    | none =>
      rw [found] at performs
      rwa [← Option.some.inj performs]
    | some holder =>
      have live := (coherent.live holder).mpr (List.mem_of_find?_eq_some found)
      rw [found] at performs
      have changed : tree.revalue holder change = after :=
        Option.some.inj ((tryModify_of_live live _).symm.trans performs)
      rwa [← changed, key?_revalue]

/-- Calls leave in a valid tree what they leave in the sorted map of its entries. -/
theorem Valid.exists_calls (valid : Valid tree) (calls : List (Call Key Value)) :
    ∃ after, calls.foldlM Call.tryPerform tree = some after ∧ Valid after ∧
      after.toList = calls.foldl Call.onMap tree.toList := by
  induction calls generalizing tree with
  | nil => exact ⟨tree, rfl, valid, rfl⟩
  | cons call calls inductionHypothesis =>
    obtain ⟨between, performs, betweenValid, contents⟩ := valid.exists_call call
    obtain ⟨after, runs, afterValid, afterContents⟩ := inductionHypothesis betweenValid
    refine ⟨after, by simp [performs, runs], afterValid, ?_⟩
    rw [afterContents, contents, List.foldl_cons]

/-- A handle leads to its key, and has the place of the key, after calls that spare the key. -/
theorem Valid.exists_stands (valid : Valid tree) {calls : List (Call Key Value)} {handle : Handle}
    {key : Key} (names : tree.key? handle = some key) (spared : Spared key tree.toList calls) :
    ∃ after, calls.foldlM Call.tryPerform tree = some after ∧ Stands after handle key := by
  induction calls generalizing tree with
  | nil => exact ⟨tree, rfl, valid.stands names⟩
  | cons call calls inductionHypothesis =>
    obtain ⟨spares, spared⟩ := spared
    obtain ⟨between, performs, betweenValid, contents⟩ := valid.exists_call call
    have stillNames := valid.key?_call performs names spares
    rw [← contents] at spared
    obtain ⟨after, runs, stands⟩ := inductionHypothesis betweenValid stillNames spared
    exact ⟨after, by simp [performs, runs], stands⟩

/-! ## Visits of all entries -/

/-- What a visit of all entries does. The visitor sees every entry once and in key order. The
entries that it wants to keep are left, with the values that it gave them, and their handles lead
to the same keys, beside each other. -/
structure Retains {State : Type} (tree : SplayTree Key Value)
    (visit : State → Key → Value → Bool × Value × State) (state : State)
    (after : SplayTree Key Value) : Prop where
  retains : tree.tryRetain visit state = some ((retained visit state tree.toList).1, after)
  seen : tree.tryRetain (recorded visit) (state, []) =
    some (((retained visit state tree.toList).1, tree.toList), after)
  ascending : tree.toList.Pairwise fun first second => compare first.1 second.1 = .lt
  contents : after.toList = (retained visit state tree.toList).2
  survives : ∀ handle key, tree.key? handle = some key → key ∈ after.keys → Stands after handle key
  survived : ∀ handle key, after.key? handle = some key → tree.key? handle = some key

theorem Valid.exists_retains {State : Type} (valid : Valid tree)
    (visit : State → Key → Value → Bool × Value × State) (state : State) :
    ∃ after, Retains tree visit state after := by
  obtain ⟨order, coherent⟩ := valid
  obtain ⟨after, kept, retains, keptCoherent, contents, -, keys⟩ :=
    coherent.exists_tryRetain (recorded visit) (state, [])
  rw [retained_recorded, List.nil_append] at retains contents
  refine ⟨after, ?_, retains, Valid.ascending ⟨order, coherent⟩, contents,
    fun handle key names isKept => ?_, fun handle key names => ?_⟩
  · rw [tryRetain, ← tryRetainFrom_recorded visit _ _ state []]
    exact congrArg (Option.map (Prod.map Prod.fst id)) retains
  · exact Valid.stands ⟨kept, keptCoherent⟩
      (coherent.key?_of_kept keptCoherent keys names isKept)
  · rw [← keys handle (keptCoherent.mem_of_key? names), names]

/-- Whatever calls have built a tree, a visit of all its entries leaves those that the visitor
wants to keep, and a handle keeps its key and its place through any calls that do not remove the
key or clear the tree. -/
theorem exists_lasting_of_calls (calls : List (Call Key Value)) :
    ∃ tree, calls.foldlM Call.tryPerform (empty : SplayTree Key Value) = some tree ∧
      (∀ {State : Type} (visit : State → Key → Value → Bool × Value × State) (state : State),
        ∃ after, Retains tree visit state after) ∧
      ∀ handle key, tree.key? handle = some key → ∀ more, Spared key tree.toList more →
        ∃ after, more.foldlM Call.tryPerform tree = some after ∧ Stands after handle key := by
  obtain ⟨tree, runs, valid, -⟩ := valid_empty.exists_calls calls
  exact ⟨tree, runs, fun visit state => valid.exists_retains visit state,
    fun handle key names more spared => valid.exists_stands names spared⟩

/-- The handle of the smallest key lasts while its parent is removed and the vacated slot is
used for another key. -/
theorem exists_lasting_beside_removal :
    Std.TransOrd Nat ∧ ∃ tree after : SplayTree Nat Nat,
      [Call.perform (.insert 4 0), .perform (.insert 2 1), .perform (.insert 6 2)].foldlM
        Call.tryPerform empty = some tree ∧ tree.key? 1 = some 2 ∧
      [Call.perform (.remove 4), .perform (.insert 5 3)].foldlM Call.tryPerform tree =
        some after ∧ Stands after 1 2 := by
  obtain ⟨tree, runs, -, lasts⟩ := exists_lasting_of_calls
    [Call.perform (.insert 4 0), .perform (.insert 2 1), .perform (.insert 6 2)]
  have names : ([Call.perform (.insert 4 0), .perform (.insert 2 1), .perform (.insert 6 2)].foldlM
      Call.tryPerform (empty : SplayTree Nat Nat)).bind (·.key? 1) = some 2 := by decide
  rw [runs] at names
  obtain ⟨after, goesOn, stands⟩ := lasts 1 2 names
    [.perform (.remove 4), .perform (.insert 5 3)]
    ⟨(by decide : compare 4 2 ≠ .eq), trivial, trivial⟩
  exact ⟨inferInstance, tree, after, runs, names, goesOn, stands⟩

end JitTrace.SplayTree
