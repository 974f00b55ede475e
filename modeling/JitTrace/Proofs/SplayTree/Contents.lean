import JitTrace.Proofs.SplayTree.Insertion
import JitTrace.Proofs.SplayTree.Retention

/-!
# Contents of splay trees

A splay tree as its callers see it: a list of entries in key order. Each operation is
described by what it answers and by the entries it leaves, so that nothing built on
splay trees has to look at their links.
-/

namespace JitTrace.SplayTree

variable {Key Value : Type} [Ord Key]

/-- The tree is coherent over some order of nodes. -/
def Valid (tree : SplayTree Key Value) : Prop :=
  ∃ order, Coherent tree order

theorem valid_empty : Valid (empty : SplayTree Key Value) :=
  ⟨[], coherent_empty⟩

omit [Ord Key] in
@[simp] theorem toList_empty : (empty : SplayTree Key Value).toList = [] := rfl

/-- The entry of a key. -/
def found? (key : Key) (entries : List (Key × Value)) : Option (Key × Value) :=
  entries.find? fun entry => compare key entry.1 == .eq

/-- The entries with one added, unless its key is present. -/
def inserted (key : Key) (value : Value) (entries : List (Key × Value)) : List (Key × Value) :=
  if (found? key entries).isSome then entries
  else entries.filter (fun entry => compare key entry.1 == .gt) ++
    (key, value) :: entries.filter fun entry => compare key entry.1 == .lt

/-- The entries with the value of a key changed. -/
def changed (key : Key) (change : Value → Value) (entries : List (Key × Value)) :
    List (Key × Value) :=
  entries.map fun entry =>
    if compare key entry.1 == .eq then (entry.1, change entry.2) else entry

/-- The entries without that of a key. -/
def removed (key : Key) (entries : List (Key × Value)) : List (Key × Value) :=
  entries.filter fun entry => compare key entry.1 != .eq

/-- The entry nearest to a key among those on a side that compare with it as wanted. -/
def nearest? (key : Key) (wanted : Ordering → Bool) (side : Side)
    (entries : List (Key × Value)) : Option (Key × Value) :=
  (side.orient (entries.filter fun entry => wanted (compare entry.1 key))).head?

omit [Ord Key] in
theorem bind_eq_of_map_eq {handle? : Option Handle} {stored? : Option (Key × Value)}
    {pair? : Handle → Option (Key × Value)} (leads : handle?.map pair? = stored?.map some) :
    handle?.bind pair? = stored? := by
  cases handle? <;> cases stored? <;> simp_all

variable {tree : SplayTree Key Value} {order : List Handle}

/-- A rearranged tree has the same contents. -/
theorem Coherent.toList_of_rearranged {after : SplayTree Key Value}
    (coherent : Coherent tree order) (same : Rearranged tree after)
    (afterCoherent : Coherent after order) : after.toList = tree.toList := by
  rw [afterCoherent.toList_eq, coherent.toList_eq]
  exact entries_congr fun handle _ => by rw [same.pair?]

/-- The entry of a key is that of the node that holds it. -/
theorem Coherent.found?_eq (coherent : Coherent tree order) (key : Key) :
    found? key tree.toList =
      (order.find? fun handle => tree.direction key handle == .eq).bind tree.pair? := by
  have within : (order.filter fun handle => tree.direction key handle == .eq) ⊆ order :=
    List.filter_subset_self ..
  rw [coherent.toList_eq, found?, ← List.head?_filter, ← List.head?_filter,
    entries_filter tree order key (· == .eq)]
  exact coherent.head?_orient_entries .right within

/-- A key is present exactly when a node holds it. -/
theorem Coherent.isSome_found?_iff (coherent : Coherent tree order) (key : Key) :
    (found? key tree.toList).isSome ↔ ∃ handle ∈ order, tree.direction key handle = .eq := by
  rw [coherent.found?_eq]
  cases found : order.find? fun handle => tree.direction key handle == .eq with
  | none =>
    rw [List.find?_eq_none] at found
    simpa using found
  | some handle =>
    have inside := List.mem_of_find?_eq_some found
    obtain ⟨entry, stored⟩ := coherent.exists_pair inside
    have holds : tree.direction key handle = .eq := by simpa using List.find?_some found
    simpa [stored] using ⟨handle, inside, holds⟩

/-- A handle of a node leads to an entry. -/
theorem Coherent.map_pair? (coherent : Coherent tree order) {handle? : Option Handle}
    (within : ∀ handle ∈ handle?, handle ∈ order) :
    handle?.map tree.pair? = (handle?.bind tree.pair?).map some := by
  cases handle? with
  | none => rfl
  | some handle =>
    obtain ⟨entry, found⟩ := coherent.exists_pair (within handle rfl)
    simp [found]

/-- The value of a key is that of the node that holds it. -/
theorem Coherent.map_found?_eq (coherent : Coherent tree order) (key : Key) :
    (found? key tree.toList).map (·.2) =
      (order.find? fun handle => tree.direction key handle == .eq).bind tree.value? := by
  have values : (fun handle => (tree.pair? handle).map (·.2)) = tree.value? := by
    funext handle
    simp [pair?, value?, Function.comp_def]
  rw [coherent.found?_eq, Option.map_bind]
  exact congrArg (Option.bind _) values

/-- Changing the value of the node that holds a key changes the entry of the key. -/
theorem Coherent.entries_changed [Std.TransOrd Key] {after : SplayTree Key Value} {key : Key}
    {change : Value → Value} (coherent : Coherent tree order)
    (pairs : ∀ other, after.pair? other =
      if (order.find? fun handle => tree.direction key handle == .eq) = some other then
        (tree.pair? other).map (Prod.map id change)
      else tree.pair? other) :
    after.entries order = changed key change (tree.entries order) := by
  rw [entries, entries, changed, List.map_filterMap]
  refine List.filterMap_congr fun other inside => ?_
  obtain ⟨slot, found⟩ := Option.isSome_iff_exists.mp ((coherent.live other).mpr inside)
  have direction : tree.direction key other = compare key slot.key := direction_of_slot found
  rw [pairs]
  simp only [coherent.find?_eq_some_iff, inside, true_and, direction]
  by_cases holds : compare key slot.key = .eq <;> simp [holds, pair?, found]

/-- Nodes on one side of a key are wanted together or not at all. -/
theorem filter_of_direction {nodes : List Handle} {key : Key} {ordering : Ordering}
    (together : ∀ handle ∈ nodes, tree.direction key handle = ordering)
    (wanted : Ordering → Bool) :
    (nodes.filter fun handle => wanted (tree.direction key handle)) =
      if wanted ordering then nodes else [] := by
  split
  · rename_i isWanted
    exact List.filter_eq_self.mpr fun handle inside => by rw [together handle inside, isWanted]
  · rename_i unwanted
    exact List.filter_eq_nil_iff.mpr fun handle inside => by rwa [together handle inside]

/-- The nearest entry is that of the nearest node. -/
theorem Coherent.nearest?_eq [Std.TransOrd Key] (coherent : Coherent tree order) (key : Key)
    (wanted : Ordering → Bool) (side : Side) :
    nearest? key wanted side tree.toList =
      (side.orient (tree.wantedNodes order key wanted)).head?.bind tree.pair? := by
  have swapped : ∀ entry : Key × Value, wanted (compare entry.1 key) =
      wanted (compare key entry.1).swap := fun entry => by rw [← Std.OrientedOrd.eq_swap]
  simp only [nearest?, swapped, coherent.toList_eq]
  rw [entries_filter tree order key (fun ordering => wanted ordering.swap),
    coherent.head?_orient_entries side (List.filter_subset_self ..)]
  rfl

namespace Valid

variable [Std.TransOrd Key]

/-- Inserting adds the entry unless its key is present. -/
theorem exists_tryInsert (valid : Valid tree) (key : Key) (value : Value) :
    ∃ after, tree.tryInsert key value = some ((found? key tree.toList).isNone, after) ∧
      Valid after ∧ after.toList = inserted key value tree.toList := by
  obtain ⟨order, coherent⟩ := valid
  have presence := coherent.isSome_found?_iff key
  rcases coherent.exists_tryInsert key value with
    ⟨after, inserts, same, afterCoherent, present⟩ |
    ⟨after, before, beyond, new, inserts, rfl, added⟩
  · have found := presence.mpr present
    refine ⟨after, ?_, ⟨order, afterCoherent⟩, ?_⟩
    · simpa [inserts] using found
    · rw [inserted, if_pos found, coherent.toList_of_rearranged same afterCoherent]
  · have absent : ¬(found? key tree.toList).isSome := by
      rw [presence]
      rintro ⟨handle, inside, holds⟩
      rcases List.mem_append.mp inside with inBefore | inBeyond
      · simp [added.smaller handle inBefore] at holds
      · simp [added.greater handle inBeyond] at holds
    have old : ∀ handle ∈ before ++ beyond, after.pair? handle = tree.pair? handle :=
      fun handle inside => added.kept handle fun same => by
        have live := (coherent.live handle).mpr inside
        simp [same, added.fresh] at live
    refine ⟨after, ?_, ⟨_, added.coherent⟩, ?_⟩
    · simpa [inserts] using absent
    · rw [inserted, if_neg absent, added.coherent.toList_eq, coherent.toList_eq,
        entries_filter tree _ key (· == .gt), entries_filter tree _ key (· == .lt),
        List.filter_append, List.filter_append, filter_of_direction added.smaller (· == .gt),
        filter_of_direction added.smaller (· == .lt), filter_of_direction added.greater (· == .gt),
        filter_of_direction added.greater (· == .lt), entries_append, entries_cons added.added,
        entries_congr fun handle inside => old handle (List.mem_append_left _ inside),
        entries_congr fun handle inside => old handle (List.mem_append_right _ inside)]
      simp

theorem exists_insert (valid : Valid tree) (key : Key) (value : Value) :
    ∃ after, tree.insert key value = ((found? key tree.toList).isNone, after) ∧ Valid after ∧
      after.toList = inserted key value tree.toList := by
  obtain ⟨after, inserts, rest⟩ := valid.exists_tryInsert key value
  exact ⟨after, by rw [insert, inserts]; rfl, rest⟩

/-- Removing takes the entry of the key out. -/
theorem exists_tryRemove (valid : Valid tree) (key : Key) :
    ∃ after, tree.tryRemove key = some (found? key tree.toList, after) ∧ Valid after ∧
      after.toList = removed key tree.toList := by
  obtain ⟨order, coherent⟩ := valid
  rcases coherent.exists_tryRemove key with
    ⟨after, removes, same, afterCoherent, absent⟩ |
    ⟨entry, after, before, beyond, old, removes, rfl, stored, gone⟩
  · have nowhere : found? key tree.toList = none := by
      rw [← Option.not_isSome_iff_eq_none, coherent.isSome_found?_iff key]
      rintro ⟨handle, inside, holds⟩
      exact absent handle inside holds
    refine ⟨after, by rw [removes, nowhere], ⟨order, afterCoherent⟩, ?_⟩
    rw [coherent.toList_of_rearranged same afterCoherent, removed, eq_comm, List.filter_eq_self]
    intro entry inside
    simpa using List.find?_eq_none.mp nowhere entry inside
  · have holder : (before ++ old :: beyond).find?
        (fun handle => tree.direction key handle == .eq) = some old := by
      rw [List.find?_append, List.find?_eq_none.mpr, List.find?_cons_of_pos]
      · rfl
      · simpa using gone.found
      · intro handle inside
        simp [gone.smaller handle inside]
    have distinct := coherent.distinct
    simp only [List.nodup_append, List.nodup_cons, List.mem_cons] at distinct
    obtain ⟨-, ⟨notBeyond, -⟩, apart⟩ := distinct
    refine ⟨after, ?_, ⟨_, gone.coherent⟩, ?_⟩
    · simp [removes, coherent.found?_eq, holder, stored]
    · rw [removed, gone.coherent.toList_eq, coherent.toList_eq,
        entries_filter tree _ key (· != .eq), List.filter_append, List.filter_cons,
        filter_of_direction gone.smaller (· != .eq), filter_of_direction gone.greater (· != .eq),
        gone.found]
      refine entries_congr fun handle inside => gone.kept handle ?_
      rintro rfl
      rcases List.mem_append.mp inside with inBefore | inBeyond
      · exact apart handle inBefore handle (.inl rfl) rfl
      · exact notBeyond inBeyond

theorem exists_remove (valid : Valid tree) (key : Key) :
    ∃ after, tree.remove key = (found? key tree.toList, after) ∧ Valid after ∧
      after.toList = removed key tree.toList := by
  obtain ⟨after, removes, rest⟩ := valid.exists_tryRemove key
  exact ⟨after, by rw [remove, removes]; rfl, rest⟩

/-- Looking a key up finds the node that holds its entry. -/
theorem exists_tryFind (valid : Valid tree) (key : Key) :
    ∃ handle? after, tree.tryFind key = some (handle?, after) ∧ Rearranged tree after ∧
      Valid after ∧ after.toList = tree.toList ∧
      handle?.map after.pair? = (found? key tree.toList).map some := by
  obtain ⟨order, coherent⟩ := valid
  obtain ⟨after, finds, same, afterCoherent⟩ := coherent.exists_tryFind key
  refine ⟨_, after, finds, same, ⟨order, afterCoherent⟩,
    coherent.toList_of_rearranged same afterCoherent, ?_⟩
  rw [coherent.found?_eq, same.pair?,
    coherent.map_pair? fun handle found => List.mem_of_find?_eq_some found]

/-- A search for a key finds the same node without rearranging. -/
theorem tryPeek_eq (valid : Valid tree) (key : Key) :
    tree.tryPeekFrom key tree.slots.size tree.root = (tree.tryFind key).map (·.1) := by
  obtain ⟨order, coherent⟩ := valid
  obtain ⟨after, finds, -, -⟩ := coherent.exists_tryFind key
  rw [coherent.tryPeek_eq, finds]
  rfl

/-- Looking a value up finds it. -/
theorem exists_tryGet (valid : Valid tree) (key : Key) :
    ∃ after, tree.tryGet key = some ((found? key tree.toList).map (·.2), after) ∧ Valid after ∧
      after.toList = tree.toList := by
  obtain ⟨order, coherent⟩ := valid
  obtain ⟨after, gets, same, afterCoherent⟩ := coherent.exists_tryGet key
  refine ⟨after, ?_, ⟨order, afterCoherent⟩, coherent.toList_of_rearranged same afterCoherent⟩
  rw [gets, coherent.map_found?_eq]

theorem exists_get (valid : Valid tree) (key : Key) :
    ∃ after, tree.get key = ((found? key tree.toList).map (·.2), after) ∧ Valid after ∧
      after.toList = tree.toList := by
  obtain ⟨after, gets, rest⟩ := valid.exists_tryGet key
  exact ⟨after, by rw [get, gets]; rfl, rest⟩

/-- Changing the value of a key gives the value it had and changes no other. -/
theorem exists_tryChange (valid : Valid tree) (key : Key) (change : Value → Value) :
    ∃ after, tree.tryChange key change = some ((found? key tree.toList).map (·.2), after) ∧
      Valid after ∧ after.toList = changed key change tree.toList := by
  obtain ⟨order, coherent⟩ := valid
  obtain ⟨after, changes, afterCoherent, pairs⟩ := coherent.exists_tryChange key change
  refine ⟨after, ?_, ⟨order, afterCoherent⟩, ?_⟩
  · rw [changes, coherent.map_found?_eq]
  · rw [afterCoherent.toList_eq, coherent.toList_eq, coherent.entries_changed pairs]

/-- When all keys on one side are wanted and none on the other, the nearest wanted entry
is found. -/
theorem exists_tryNearest (valid : Valid tree) (key : Key) (wanted : Ordering → Bool)
    (side : Side) (near : wanted side.ordering = true)
    (far : wanted side.opposite.ordering = false) :
    ∃ handle? after, tree.tryNearest key wanted side = some (handle?, after) ∧
      Rearranged tree after ∧ Valid after ∧ after.toList = tree.toList ∧
      handle?.map after.pair? = (nearest? key wanted side tree.toList).map some := by
  obtain ⟨order, coherent⟩ := valid
  obtain ⟨handle?, after, finds, same, afterCoherent, found⟩ :=
    coherent.exists_tryNearest key wanted side near far
  refine ⟨handle?, after, finds, same, ⟨order, afterCoherent⟩,
    coherent.toList_of_rearranged same afterCoherent, ?_⟩
  have within : ∀ handle ∈ handle?, handle ∈ order := by
    intro handle isFound
    rw [found] at isFound
    exact (List.mem_filter.mp (Side.mem_orient.mp (List.mem_of_head? isFound))).1
  rw [coherent.nearest?_eq, ← found, same.pair?, coherent.map_pair? within]

theorem exists_nearest (valid : Valid tree) (key : Key) (wanted : Ordering → Bool) (side : Side)
    (near : wanted side.ordering = true) (far : wanted side.opposite.ordering = false) :
    ∃ handle? after, tree.nearest key wanted side = (handle?, after) ∧ Valid after ∧
      after.toList = tree.toList ∧
      handle?.bind after.pair? = nearest? key wanted side tree.toList := by
  obtain ⟨handle?, after, finds, -, afterValid, same, found⟩ :=
    valid.exists_tryNearest key wanted side near far
  exact ⟨handle?, after, by rw [nearest, finds]; rfl, afterValid, same, bind_eq_of_map_eq found⟩

/-- A search for the node nearest to a key from below finds the same node without
rearranging. -/
theorem tryPeekAtMost_eq (valid : Valid tree) (key : Key) :
    tree.tryPeekAtMostFrom key tree.slots.size tree.root none =
      (tree.tryNearest key (·.isLE) .left).map (·.1) := by
  obtain ⟨order, coherent⟩ := valid
  obtain ⟨handle?, after, finds, -, -, found⟩ :=
    coherent.exists_tryNearest key (·.isLE) .left rfl rfl
  rw [coherent.tryPeekAtMost_eq, finds, found, Side.orient, List.head?_reverse]
  rfl

/-- The entry nearest to a key from below is found without rearranging, too. -/
theorem peekAtMost?_eq (valid : Valid tree) (key : Key) :
    (tree.peekAtMost? key).bind tree.pair? = nearest? key (·.isLE) .left tree.toList := by
  obtain ⟨handle?, after, finds, same, -, -, found⟩ :=
    valid.exists_tryNearest key (·.isLE) .left rfl rfl
  rw [same.pair?] at found
  rw [peekAtMost?, valid.tryPeekAtMost_eq, finds]
  exact bind_eq_of_map_eq found

/-- A visit of every entry keeps those that the visitor wants to keep. -/
theorem exists_tryRetain {State : Type} (valid : Valid tree)
    (visit : State → Key → Value → Bool × Value × State) (state : State) :
    ∃ after, tree.tryRetain visit state = some ((retained visit state tree.toList).1, after) ∧
      Valid after ∧ after.toList = (retained visit state tree.toList).2 := by
  obtain ⟨order, coherent⟩ := valid
  obtain ⟨after, kept, retains, afterCoherent, contents, -⟩ := coherent.exists_tryRetain visit state
  exact ⟨after, retains, ⟨kept, afterCoherent⟩, contents⟩

theorem exists_retainWith {State : Type} (valid : Valid tree)
    (visit : State → Key → Value → Bool × Value × State) (state : State) :
    ∃ after, tree.retainWith visit state = ((retained visit state tree.toList).1, after) ∧
      Valid after ∧ after.toList = (retained visit state tree.toList).2 := by
  obtain ⟨after, retains, rest⟩ := valid.exists_tryRetain visit state
  exact ⟨after, by rw [retainWith, retains]; rfl, rest⟩

omit [Std.TransOrd Key]

/-- The size is the number of entries. -/
theorem size_eq (valid : Valid tree) : tree.size = tree.toList.length := by
  obtain ⟨order, coherent⟩ := valid
  exact coherent.size_eq

/-- The smallest key is that of the first entry. -/
theorem minimum?_eq (valid : Valid tree) : tree.minimum? = tree.toList.head? := by
  obtain ⟨order, coherent⟩ := valid
  have first := coherent.entrance_eq .right
  rw [coherent.toList_eq]
  exact (congrArg (Option.bind · tree.pair?) first).trans
    (coherent.head?_orient_entries .right (List.Subset.refl order)).symm

/-- The greatest key is that of the last entry. -/
theorem maximum?_eq (valid : Valid tree) : tree.maximum? = tree.toList.getLast? := by
  obtain ⟨order, coherent⟩ := valid
  have last := coherent.entrance_eq .left
  rw [coherent.toList_eq, ← List.head?_reverse]
  exact (congrArg (Option.bind · tree.pair?) last).trans
    (coherent.head?_orient_entries .left (List.Subset.refl order)).symm

/-- The entries are in key order. -/
theorem ascending (valid : Valid tree) :
    tree.toList.Pairwise fun first second => compare first.1 second.1 = .lt := by
  obtain ⟨order, coherent⟩ := valid
  rw [coherent.toList_eq]
  exact coherent.ascending_entries

end Valid

end JitTrace.SplayTree
