import JitTrace.Events.Log
import Mathlib.Data.List.Induction

/-!
# Groups of updates

A history keeps its groups and, apart from them, the place of each key's group. The two
agree along every run: the table leads from a key to the one group that has it. So a
history that began empty has its updates grouped by key, and the three histories of an
event log do not affect each other.
-/

namespace JitTrace

namespace History

variable {Key Update : Type} [DecidableEq Key] [Hashable Key]

/-- The keys of the groups in their order. -/
def keys (history : History Key Update) : List Key :=
  history.toList.map (·.key)

/-- The table leads to the place of a key's group, if the key has one. -/
def Indexed (history : History Key Update) : Prop :=
  ∀ (key : Key) (place : Nat), history.places[key]? = some place ↔ history.keys[place]? = some key

variable {history : History Key Update} {key : Key}

theorem indexed_empty : Indexed ({} : History Key Update) := by
  intro key place
  simp [keys, toList]

theorem getElem?_keys (history : History Key Update) (place : Nat) :
    history.keys[place]? = history.entries[place]?.map (·.key) := by
  rw [keys, toList, List.getElem?_map, Array.getElem?_toList]

namespace Indexed

/-- The table knows the keys that have a group, and no others. -/
theorem places_eq_none (indexed : history.Indexed) :
    history.places[key]? = none ↔ key ∉ history.keys := by
  rw [Option.eq_none_iff_forall_ne_some, List.mem_iff_getElem?, not_exists]
  exact forall_congr' fun place => (indexed key place).not

/-- A key has the group that lies where the table leads. -/
theorem get?_eq_some (indexed : history.Indexed) {group : HistoryEntry Key Update} :
    history.get? key = some group ↔ group ∈ history.toList ∧ group.key = key := by
  rw [get?, Option.bind_eq_some_iff, toList, List.mem_iff_getElem?, ← exists_and_right]
  refine exists_congr fun place => ?_
  rw [indexed, getElem?_keys, Array.getElem?_toList]
  constructor
  · rintro ⟨hasKey, lies⟩
    exact ⟨lies, by simpa [lies] using hasKey⟩
  · rintro ⟨lies, rfl⟩
    exact ⟨by rw [lies]; rfl, lies⟩

theorem get?_eq_none (indexed : history.Indexed) :
    history.get? key = none ↔ key ∉ history.keys := by
  rw [Option.eq_none_iff_forall_ne_some, keys, List.mem_map, not_exists]
  exact forall_congr' fun group => indexed.get?_eq_some.not

end Indexed

/-! ## Adding an update -/

/-- A history with a changed group. -/
def modify (history : History Key Update) (place : Nat)
    (change : HistoryEntry Key Update → HistoryEntry Key Update) : History Key Update :=
  { history with entries := history.entries.modify place change }

section Modify

variable {change : HistoryEntry Key Update → HistoryEntry Key Update}

theorem keys_modify (keeps : ∀ group, (change group).key = group.key)
    (history : History Key Update) (place : Nat) :
    (history.modify place change).keys = history.keys := by
  refine List.ext_getElem? fun other => ?_
  rw [getElem?_keys, getElem?_keys, modify, Array.getElem?_modify]
  split
  · rw [Option.map_map]
    exact congrArg (Option.map · _) (funext keeps)
  · rfl

theorem Indexed.modify (indexed : history.Indexed)
    (keeps : ∀ group, (change group).key = group.key) (place : Nat) :
    (history.modify place change).Indexed := by
  intro key other
  rw [keys_modify keeps]
  exact indexed key other

/-- Where a group has been changed, its key has the changed one. -/
theorem get?_modify {place : Nat} (lies : history.places[key]? = some place)
    (indexed : history.Indexed) (other : Key) :
    (history.modify place change).get? other =
      if key = other then (history.get? key).map change else history.get? other := by
  simp only [get?, History.modify, Array.getElem?_modify]
  by_cases same : key = other
  · subst same
    simp [lies]
  · rw [if_neg same]
    refine Option.bind_congr fun otherPlace otherLies => if_neg ?_
    rintro rfl
    rw [indexed] at lies otherLies
    exact same (Option.some.inj (lies.symm.trans otherLies))

end Modify

/-- A key that has been given a place has a group there, and no other key is affected. -/
structure Placed (history after : History Key Update) (key : Key) (place : Nat) : Prop where
  indexed : after.Indexed
  lies : after.places[key]? = some place
  keys : after.keys = if key ∈ history.keys then history.keys else history.keys ++ [key]
  get? : ∀ other, after.get? other =
    if key = other then some ((history.get? key).getD ⟨key, []⟩) else history.get? other

/-- A history with a further group. -/
def push (history : History Key Update) (key : Key) : History Key Update :=
  { entries := history.entries.push ⟨key, []⟩
    places := history.places.insert key history.entries.size }

theorem keys_push (history : History Key Update) (key : Key) :
    (history.push key).keys = history.keys ++ [key] := by
  simp [keys, toList, push]

theorem length_keys (history : History Key Update) :
    history.keys.length = history.entries.size := by
  simp [keys, toList]

theorem Indexed.push (indexed : history.Indexed) (fresh : key ∉ history.keys) :
    (history.push key).Indexed := by
  intro other place
  rw [keys_push, History.push, Std.HashMap.getElem?_insert, ← length_keys, List.getElem?_append]
  by_cases same : key = other
  · subst same
    rw [if_pos (beq_self_eq_true key), Option.some.injEq]
    split
    · rename_i inside
      have absent : history.keys[place]? ≠ some key := fun lies =>
        fresh (List.mem_of_getElem? lies)
      exact iff_of_false (Nat.ne_of_gt inside) absent
    · rw [List.getElem?_singleton]
      split <;> simp <;> omega
  · rw [if_neg (by simpa using same), indexed other place]
    split
    · rfl
    · rename_i outside
      rw [List.getElem?_eq_none (Nat.not_lt.mp outside), List.getElem?_singleton]
      split <;> simp [same]

theorem get?_push (indexed : history.Indexed) (fresh : key ∉ history.keys) (other : Key) :
    (history.push key).get? other = if key = other then some ⟨key, []⟩ else history.get? other := by
  by_cases same : key = other
  · subst same
    rw [if_pos rfl, (indexed.push fresh).get?_eq_some]
    exact ⟨by simp [toList, History.push], rfl⟩
  · rw [if_neg same, get?, get?, History.push, Std.HashMap.getElem?_insert,
      if_neg (by simpa using same)]
    refine Option.bind_congr fun place lies => ?_
    rw [Array.getElem?_push, if_neg]
    rw [indexed, getElem?_keys] at lies
    rintro rfl
    simp at lies

theorem placed_placeOf (indexed : history.Indexed) (key : Key) :
    Placed history (history.placeOf key).2 key (history.placeOf key).1 := by
  rw [placeOf]
  cases lies : history.places[key]? with
  | some place =>
    have inside : key ∈ history.keys := List.mem_of_getElem? ((indexed key place).mp lies)
    change Placed history history key place
    refine ⟨indexed, lies, (if_pos inside).symm, fun other => ?_⟩
    cases found : history.get? key with
    | none => exact absurd inside (indexed.get?_eq_none.mp found)
    | some group =>
      split
      · rename_i same
        subst same
        exact found
      · rfl
  | none =>
    have fresh := indexed.places_eq_none.mp lies
    change Placed history (history.push key) key history.entries.size
    refine ⟨indexed.push fresh, Std.HashMap.getElem?_insert_self, ?_, fun other => ?_⟩
    · rw [if_neg fresh]
      exact keys_push history key
    · rw [indexed.get?_eq_none.mpr fresh]
      exact get?_push indexed fresh other

/-- The update goes to its key's group, which is created when there is none. -/
structure Added (history after : History Key Update) (key : Key) (update : Update) : Prop where
  indexed : after.Indexed
  keys : after.keys = if key ∈ history.keys then history.keys else history.keys ++ [key]
  get? : ∀ other, after.get? other =
    if key = other then
      some ⟨key, ((history.get? key).elim [] (·.updates)) ++ [update]⟩
    else history.get? other

theorem added_add (indexed : history.Indexed) (key : Key) (update : Update) :
    Added history (history.add key update) key update := by
  have placed := placed_placeOf indexed key
  rw [add]
  let change (group : HistoryEntry Key Update) : HistoryEntry Key Update :=
    { group with updates := group.updates ++ [update] }
  have keeps : ∀ group, (change group).key = group.key := fun _ => rfl
  refine ⟨placed.indexed.modify keeps _, (keys_modify keeps ..).trans placed.keys, ?_⟩
  intro other
  refine (get?_modify placed.lies placed.indexed other).trans ?_
  rw [placed.get?, placed.get?, if_pos rfl]
  split
  · cases found : history.get? key with
    | none => rfl
    | some group =>
      obtain rfl := (indexed.get?_eq_some.mp found).2
      rfl
  · rfl

/-! ## Adding updates in a row -/

/-- A history that began empty, after some updates. -/
def of (updates : List (Key × Update)) : History Key Update :=
  updates.foldl (fun history update => history.add update.1 update.2) {}

theorem of_concat (updates : List (Key × Update)) (key : Key) (update : Update) :
    of (updates ++ [(key, update)]) = (of updates).add key update :=
  List.foldl_append

theorem indexed_of (updates : List (Key × Update)) : (of updates).Indexed := by
  induction updates using List.reverseRecOn with
  | nil => exact indexed_empty
  | append_singleton updates update inductionHypothesis =>
    exact of_concat updates update.1 update.2 ▸ (added_add inductionHypothesis ..).indexed

/-- The groups stand in the order in which their keys came first. -/
theorem keys_of (updates : List (Key × Update)) :
    (of updates).keys = (updates.map (·.1)).eraseDups := by
  induction updates using List.reverseRecOn with
  | nil => rfl
  | append_singleton updates update inductionHypothesis =>
    obtain ⟨key, update⟩ := update
    rw [of_concat, (added_add (indexed_of updates) key update).keys, inductionHypothesis,
      List.map_append, List.eraseDups_append]
    simp only [List.mem_eraseDups, List.map_cons, List.map_nil, List.cons_removeAll,
      List.nil_removeAll, List.contains_eq_mem, decide_eq_false_iff_not]
    by_cases known : key ∈ updates.map (·.1)
    · rw [if_pos known, if_neg (not_not.mpr known)]
      exact (List.append_nil _).symm
    · rw [if_neg known, if_pos known]
      rfl

/-- The updates that came with a key. -/
def updatesOf (key : Key) (updates : List (Key × Update)) : List Update :=
  (updates.filter fun update => update.1 = key).map (·.2)

/-- A key has the updates that came with it, in the order in which they came. -/
theorem get?_of (updates : List (Key × Update)) (key : Key) :
    (of updates).get? key =
      if key ∈ updates.map (·.1) then some ⟨key, updatesOf key updates⟩ else none := by
  induction updates using List.reverseRecOn generalizing key with
  | nil => simp [of, get?]
  | append_singleton updates update inductionHypothesis =>
    obtain ⟨last, update⟩ := update
    rw [of_concat, (added_add (indexed_of updates) last update).get?, inductionHypothesis,
      inductionHypothesis]
    by_cases same : last = key
    · subst same
      by_cases known : last ∈ updates.map (·.1)
      · simp [known, updatesOf]
      · have none : updates.filter (fun update => update.1 = last) = [] :=
          List.filter_eq_nil_iff.mpr fun other inside isLast =>
            known (List.mem_map.mpr ⟨other, inside, by simpa using isLast⟩)
        simp [known, updatesOf, none]
    · have before : key ∈ (updates ++ [(last, update)]).map (·.1) ↔ key ∈ updates.map (·.1) := by
        simp [Ne.symm same]
      have others : updatesOf key (updates ++ [(last, update)]) = updatesOf key updates := by
        simp [updatesOf, same]
      rw [if_neg same, others]
      simp only [before]

/-- One more call adds its update to the history of its kind. -/
theorem of_filterMap_concat {Call : Type} (kind : Call → Option (Key × Update))
    (calls : List Call) (call : Call) :
    of ((calls ++ [call]).filterMap kind) =
      match kind call with
      | some update => (of (calls.filterMap kind)).add update.1 update.2
      | none => of (calls.filterMap kind) := by
  rw [List.filterMap_append]
  cases isKind : kind call with
  | none => rw [List.filterMap_cons_none isKind, List.filterMap_nil, List.append_nil]
  | some update =>
    rw [List.filterMap_cons_some isKind, List.filterMap_nil]
    exact of_concat _ update.1 update.2

/-- Updates grouped by their keys: each key that came has one group, the groups stand in the
order in which their keys came first, a group has the updates that came with its key in
their order, and it is found under its key. -/
structure GroupsBy (recorded : List (Key × Update)) (groups : List (HistoryEntry Key Update))
    (find? : Key → Option (HistoryEntry Key Update)) : Prop where
  keys : groups.map (·.key) = (recorded.map (·.1)).eraseDups
  updates : ∀ group ∈ groups, group.updates = updatesOf group.key recorded
  found : ∀ key ∈ recorded.map (·.1), ∃ group ∈ groups, group.key = key ∧ find? key = some group
  missed : ∀ key ∉ recorded.map (·.1), find? key = none

theorem groupsBy_of (updates : List (Key × Update)) :
    GroupsBy updates (of updates).toList (of updates).get? where
  keys := keys_of updates
  updates group inside := by
    have found := (indexed_of updates).get?_eq_some.mpr ⟨inside, rfl⟩
    rw [get?_of] at found
    split at found
    · exact congrArg (·.updates) (Option.some.inj found).symm
    · contradiction
  found key inside := by
    have found := get?_of updates key
    rw [if_pos inside] at found
    obtain ⟨listed, same⟩ := (indexed_of updates).get?_eq_some.mp found
    exact ⟨_, listed, same, found⟩
  missed key outside := by rw [get?_of, if_neg outside]

end History

namespace EventLog

/-- An event that is put on record. -/
inductive Call where
  | addDeopt (position : FilePosition) (update : DeoptUpdate)
  | addIc (position : FilePosition) (update : IcUpdate)
  | addMapUpdate (id : UInt64) (update : MapUpdate)
  | addDisabled (disabled : DisabledOptimization)

namespace Call

/-- The deopt that is recorded. -/
def deopt? : Call → Option (FilePosition × DeoptUpdate)
  | .addDeopt position update => some (position, update)
  | _ => none

/-- The transition of an inline cache that is recorded. -/
def ic? : Call → Option (FilePosition × IcUpdate)
  | .addIc position update => some (position, update)
  | _ => none

/-- The event of a map that is recorded. -/
def mapUpdate? : Call → Option (UInt64 × MapUpdate)
  | .addMapUpdate id update => some (id, update)
  | _ => none

end Call

/-- The event log after a call. -/
def perform (log : EventLog) : Call → EventLog
  | .addDeopt position update => log.addDeopt position update
  | .addIc position update => log.addIc position update
  | .addMapUpdate id update => log.addMapUpdate id update
  | .addDisabled disabled => log.addDisabled disabled

/-- An event log that began empty, after some calls. -/
def run (calls : List Call) : EventLog :=
  calls.foldl perform {}

/-- Each history has the events of its own kind. -/
theorem histories_run (calls : List Call) :
    (run calls).deopts = .of (calls.filterMap Call.deopt?) ∧
      (run calls).ics = .of (calls.filterMap Call.ic?) ∧
      (run calls).maps = .of (calls.filterMap Call.mapUpdate?) := by
  induction calls using List.reverseRecOn with
  | nil => exact ⟨rfl, rfl, rfl⟩
  | append_singleton calls call inductionHypothesis =>
    obtain ⟨deopts, ics, maps⟩ := inductionHypothesis
    rw [show run (calls ++ [call]) = (run calls).perform call from List.foldl_append]
    rw [History.of_filterMap_concat, History.of_filterMap_concat, History.of_filterMap_concat,
      ← deopts, ← ics, ← maps]
    cases call <;> exact ⟨rfl, rfl, rfl⟩

/-- Deopts and transitions of inline caches are grouped by their positions and map events by
their maps, each kind as if the others had not been recorded. -/
theorem grouped_by_key (calls : List Call) :
    let log := run calls
    let deopts := calls.filterMap Call.deopt?
    let ics := calls.filterMap Call.ic?
    let maps := calls.filterMap Call.mapUpdate?
    History.GroupsBy deopts log.deopts.toList log.deoptAt? ∧
      History.GroupsBy ics log.ics.toList log.icAt? ∧
      History.GroupsBy maps log.maps.toList log.map? ∧
      log.deopts = .of deopts ∧ log.ics = .of ics ∧ log.maps = .of maps := by
  intro log deopts ics maps
  obtain ⟨deoptsGrouped, icsGrouped, mapsGrouped⟩ := histories_run calls
  refine ⟨?_, ?_, ?_, deoptsGrouped, icsGrouped, mapsGrouped⟩
  · rw [show log.deoptAt? = log.deopts.get? from rfl, deoptsGrouped]
    exact History.groupsBy_of deopts
  · rw [show log.icAt? = log.ics.get? from rfl, icsGrouped]
    exact History.groupsBy_of ics
  · rw [show log.map? = log.maps.get? from rfl, mapsGrouped]
    exact History.groupsBy_of maps

end EventLog

end JitTrace
