import JitTrace.Proofs.Code.Detached

/-!
# Numbers behind names

Generated code gets the distinct form of its name when it is first found, and the supply counts
the forms of each name by the name that the code was registered under. Code has that name until
it is found, so the forms are given out in the order in which code of the name is first found,
whatever is registered, moved and dropped in between and whatever other names look like. Code
that is registered as a copy of code found before bears its number already, and gets no other.
-/

namespace JitTrace

/-! ## The supply of names -/

/-- The form of a name that is given out after some others. -/
def distinctName (name : String) (earlier : Nat) : String :=
  if earlier = 0 then name else name ++ " \x7b" ++ toString earlier ++ "\x7d"

/-- How many forms of a name have been given out. -/
def NameSupply.given (supply : NameSupply) (name : String) : Nat :=
  match supply.known[name]? with
  | none => 0
  | some count => count + 1

theorem NameSupply.next_fst (supply : NameSupply) (name : String) :
    (supply.next name).1 = distinctName name (supply.given name) := by
  rw [next, given]
  cases supply.known[name]? <;> rfl

theorem NameSupply.given_next (supply : NameSupply) (name other : String) :
    (supply.next name).2.given other = supply.given other + if other = name then 1 else 0 := by
  by_cases same : other = name
  · subst same
    rw [next, given, given]
    cases supply.known[other]? <;> simp
  · rw [next, given, given]
    cases supply.known[name]? <;> simp [Std.HashMap.getElem?_insert, Ne.symm same, same]

namespace CodeMap

variable {map : CodeMap}

/-! ## Calls and histories -/

/-- A call of a code map. -/
inductive Call where
  | operate (operation : Operation)
  | addDetached (entry : CodeEntry)
  | findEntry (address : UInt64)
  /-- The lookup that leaves indices and names alone. -/
  | lookup (address : UInt64)

/-- The code map after a call. -/
def Call.perform (map : CodeMap) : Call → CodeMap
  | .operate operation => operation.perform map
  | .addDetached entry => (map.addDetached entry).2
  | .findEntry address => (map.findEntry address).2
  | .lookup _ => map

/-- What a call registers. -/
def Call.registration? : Call → Option Registration
  | .operate operation => operation.registration?
  | .addDetached entry => some ⟨entry, false⟩
  | _ => none

/-- What a call finds at an address, unless it leaves names alone. -/
def Call.found? (map : CodeMap) : Call → Option CodeId
  | .operate (.findAddress address) => (map.findAddress address).1.map (·.id)
  | .findEntry address => (map.findEntry address).1
  | _ => none

/-- Generated code without a number gets one when it is found. -/
def Registration.awaitsNumber (registration : Registration) : Bool :=
  registration.generated && !registration.entry.numbered

/-- A code map and what has been done to it. -/
structure History where
  map : CodeMap := .empty
  /-- What has been registered; the places in the list are the ids. -/
  registered : List Registration := []
  /-- What has been found, in the order in which it was first found. -/
  found : List CodeId := []

namespace History

/-- Note that an entry has been found. -/
def noting (history : History) (id : CodeId) : List CodeId :=
  if id ∈ history.found then history.found else history.found ++ [id]

/-- The history after a call. -/
def after (history : History) (call : Call) : History where
  map := call.perform history.map
  registered := history.registered ++ call.registration?.toList
  found := (call.found? history.map).elim history.found history.noting

theorem after_of_unregistered (history : History) {call : Call}
    (nothing : call.registration? = none) :
    history.after call =
      { history with
        map := call.perform history.map
        found := (call.found? history.map).elim history.found history.noting } := by
  rw [after, nothing, Option.toList_none, List.append_nil]

/-- The history of some calls. -/
def of (calls : List Call) : History :=
  calls.foldl after {}

/-- The entry was registered as generated code under a name, without a number. -/
def isRegisteredAs (history : History) (name : String) (id : CodeId) : Bool :=
  history.registered[id.index]?.any fun registration =>
    registration.awaitsNumber && registration.entry.name == name

/-- The generated code registered under a name that has been found, in the order in which it was
first found. -/
def foundAs (history : History) (name : String) : List CodeId :=
  history.found.filter (history.isRegisteredAs name)

/-- What is true of every history apart from numbers. Code has the name that it was registered
under until it is found, and its number is settled from then on. -/
structure Kept (history : History) : Prop where
  indexed : Indexed history.map
  size : history.registered.length = history.map.arena.size
  listed : ∀ generated id, history.map.Lists generated id →
    ∃ registration, history.registered[id.index]? = some registration ∧
      registration.generated = generated
  stored : ∀ id ∈ history.found, id.index < history.registered.length
  distinct : history.found.Nodup
  untouched : ∀ id registration, history.registered[id.index]? = some registration →
    registration.awaitsNumber = false ∨ id ∉ history.found →
      (history.map.entry id).name = registration.entry.name ∧
        (history.map.entry id).numbered = registration.entry.numbered
  settled : ∀ id ∈ history.found, ∀ registration,
    history.registered[id.index]? = some registration → registration.awaitsNumber = true →
      (history.map.entry id).numbered = true ∨ (history.map.entry id).name = ""

/-- The code found under a name has the forms of the name that have been given out, in turn. -/
structure WellNumbered (history : History) : Prop extends Kept history where
  forms : ∀ name, name ≠ "" → (history.foundAs name).map (fun id => (history.map.entry id).name) =
    (List.range (history.map.names.given name)).map (distinctName name)

variable {history : History} {id : CodeId}

/-! ## One call -/

namespace WellNumbered

/-- Rearranging indices and dropping code does nothing to names. -/
theorem rearrange (wellNumbered : WellNumbered history) {map : CodeMap} (indexed : Indexed map)
    (lists : ∀ generated id, map.Lists generated id → history.map.Lists generated id)
    (arena : map.arena = history.map.arena) (names : map.names = history.map.names) :
    WellNumbered { history with map } := by
  have entries : map.entry = history.map.entry := by
    funext id
    rw [CodeMap.entry, CodeMap.entry, arena]
  refine ⟨⟨indexed, wellNumbered.size.trans (congrArg Array.size arena).symm,
    fun generated id listed => wellNumbered.listed generated id (lists generated id listed),
    wellNumbered.stored, wellNumbered.distinct, ?_, ?_⟩, ?_⟩
  · rw [entries]
    exact wellNumbered.untouched
  · rw [entries]
    exact wellNumbered.settled
  · rw [entries, names]
    exact wellNumbered.forms

/-- An entry that is registered has not been found. -/
theorem register (wellNumbered : WellNumbered history) {map : CodeMap} (indexed : Indexed map)
    (registration : Registration)
    (lists : ∀ generated id, map.Lists generated id → history.map.Lists generated id ∨
      registration.generated = generated ∧ id = ⟨history.map.arena.size⟩)
    (arena : map.arena = history.map.arena.push registration.entry)
    (names : map.names = history.map.names) :
    WellNumbered { history with map, registered := history.registered ++ [registration] } := by
  have size := wellNumbered.size
  have old {id : CodeId} (stored : id.index < history.registered.length) :
      (history.registered ++ [registration])[id.index]? = history.registered[id.index]? ∧
        map.entry id = history.map.entry id := by
    rw [List.getElem?_append_left stored, CodeMap.entry, arena, Grown.entry_push,
      if_neg (by omega)]
    exact ⟨rfl, rfl⟩
  have new {id : CodeId} {other : Registration} (unstored : ¬id.index < history.registered.length)
      (isNew : (history.registered ++ [registration])[id.index]? = some other) :
      other = registration ∧ map.entry id = registration.entry := by
    rw [List.getElem?_append_right (Nat.le_of_not_lt unstored), List.getElem?_singleton] at isNew
    split at isNew
    · rename_i last
      rw [CodeMap.entry, arena, Grown.entry_push, if_pos (by omega)]
      exact ⟨(Option.some.inj isNew).symm, rfl⟩
    · contradiction
  have found {id : CodeId} (isFound : id ∈ history.found) := old (wellNumbered.stored id isFound)
  refine ⟨⟨indexed, by simp [arena, size], fun generated id listed => ?_, fun id isFound => ?_,
    wellNumbered.distinct, fun id other isRegistered fixed => ?_,
    fun id isFound other isRegistered => ?_⟩, fun name named => ?_⟩
  · rcases lists generated id listed with earlier | ⟨isGenerated, rfl⟩
    · obtain ⟨other, isRegistered, same⟩ := wellNumbered.listed generated id earlier
      obtain ⟨stored, -⟩ := List.getElem?_eq_some_iff.mp isRegistered
      exact ⟨other, (old stored).1.trans isRegistered, same⟩
    · exact ⟨registration, by simp [← size], isGenerated⟩
  · rw [List.length_append]
    exact Nat.lt_add_right 1 (wellNumbered.stored id isFound)
  · by_cases stored : id.index < history.registered.length
    · rw [(old stored).1] at isRegistered
      rw [(old stored).2]
      exact wellNumbered.untouched id other isRegistered fixed
    · obtain ⟨rfl, isNew⟩ := new stored isRegistered
      rw [isNew]
      exact ⟨rfl, rfl⟩
  · rw [(found isFound).1] at isRegistered
    rw [(found isFound).2]
    exact wellNumbered.settled id isFound other isRegistered
  · rw [names, ← wellNumbered.forms name named]
    have same : History.foundAs
        { history with map, registered := history.registered ++ [registration] } name =
          history.foundAs name := by
      refine List.filter_congr fun id isFound => ?_
      rw [isRegisteredAs, isRegisteredAs, (found isFound).1]
    rw [same]
    refine List.map_congr_left fun id isFound => ?_
    rw [(found (List.mem_filter.mp isFound).1).2]

end WellNumbered

/-- Only code that is found for the first time adds to the code found under its name. -/
theorem foundAs_noting (history : History) (map : CodeMap) (id : CodeId) (name : String) :
    History.foundAs { history with map, found := history.noting id } name =
      if id ∉ history.found ∧ history.isRegisteredAs name id = true then
        history.foundAs name ++ [id]
      else history.foundAs name := by
  have same : History.isRegisteredAs { history with map, found := history.noting id } name =
      history.isRegisteredAs name := rfl
  rw [foundAs, same, foundAs, noting]
  by_cases earlier : id ∈ history.found
  · simp [earlier]
  · simp only [earlier, if_false, List.filter_append, List.filter_singleton, not_false_eq_true,
      true_and]
    cases history.isRegisteredAs name id <;> simp

/-- An entry is found. It is not changed unless it awaits a number, and then its number is
settled. -/
theorem Kept.find (kept : Kept history) {registration : Registration}
    (isRegistered : history.registered[id.index]? = some registration) {map : CodeMap}
    (trimmed : Trimmed history.map map)
    (others : ∀ other, other ≠ id ∨ registration.awaitsNumber = false →
      map.entry other = history.map.entry other)
    (settled : registration.awaitsNumber = true →
      (map.entry id).numbered = true ∨ (map.entry id).name = "") :
    Kept { history with map, found := history.noting id } := by
  have stored : id.index < history.registered.length :=
    (List.getElem?_eq_some_iff.mp isRegistered).1
  have mem_noting {other : CodeId} :
      other ∈ history.noting id ↔ other ∈ history.found ∨ other = id := by
    rw [noting]
    split
    · rename_i earlier
      refine ⟨.inl, ?_⟩
      rintro (isFound | rfl)
      · exact isFound
      · exact earlier
    · simp
  refine ⟨kept.indexed.trim trimmed, kept.size.trans trimmed.size.symm,
    fun generated other listed => kept.listed generated other (.of_trimmed trimmed listed),
    fun other isFound => ?_, ?_, fun other otherRegistration otherIs fixed => ?_,
    fun other isFound otherRegistration otherIs awaits => ?_⟩
  · rcases mem_noting.mp isFound with earlier | rfl
    · exact kept.stored other earlier
    · exact stored
  · rw [noting]
    split
    · exact kept.distinct
    · rename_i unfound
      exact List.concat_eq_append ▸ kept.distinct.concat unfound
  · rw [others other]
    · exact kept.untouched other otherRegistration otherIs
        (fixed.imp_right fun absent earlier => absent (mem_noting.mpr (.inl earlier)))
    · by_cases same : other = id
      · subst same
        obtain rfl := Option.some.inj (otherIs.symm.trans isRegistered)
        exact .inr (fixed.resolve_right fun absent => absent (mem_noting.mpr (.inr rfl)))
      · exact .inl same
  · by_cases same : other = id
    · subst same
      obtain rfl := Option.some.inj (otherIs.symm.trans isRegistered)
      exact settled awaits
    · rw [others other (.inl same)]
      exact kept.settled other ((mem_noting.mp isFound).resolve_right same) otherRegistration
        otherIs awaits

namespace WellNumbered

/-- An entry that is found gets no number when it awaits none, or has no name, or has its
number. -/
theorem note (wellNumbered : WellNumbered history) {registration : Registration}
    (isRegistered : history.registered[id.index]? = some registration)
    (settled : registration.awaitsNumber = true →
      (history.map.entry id).numbered = true ∨ (history.map.entry id).name = "") :
    WellNumbered { history with found := history.noting id } := by
  refine ⟨wellNumbered.toKept.find isRegistered
    (wellNumbered.indexed.trimmed_drop (.of_same wellNumbered.indexed.dynamics rfl))
    (fun _ _ => rfl) settled, fun name named => ?_⟩
  rw [foundAs_noting, if_neg]
  · exact wellNumbered.forms name named
  rintro ⟨unfound, listed⟩
  obtain ⟨sameName, sameNumber⟩ :=
    wellNumbered.untouched id registration isRegistered (.inr unfound)
  simp only [isRegisteredAs, isRegistered, Option.any_some, Bool.and_eq_true, beq_iff_eq] at listed
  obtain ⟨awaits, rfl⟩ := listed
  rcases settled awaits with numbered | unnamed
  · simp [Registration.awaitsNumber, ← sameNumber, numbered] at awaits
  · exact named (sameName.symm.trans unnamed)

/-- Generated code that is found for the first time gets the next form of the name that it was
registered under. -/
theorem number (wellNumbered : WellNumbered history) {registration : Registration}
    (isRegistered : history.registered[id.index]? = some registration)
    (generated : registration.generated = true)
    (fresh : (history.map.entry id).numbered = false ∧ (history.map.entry id).name ≠ "") :
    WellNumbered { history with map := history.map.numberName id, found := history.noting id } := by
  have awaits : registration.awaitsNumber = true := by
    refine eq_true_of_ne_false fun settled => ?_
    obtain ⟨-, sameNumber⟩ := wellNumbered.untouched id registration isRegistered (.inl settled)
    simp [Registration.awaitsNumber, generated, ← sameNumber, fresh.1] at settled
  have unfound : id ∉ history.found := fun isFound => by
    rcases wellNumbered.settled id isFound registration isRegistered awaits with
      numbered | unnamed
    · simp [fresh.1] at numbered
    · exact fresh.2 unnamed
  have sameName := (wellNumbered.untouched id registration isRegistered (.inr unfound)).1
  have stored : id.index < history.map.arena.size :=
    wellNumbered.size ▸ (List.getElem?_eq_some_iff.mp isRegistered).1
  have itself := (entry_numberName stored id).trans (if_pos ⟨rfl, fresh⟩)
  have others {other : CodeId} (different : other ≠ id) :=
    (entry_numberName stored other).trans (if_neg fun same => different same.1)
  refine ⟨wellNumbered.toKept.find isRegistered
    ((wellNumbered.indexed.trimmed_drop (.of_same wellNumbered.indexed.dynamics rfl)).numberName id)
    ?_ fun _ => .inl (by rw [itself]), fun name named => ?_⟩
  · rintro other (different | settled)
    · exact others different
    · simp [awaits] at settled
  have registeredAs :
      history.isRegisteredAs name id = true ↔ name = (history.map.entry id).name := by
    rw [isRegisteredAs, isRegistered, Option.any_some, awaits, ← sameName, Bool.true_and,
      beq_iff_eq]
    exact eq_comm
  have earlier : (history.foundAs name).map
      (fun other => ((history.map.numberName id).entry other).name) =
        (List.range (history.map.names.given name)).map (distinctName name) := by
    rw [← wellNumbered.forms name named]
    refine List.map_congr_left fun other isFound => ?_
    rw [others fun same => unfound (same ▸ (List.mem_filter.mp isFound).1)]
  rw [foundAs_noting, names_numberName fresh.1 fresh.2, NameSupply.given_next]
  by_cases same : name = (history.map.entry id).name
  · rw [if_pos ⟨unfound, registeredAs.mpr same⟩, if_pos same, List.map_append, earlier,
      List.range_succ, List.map_append, List.map_singleton, List.map_singleton, itself,
      NameSupply.next_fst, ← same]
  · rw [if_neg fun isNew => same (registeredAs.mp isNew.2), if_neg same, earlier, Nat.add_zero]

/-- A lookup numbers the code that it finds, if that has not been found before. -/
theorem findAddress (wellNumbered : WellNumbered history) (address : UInt64) :
    let found := history.map.findAddress address
    WellNumbered
      { history with
        map := found.2, found := (found.1.map (·.id)).elim history.found history.noting } := by
  intro found
  have indexed := wellNumbered.indexed
  obtain ⟨searched, alike, finds⟩ := indexed.exists_findAddress address
  have trimmed := Trimmed.of_alike alike
  have rearranged : WellNumbered { history with map := searched } :=
    wellNumbered.rearrange (indexed.trim trimmed) (fun _ _ => .of_trimmed trimmed) alike.arena
      alike.names
  rw [show found = _ from finds]
  cases answer : history.map.lookup? address with
  | none =>
    split
    · exact rearranged
    · exact rearranged
  | some located =>
    cases marked : history.map.isMarked address with
    | true =>
      have listed : history.map.Lists false located.id := by
        rw [indexed.lookup?_marked marked, Option.or_eq_some_iff] at answer
        rcases answer with inStatics | ⟨-, inLibraries⟩
        · exact ⟨located.start, .inl
            (mem_of_locatedIn (AddressIndex.ascending_of_valid indexed.statics) inStatics).1⟩
        · exact ⟨located.start, .inr
            (mem_of_locatedIn (AddressIndex.ascending_of_valid indexed.libraries) inLibraries).1⟩
      obtain ⟨registration, isRegistered, fixed⟩ := wellNumbered.listed false located.id listed
      exact rearranged.note isRegistered fun awaits => by
        simp [Registration.awaitsNumber, fixed] at awaits
    | false =>
      have listed : history.map.Lists true located.id :=
        ⟨located.start, (indexed.live_of_lookup? marked answer).1⟩
      obtain ⟨registration, isRegistered, generated⟩ := wellNumbered.listed true located.id listed
      by_cases fresh :
          (searched.entry located.id).numbered = false ∧ (searched.entry located.id).name ≠ ""
      · exact rearranged.number isRegistered generated fresh
      · change WellNumbered
          { history with map := searched.numberName located.id, found := history.noting located.id }
        rw [numberName_settled fresh]
        refine rearranged.note isRegistered fun _ => ?_
        simpa [Decidable.or_iff_not_imp_left] using fresh

/-- Whatever is called, numbers stay in turn. -/
theorem after (wellNumbered : WellNumbered history) (call : Call) :
    WellNumbered (history.after call) := by
  have indexed := wellNumbered.indexed
  cases call with
  | operate operation =>
    by_cases lookup : ∃ address, operation = .findAddress address
    · obtain ⟨address, rfl⟩ := lookup
      rw [after_of_unregistered history rfl]
      exact wellNumbered.findAddress address
    · have noLookup (address : UInt64) (isLookup : operation = .findAddress address) : False :=
        lookup ⟨address, isLookup⟩
      have nothing : (Call.operate operation).found? history.map = none := by
        cases operation <;> first | rfl | exact (noLookup _ rfl).elim
      have performed := indexed.perform operation
      have lists (generated : Bool) (id : CodeId)
          (listed : (operation.perform history.map).Lists generated id) :=
        indexed.lists_perform operation listed
      obtain ⟨names, arena⟩ := indexed.stores_perform operation noLookup
      cases registers : operation.registration? with
      | none =>
        have unregistered : (Call.operate operation).registration? = none := registers
        rw [registers] at lists arena
        rw [after_of_unregistered history unregistered, nothing]
        exact wellNumbered.rearrange performed
          (fun generated id listed => (lists generated id listed).resolve_right (by simp)) arena
          names
      | some registration =>
        rw [registers] at lists arena
        rw [History.after, nothing, Call.registration?, registers]
        exact wellNumbered.register performed registration
          (fun generated id listed => (lists generated id listed).imp_right (by simp)) arena names
  | addDetached entry =>
    exact wellNumbered.register (indexed.addDetached entry) ⟨entry, false⟩
      (fun _ _ listed => .inl listed) rfl rfl
  | findEntry address =>
    rw [after_of_unregistered history rfl]
    exact wellNumbered.findAddress address
  | lookup address =>
    rw [after_of_unregistered history rfl]
    exact wellNumbered

/-- What has been found under a name stays found in this order. -/
theorem foundAs_prefix_after (wellNumbered : WellNumbered history) (call : Call) (name : String) :
    history.foundAs name <+: (history.after call).foundAs name := by
  obtain ⟨more, found⟩ : history.found <+: (history.after call).found := by
    rw [History.after]
    cases call.found? history.map with
    | none => exact List.prefix_refl _
    | some id =>
      rw [Option.elim_some, noting]
      split
      · exact List.prefix_refl _
      · exact List.prefix_append ..
  have same : ∀ id ∈ history.found,
      (history.after call).isRegisteredAs name id = history.isRegisteredAs name id := by
    intro id isFound
    rw [isRegisteredAs, isRegisteredAs, History.after,
      List.getElem?_append_left (wellNumbered.stored id isFound)]
  rw [foundAs, foundAs, ← found, List.filter_append, List.filter_congr same]
  exact List.prefix_append ..

/-! ## Any number of calls -/

theorem foldl_after (wellNumbered : WellNumbered history) (calls : List Call) (name : String) :
    WellNumbered (calls.foldl History.after history) ∧
      history.foundAs name <+: (calls.foldl History.after history).foundAs name := by
  induction calls generalizing history with
  | nil => exact ⟨wellNumbered, List.prefix_refl _⟩
  | cons call calls inductionHypothesis =>
    obtain ⟨stillNumbered, extended⟩ := inductionHypothesis (wellNumbered.after call)
    exact ⟨stillNumbered, (wellNumbered.foundAs_prefix_after call name).trans extended⟩

/-- There are as many forms of a name as there is code found under it. -/
theorem names_foundAs (wellNumbered : WellNumbered history) {name : String} (named : name ≠ "") :
    (history.foundAs name).map (fun id => (history.map.entry id).name) =
      (List.range (history.foundAs name).length).map (distinctName name) := by
  have forms := wellNumbered.forms name named
  have count := congrArg List.length forms
  rw [List.length_map, List.length_map, List.length_range] at count
  rw [forms, count]

/-- Where more code is found under a name, the code found before keeps its form. -/
theorem name_of_prefix {later : History} (before : WellNumbered history)
    (wellNumbered : WellNumbered later) {name : String} (named : name ≠ "")
    (extended : history.foundAs name <+: later.foundAs name) :
    ∀ id ∈ history.foundAs name, (later.map.entry id).name = (history.map.entry id).name := by
  obtain ⟨more, whole⟩ := extended
  have forms := wellNumbered.names_foundAs named
  rw [← whole, List.map_append, List.length_append, List.range_add, List.map_append] at forms
  have front := (List.append_inj forms (by simp)).1
  exact List.map_inj_left.mp (front.trans (before.names_foundAs named).symm)

end WellNumbered

theorem wellNumbered_empty : WellNumbered {} where
  indexed := indexed_empty
  size := rfl
  listed generated id listed := by
    cases generated with
    | true =>
      obtain ⟨_, inside⟩ := listed
      exact absurd inside List.not_mem_nil
    | false =>
      obtain ⟨_, inside | inside⟩ := listed <;> exact absurd inside List.not_mem_nil
  stored _ inside := absurd inside List.not_mem_nil
  distinct := List.nodup_nil
  untouched _ _ isRegistered := absurd isRegistered (by simp)
  settled _ inside := absurd inside List.not_mem_nil
  forms name _ := by simp [foundAs, NameSupply.given, CodeMap.empty]

theorem wellNumbered_of (calls : List Call) : WellNumbered (of calls) :=
  (wellNumbered_empty.foldl_after calls "").1

theorem map_of (calls : List Call) : (of calls).map = calls.foldl Call.perform .empty := by
  suffices ∀ history : History,
      (calls.foldl after history).map = calls.foldl Call.perform history.map from this {}
  induction calls with
  | nil => exact fun _ => rfl
  | cons call calls inductionHypothesis => exact fun history => inductionHypothesis _

end History

/-- Whatever is called, the generated code registered under a name and without a number that has
been found bears, in the order in which it was first found, the name, the name with 1, the name
with 2 and so on, and keeps what it bears whatever is called later. What has not been found, what
is no generated code and what was registered with a number has the name that it was registered
under, and the lookup that leaves indices alone changes no name. -/
theorem names_given_in_turn (calls : List Call) :
    let history := History.of calls
    history.map = calls.foldl Call.perform .empty ∧
      history.registered.length = history.map.arena.size ∧ history.found.Nodup ∧
      (∀ name, name ≠ "" →
        (history.foundAs name).map (fun id => (history.map.entry id).name) =
            (List.range (history.foundAs name).length).map (distinctName name) ∧
          ∀ later, history.foundAs name <+: (History.of (calls ++ later)).foundAs name ∧
            ∀ id ∈ history.foundAs name,
              ((History.of (calls ++ later)).map.entry id).name = (history.map.entry id).name) ∧
      (∀ id registration, history.registered[id.index]? = some registration →
        registration.awaitsNumber = false ∨ id ∉ history.found →
          (history.map.entry id).name = registration.entry.name) ∧
      ∀ address, History.of (calls ++ [.lookup address]) = history := by
  intro history
  have wellNumbered := History.wellNumbered_of calls
  refine ⟨History.map_of calls, wellNumbered.size, wellNumbered.distinct, fun name named =>
    ⟨wellNumbered.names_foundAs named, fun later => ?_⟩, fun id registration isRegistered fixed =>
      (wellNumbered.untouched id registration isRegistered fixed).1, fun address => ?_⟩
  · obtain ⟨stillNumbered, extended⟩ := wellNumbered.foldl_after later name
    rw [show History.of (calls ++ later) = later.foldl History.after history from List.foldl_append]
    exact ⟨extended, wellNumbered.name_of_prefix stillNumbered named extended⟩
  · rw [show History.of (calls ++ [.lookup address]) = history.after (.lookup address) from
      List.foldl_append]
    exact History.after_of_unregistered history rfl

/-- Three pieces of code of one name and one of a name that looks like a form of it, found out
of order: the third, the one that looks so, and the first where it has been moved to. Then the
third is evicted, and the second is looked up by the lookup that leaves names alone. -/
def interleaved : List Call :=
  [ .operate (.addCode 0x1000 (.dynamic 0x10 "stub" "Stub")),
    .operate (.addCode 0x2000 (.dynamic 0x10 "stub" "Stub")),
    .operate (.addCode 0x3000 (.dynamic 0x10 "stub" "Stub")),
    .operate (.addCode 0x4000 (.dynamic 0x10 "stub {1}" "Stub")),
    .findEntry 0x3000,
    .operate (.findAddress 0x4008),
    .operate (.moveCode 0x1000 0x5000),
    .findEntry 0x5004,
    .operate (.addCode 0x2ff8 (.dynamic 0x10 "wide" "Stub")),
    .lookup 0x2000 ]

/-- The evicted code keeps the name, the code that looks numbered bears its name as it is, and the
code moved bears the same. The code that was not found has the name without number. -/
theorem names_given_in_turn_interleaved :
    let history := History.of interleaved
    history.foundAs "stub" = [⟨2⟩, ⟨0⟩] ∧ history.foundAs "stub {1}" = [⟨3⟩] ∧
      (history.map.dynamics.toList.map (·.2)) = [⟨1⟩, ⟨4⟩, ⟨3⟩, ⟨0⟩] ∧
      [0, 1, 2, 3].map (fun index => (history.map.entry ⟨index⟩).name) =
        ["stub {1}", "stub", "stub", "stub {1}"] := by
  intro history
  obtain ⟨-, -, -, forms, untouched, -⟩ := names_given_in_turn interleaved
  have stubs : history.foundAs "stub" = [⟨2⟩, ⟨0⟩] := by decide +kernel
  have others : history.foundAs "stub {1}" = [⟨3⟩] := by decide +kernel
  have stubForms := (forms "stub" (by decide)).1
  have otherForms := (forms "stub {1}" (by decide)).1
  rw [stubs] at stubForms
  rw [others] at otherForms
  have second : (history.map.entry ⟨1⟩).name = "stub" :=
    untouched ⟨1⟩ ⟨.dynamic 0x10 "stub" "Stub", true⟩ rfl (.inr (by decide +kernel))
  have firstAndThird : [(history.map.entry ⟨2⟩).name, (history.map.entry ⟨0⟩).name] =
      ["stub", "stub {1}"] := stubForms
  have fourth : [(history.map.entry ⟨3⟩).name] = ["stub {1}"] := otherForms
  simp only [List.cons.injEq, and_true] at firstAndThird fourth
  refine ⟨stubs, others, by decide +kernel, ?_⟩
  simp only [List.map_cons, List.map_nil, second, firstAndThird, fourth]

/-- Code is found, and the entry that it has since is registered at another address too, where
it is found again. -/
def copied : List Call :=
  [ .operate (.addCode 0x1000 (.dynamic 0x10 "stub" "Stub")),
    .findEntry 0x1000,
    .operate (.addCode 0x2000 { CodeEntry.dynamic 0x10 "stub" "Stub" with numbered := true }),
    .findEntry 0x2000 ]

/-- The first entry that is found bears its name as it is, and so does its copy. -/
theorem copied_not_given_in_turn :
    let history := History.of copied
    (History.of (copied.take 2)).map.entry ⟨0⟩ =
        { CodeEntry.dynamic 0x10 "stub" "Stub" with numbered := true } ∧
      history.registered.map (fun registration =>
        (registration.generated, registration.entry.name)) = [(true, "stub"), (true, "stub")] ∧
      history.found = [⟨0⟩, ⟨1⟩] ∧
      history.found.map (fun id => (history.map.entry id).name) ≠
        (List.range history.found.length).map (distinctName "stub") := by
  intro history
  have named : "stub" ≠ "" := by decide
  have first := History.wellNumbered_of (copied.take 2)
  have alone : (History.of (copied.take 2)).foundAs "stub" = [⟨0⟩] := by decide +kernel
  have original : ((History.of (copied.take 2)).map.entry ⟨0⟩).name = "stub" := by
    have names := first.names_foundAs named
    rw [alone] at names
    exact List.head_eq_of_cons_eq names
  have rest : { (History.of (copied.take 2)).map.entry ⟨0⟩ with name := "stub" } =
      { CodeEntry.dynamic 0x10 "stub" "Stub" with numbered := true } := rfl
  have found : history.found = [⟨0⟩, ⟨1⟩] := by decide +kernel
  have copy : (history.map.entry ⟨1⟩).name = "stub" :=
    ((History.wellNumbered_of copied).untouched ⟨1⟩ _ rfl (.inl rfl)).1
  refine ⟨?_, rfl, found, fun inTurn => ?_⟩
  · rw [← rest, ← original]
  · rw [found] at inTurn
    have second : (history.map.entry ⟨1⟩).name = distinctName "stub" 1 :=
      (List.cons.inj (List.cons.inj inTurn).2).1
    rw [copy] at second
    exact absurd second (by decide)

end CodeMap

end JitTrace
