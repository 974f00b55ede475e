import Mathlib.Logic.Relation
import JitTrace.Proofs.Code.Detached
import JitTrace.Proofs.Code.Placement
import JitTrace.Proofs.Profile.Relocation

/-!
# Distinct names

Generated code gets the distinct form of its name when it is first found: the first piece of
code of a name bears the name itself, every later one the name with a number. So a name
that does not look like one with a number is borne by one piece of code at most, and the
supply of names knows it exactly if some piece does. This holds as long as no name is
taken back, which happens where other code is taken for a function.
-/

namespace JitTrace

/-! ### The supply of names -/

/-- The name is there, and it does not end like a name with a number. -/
def PlainName (name : String) : Prop :=
  name ≠ "" ∧ name.toList.getLast? ≠ some '\x7d'

instance (name : String) : Decidable (PlainName name) :=
  inferInstanceAs (Decidable (_ ∧ _))

theorem not_plainName_numbered (name : String) (count : Nat) :
    ¬PlainName (name ++ " \x7b" ++ toString count ++ "\x7d") := by
  have brace : "\x7d".toList = ['\x7d'] := rfl
  rintro ⟨-, plain⟩
  rw [String.toList_append, brace, List.getLast?_concat] at plain
  exact plain rfl

namespace NameSupply

/-- The name has been given out. -/
def Knows (supply : NameSupply) (name : String) : Prop :=
  supply.known[name]?.isSome = true

variable (supply : NameSupply) (name : String)

theorem knows_next {other : String} :
    (supply.next name).2.Knows other ↔ other = name ∨ supply.Knows other := by
  have inserted (count : Nat) :
      ((supply.known.insert name count)[other]?).isSome = true ↔
        other = name ∨ supply.Knows other := by
    rw [Std.HashMap.getElem?_insert, Knows]
    by_cases same : name = other
    · simp [same]
    · simp [same, Ne.symm same]
  rw [next]
  split <;> exact inserted _

/-- A name is given out as it is once, and with a number from then on. -/
theorem next_cases :
    ¬supply.Knows name ∧ (supply.next name).1 = name ∨
      supply.Knows name ∧ ∃ count : Nat, (supply.next name).1 =
        name ++ " \x7b" ++ toString count ++ "\x7d" := by
  unfold Knows next
  split <;> rename_i known
  · exact .inl ⟨by simp [known], rfl⟩
  · exact .inr ⟨by simp [known], _, rfl⟩

/-- A plain name is given out only for itself, and only once. -/
theorem next_plain {supply : NameSupply} {name original : String} (plain : PlainName name)
    (given : name = (supply.next original).1) : name = original ∧ ¬supply.Knows name := by
  rcases supply.next_cases original with ⟨unknown, same⟩ | ⟨-, count, numbered⟩
  · have itself := given.trans same
    exact ⟨itself, itself ▸ unknown⟩
  · exact absurd (given.trans numbered ▸ plain) (not_plainName_numbered original count)

/-- A plain name is known afterwards if it has been given out, now or before. -/
theorem knows_next_plain {supply : NameSupply} {name original : String} (plain : PlainName name) :
    (supply.next original).2.Knows name ↔
      name = (supply.next original).1 ∨ supply.Knows name := by
  rw [knows_next]
  constructor
  · rintro (rfl | known)
    · exact (supply.next_cases name).elim (fun fresh => .inl fresh.2.symm) fun old => .inr old.1
    · exact .inr known
  · exact Or.imp_left fun given => (next_plain plain given).1

end NameSupply

/-! ### Steps -/

/-- Two entries have the same name, number, tag and role. -/
structure CodeEntry.SameTitle (before after : CodeEntry) : Prop where
  name : after.name = before.name
  numbered : after.numbered = before.numbered
  codeType : after.codeType = before.codeType
  size : after.size = before.size
  shared : after.isSharedFunction = before.isSharedFunction
  dynamic : before.flavor = .dynamic → after.flavor = .dynamic

theorem CodeEntry.SameTitle.refl (entry : CodeEntry) : entry.SameTitle entry :=
  ⟨rfl, rfl, rfl, rfl, rfl, id⟩

/-- No lookup has found the entry, and none will if it is a function. -/
structure CodeEntry.Unfound (entry : CodeEntry) : Prop where
  unnumbered : entry.numbered = false
  empty : entry.isSharedFunction = true → entry.size = 0

namespace CodeMap

/-- The code has been found, and this is the distinct form of its name. -/
def Bears (map : CodeMap) (name : String) (id : CodeId) : Prop :=
  (map.entry id).numbered = true ∧ (map.entry id).name = name

/-- What happens to the names in a code map: indices are rearranged, an entry that has not
been found is stored, an entry changes but for its title, code with a range is found, or a
function gets another name. -/
inductive NameStep : CodeMap → CodeMap → Prop
  | rearrange {before after : CodeMap} (arena : after.arena = before.arena)
    (names : after.names = before.names) : NameStep before after
  | store {map : CodeMap} {new : CodeEntry} (unfound : new.Unfound) :
    NameStep map (map.addDetached new).2
  | change {map : CodeMap} {id : CodeId} {change : CodeEntry → CodeEntry}
    (keeps : (map.entry id).SameTitle (change (map.entry id))) :
    NameStep map (map.modifyEntry id change)
  | number {map : CodeMap} {id : CodeId} (extent : (map.entry id).size ≠ 0) :
    NameStep map (map.numberName id)
  | rename {map : CodeMap} {id : CodeId} (shared : (map.entry id).isSharedFunction = true)
    (name : String) : NameStep map (map.modifyEntry id fun entry => { entry with name })

/-- Any number of steps. -/
abbrev NameSteps : CodeMap → CodeMap → Prop :=
  Relation.ReflTransGen NameStep

variable {map before after : CodeMap}

/-- Functions have no range and are never found, and a plain name is borne by one piece of code
if the supply knows it, and by none otherwise. -/
structure WellNamed (map : CodeMap) : Prop where
  empty : map.FunctionsEmpty
  unnumbered : ∀ id, (map.entry id).isSharedFunction = true → (map.entry id).numbered = false
  knows_iff : ∀ {name}, PlainName name → (map.names.Knows name ↔ ∃ id, map.Bears name id)
  unique : ∀ {name}, PlainName name → ∀ {first second}, map.Bears name first →
    map.Bears name second → first = second

/-- Generated code was registered under a tag and a name. It bears the name or has not been
found, or else the supply knows the name and the code has a number behind it. -/
structure Carries (map : CodeMap) (id : CodeId) (codeType name : String) : Prop where
  stored : id.index < map.arena.size
  dynamic : (map.entry id).flavor = .dynamic
  codeType : (map.entry id).codeType = codeType
  name : (map.entry id).name = name ∨ (map.entry id).numbered = true ∧ map.names.Knows name ∧
    ∃ count : Nat, (map.entry id).name = name ++ " \x7b" ++ toString count ++ "\x7d"

/-! ### One step -/

/-- Names that have been given out stay known. -/
theorem NameStep.knows (step : NameStep before after) {name : String}
    (known : before.names.Knows name) : after.names.Knows name := by
  cases step with
  | rearrange _ names => exact names ▸ known
  | number =>
    rw [numberName]
    split
    · exact known
    · exact (NameSupply.knows_next _ _).mpr (.inr known)
  | _ => exact known

/-- Where the names borne and known stay the same, they are still given out once. -/
theorem WellNamed.of_bears (wellNamed : WellNamed before) (names : after.names = before.names)
    (bears : ∀ name id, after.Bears name id ↔ before.Bears name id) (empty : after.FunctionsEmpty)
    (unnumbered : ∀ id, (after.entry id).isSharedFunction = true →
      (after.entry id).numbered = false) : WellNamed after where
  empty := empty
  unnumbered := unnumbered
  knows_iff plain := by simp only [names, bears, wellNamed.knows_iff plain]
  unique plain _ _ first second :=
    wellNamed.unique plain ((bears _ _).mp first) ((bears _ _).mp second)

/-- Names stay given out once when no entry changes but for its title, unless it is stored. -/
theorem WellNamed.of_sameTitle (wellNamed : WellNamed before) (names : after.names = before.names)
    (same : ∀ id, (before.entry id).SameTitle (after.entry id)) : WellNamed after := by
  refine wellNamed.of_bears names (fun name id => ?_) (fun id shared => ?_) fun id shared => ?_
  · rw [Bears, Bears, (same id).numbered, (same id).name]
  · rw [(same id).size]
    exact wellNamed.empty id ((same id).shared.symm.trans shared)
  · rw [(same id).numbered]
    exact wellNamed.unnumbered id ((same id).shared.symm.trans shared)

theorem entry_addDetached (map : CodeMap) (new : CodeEntry) (id : CodeId) :
    (map.addDetached new).2.entry id =
      if id.index = map.arena.size then new else map.entry id :=
  Grown.entry_push map.arena new id

theorem WellNamed.store (wellNamed : WellNamed map) {new : CodeEntry} (unfound : new.Unfound) :
    WellNamed (map.addDetached new).2 := by
  refine wellNamed.of_bears rfl (fun name id => ?_) (fun id => ?_) fun id => ?_
  · rw [Bears, Bears, entry_addDetached]
    split
    · rename_i fresh
      have nothing : map.entry id = default := entry_unstored (by omega)
      have unborne : (default : CodeEntry).numbered = false := rfl
      simp [nothing, unfound.unnumbered, unborne]
    · rfl
  · rw [entry_addDetached]
    split
    · exact unfound.empty
    · exact wellNamed.empty id
  · rw [entry_addDetached]
    split
    · exact fun _ => unfound.unnumbered
    · exact wellNamed.unnumbered id

theorem WellNamed.rename (wellNamed : WellNamed map) {id : CodeId}
    (shared : (map.entry id).isSharedFunction = true) (name : String) :
    WellNamed (map.modifyEntry id fun entry => { entry with name }) := by
  have unnumbered := wellNamed.unnumbered id shared
  refine wellNamed.of_bears rfl (fun other otherId => ?_) (fun otherId => ?_) fun otherId => ?_ <;>
    simp only [Bears, entry_modifyEntry] <;> split
  · rename_i same
    simp [same.1, unnumbered]
  · rfl
  · exact wellNamed.empty id
  · exact wellNamed.empty otherId
  · exact fun _ => unnumbered
  · exact wellNamed.unnumbered otherId

/-- Code with a range is stored. -/
theorem stored_of_extent {id : CodeId} (extent : (map.entry id).size ≠ 0) :
    id.index < map.arena.size := by
  by_contra unstored
  rw [entry_unstored unstored] at extent
  exact extent rfl

/-- Code that is found for the first time, and the name that it is given. -/
theorem numberName_fresh {id : CodeId} (stored : id.index < map.arena.size)
    (unnumbered : (map.entry id).numbered = false) (named : (map.entry id).name ≠ "") :
    let given := (map.names.next (map.entry id).name).1
    (map.numberName id).names = (map.names.next (map.entry id).name).2 ∧
      ((map.numberName id).entry id = { map.entry id with name := given, numbered := true }) ∧
      (∀ other, other ≠ id → (map.numberName id).entry other = map.entry other) ∧
      ∀ name other, (map.numberName id).Bears name other ↔
        other = id ∧ name = given ∨ map.Bears name other := by
  intro given
  have entries := entry_numberName stored
  have changed := (entries id).trans (if_pos ⟨rfl, unnumbered, named⟩)
  have others (other : CodeId) (isOther : other ≠ id) :=
    (entries other).trans (if_neg fun same => isOther same.1)
  refine ⟨names_numberName unnumbered named, changed, others, fun name other => ?_⟩
  by_cases same : other = id
  · subst same
    simp [Bears, changed, unnumbered, given, eq_comm]
  · simp [Bears, others other same, same]

theorem WellNamed.number (wellNamed : WellNamed map) {id : CodeId}
    (extent : (map.entry id).size ≠ 0) : WellNamed (map.numberName id) := by
  by_cases fresh : (map.entry id).numbered = false ∧ (map.entry id).name ≠ ""
  swap
  · rwa [numberName_settled fresh]
  obtain ⟨names, changed, others, bears⟩ :=
    numberName_fresh (stored_of_extent extent) fresh.1 fresh.2
  have unshared : (map.entry id).isSharedFunction = false :=
    Bool.eq_false_iff.mpr fun shared => extent (wellNamed.empty id shared)
  have shared (other : CodeId)
      (isShared : ((map.numberName id).entry other).isSharedFunction = true) : other ≠ id := by
    rintro rfl
    rw [changed] at isShared
    exact absurd (isShared.symm.trans unshared) (by decide)
  refine ⟨fun other isShared => ?_, fun other isShared => ?_, fun {name} plain => ?_,
    fun {name} plain first second => ?_⟩
  · have same := others other (shared other isShared)
    rw [same] at isShared ⊢
    exact wellNamed.empty other isShared
  · have same := others other (shared other isShared)
    rw [same] at isShared ⊢
    exact wellNamed.unnumbered other isShared
  · rw [names, NameSupply.knows_next_plain plain]
    simp only [bears, exists_or, exists_eq_left, ← wellNamed.knows_iff plain]
  · -- A plain name is given out only while nothing bears it.
    have exclusive (given : name = (map.names.next (map.entry id).name).1) {other : CodeId}
        (borne : map.Bears name other) : False :=
      (NameSupply.next_plain plain given).2 ((wellNamed.knows_iff plain).mpr ⟨other, borne⟩)
    intro firstBears secondBears
    rcases (bears _ _).mp firstBears with ⟨rfl, given⟩ | earlier <;>
      rcases (bears _ _).mp secondBears with ⟨rfl, alsoGiven⟩ | other
    · rfl
    · exact (exclusive given other).elim
    · exact (exclusive alsoGiven earlier).elim
    · exact wellNamed.unique plain earlier other

/-- Names are given out once, whatever happens to them in one step. -/
theorem WellNamed.step (wellNamed : WellNamed before) (step : NameStep before after) :
    WellNamed after := by
  cases step with
  | rearrange arena names =>
    refine wellNamed.of_sameTitle names fun id => ?_
    rw [entry, entry, arena]
    exact .refl _
  | store unfound => exact wellNamed.store unfound
  | change keeps =>
    refine wellNamed.of_sameTitle rfl fun id => ?_
    rw [entry_modifyEntry]
    split
    · rename_i same
      exact same.1 ▸ keeps
    · exact .refl _
  | number extent => exact wellNamed.number extent
  | rename shared name => exact wellNamed.rename shared name

/-- Code carries a name as long as its title does not change. -/
theorem Carries.of_sameTitle {id : CodeId} {codeType name : String}
    (carries : Carries before id codeType name)
    (stored : before.arena.size ≤ after.arena.size)
    (known : before.names.Knows name → after.names.Knows name)
    (same : (before.entry id).SameTitle (after.entry id)) : Carries after id codeType name where
  stored := Nat.lt_of_lt_of_le carries.stored stored
  dynamic := same.dynamic carries.dynamic
  codeType := same.codeType.trans carries.codeType
  name := by
    rw [same.name, same.numbered]
    exact carries.name.imp_right fun ⟨numbered, isKnown, count⟩ => ⟨numbered, known isKnown, count⟩

/-- Code that is found bears its name, or the name is known and it gets a number. -/
theorem Carries.number {id : CodeId} {codeType name : String}
    (carries : Carries map id codeType name) {found : CodeId}
    (extent : (map.entry found).size ≠ 0) : Carries (map.numberName found) id codeType name := by
  have known : map.names.Knows name → (map.numberName found).names.Knows name :=
    NameStep.knows (.number extent)
  by_cases fresh : (map.entry found).numbered = false ∧ (map.entry found).name ≠ ""
  swap
  · rwa [numberName_settled fresh]
  have storedFound := stored_of_extent extent
  obtain ⟨names, changed, others, -⟩ := numberName_fresh storedFound fresh.1 fresh.2
  have stored : map.arena.size ≤ (map.numberName found).arena.size :=
    Nat.le_of_eq (size_numberName map found).symm
  by_cases same : id = found
  · subst same
    refine ⟨Nat.lt_of_lt_of_le carries.stored stored, ?_, ?_, ?_⟩
    · rw [changed]
      exact carries.dynamic
    · rw [changed]
      exact carries.codeType
    · have unfound : (map.entry id).name = name :=
        carries.name.resolve_right fun numbered => by simp [fresh.1] at numbered
      rw [changed, names, unfound]
      exact (NameSupply.next_cases map.names name).imp And.right fun ⟨isKnown, count⟩ =>
        ⟨rfl, (NameSupply.knows_next _ _).mpr (.inr isKnown), count⟩
  · refine carries.of_sameTitle stored known ?_
    rw [others id same]
    exact .refl _

theorem Carries.step {id : CodeId} {codeType name : String}
    (carries : Carries before id codeType name) (step : NameStep before after) :
    Carries after id codeType name := by
  have known : before.names.Knows name → after.names.Knows name := step.knows
  cases step with
  | rearrange arena names =>
    refine carries.of_sameTitle (Nat.le_of_eq (congrArg Array.size arena).symm) known ?_
    rw [entry, entry, arena]
    exact .refl _
  | store unfound =>
    refine carries.of_sameTitle (by simp [addDetached]) known ?_
    rw [entry_addDetached, if_neg (Nat.ne_of_lt carries.stored)]
    exact .refl _
  | change keeps =>
    refine carries.of_sameTitle (by simp [modifyEntry]) known ?_
    rw [entry_modifyEntry]
    split
    · rename_i same
      exact same.1 ▸ keeps
    · exact .refl _
  | number extent => exact carries.number extent
  | rename shared newName =>
    refine carries.of_sameTitle (by simp [modifyEntry]) known ?_
    rw [entry_modifyEntry]
    split
    · rename_i same
      rw [← same.1, CodeEntry.isSharedFunction, carries.dynamic] at shared
      contradiction
    · exact .refl _

/-! ### Any number of steps -/

theorem WellNamed.steps (wellNamed : WellNamed before) (steps : NameSteps before after) :
    WellNamed after := by
  induction steps with
  | refl => exact wellNamed
  | tail _ step inductionHypothesis => exact inductionHypothesis.step step

theorem Carries.steps {id : CodeId} {codeType name : String}
    (carries : Carries before id codeType name) (steps : NameSteps before after) :
    Carries after id codeType name := by
  induction steps with
  | refl => exact carries
  | tail _ step inductionHypothesis => exact inductionHypothesis.step step

/-! ### What code is called -/

/-- Where nothing has been found, no name is borne. -/
theorem not_bears (unfound : ∀ entry ∈ map.arena, entry.numbered = false) (name : String)
    (id : CodeId) : ¬map.Bears name id := by
  rintro ⟨numbered, -⟩
  by_cases stored : id.index < map.arena.size
  · have member : map.entry id ∈ map.arena := by
      simp [entry, Array.getD_eq_getD_getElem?, stored]
    rw [unfound _ member] at numbered
    contradiction
  · rw [entry_unstored stored] at numbered
    contradiction

/-- The name of code that has been found is borne, if not by this code then by other code. -/
theorem Carries.exists_bears (wellNamed : WellNamed map) {id : CodeId} {codeType name : String}
    (carries : Carries map id codeType name) (plain : PlainName name)
    (numbered : (map.entry id).numbered = true) : ∃ bearer, map.Bears name bearer := by
  rcases carries.name with same | ⟨-, known, -⟩
  · exact ⟨id, numbered, same⟩
  · exact (wellNamed.knows_iff plain).mp known

/-- Code that has been found is called what it was registered under, and then no other code
bears the name. Or else it is called that with a number, and some other code bears
the name. -/
theorem Carries.displayName_cases (wellNamed : WellNamed map) {id : CodeId}
    {codeType name : String} (carries : Carries map id codeType name) (plain : PlainName name)
    (numbered : (map.entry id).numbered = true) :
    map.displayName id = codeType ++ ": " ++ name ∧ (∀ other, map.Bears name other → other = id) ∨
      (∃ count : Nat,
        map.displayName id = codeType ++ ": " ++ name ++ " \x7b" ++ toString count ++ "\x7d") ∧
      ∃ other, other ≠ id ∧ map.Bears name other := by
  have called : map.displayName id = codeType ++ ": " ++ (map.entry id).name := by
    rw [displayName, carries.dynamic, carries.codeType]
  rcases carries.name with same | ⟨-, known, count, given⟩
  · refine .inl ⟨same ▸ called, fun other borne => ?_⟩
    exact wellNamed.unique plain borne ⟨numbered, same⟩
  · refine .inr ⟨⟨count, by rw [called, given, ← String.append_assoc, ← String.append_assoc,
      ← String.append_assoc]⟩, ?_⟩
    obtain ⟨other, borne⟩ := (wellNamed.knows_iff plain).mp known
    refine ⟨other, ?_, borne⟩
    rintro rfl
    refine not_plainName_numbered name count ?_
    rwa [← given, borne.2]

/-- Code that carries a name is numbered when it is found, and what other code bears does not
change. -/
theorem Carries.found {id : CodeId} {codeType name : String}
    (carries : Carries map id codeType name) (plain : PlainName name)
    (extent : (map.entry id).size ≠ 0) :
    ((map.numberName id).entry id).numbered = true ∧
      ∀ other, other ≠ id → ((map.numberName id).Bears name other ↔ map.Bears name other) := by
  by_cases fresh : (map.entry id).numbered = false ∧ (map.entry id).name ≠ ""
  · obtain ⟨-, changed, -, bears⟩ := numberName_fresh (stored_of_extent extent) fresh.1 fresh.2
    refine ⟨by rw [changed], fun other isOther => ?_⟩
    simp [bears, isOther]
  · rw [numberName_settled fresh]
    refine ⟨?_, fun _ _ => .rfl⟩
    rcases carries.name with same | ⟨numbered, -⟩
    · by_contra unnumbered
      exact fresh ⟨Bool.eq_false_iff.mpr unnumbered, same ▸ plain.1⟩
    · exact numbered

/-! ### Operations -/

/-- The operation stores no entry but one that has not been found. -/
def Operation.StoresUnfound : Operation → Prop
  | .addLibrary _ entry | .addStaticCode _ entry | .addCode _ entry => entry.Unfound
  | _ => True

theorem NameSteps.of_alike (alike : Alike before after) : NameSteps before after :=
  .single (.rearrange alike.arena alike.names)

namespace Indexed

/-- What a lookup locates off the pages of the libraries has a range. -/
theorem extent_of_lookup? (indexed : Indexed map) {address : UInt64}
    (unmarked : map.isMarked address = false) {located : Located}
    (found : map.lookup? address = some located) : (map.entry located.id).size ≠ 0 := by
  rw [indexed.lookup?_unmarked unmarked, locatedIn, Option.bind_eq_some_iff] at found
  obtain ⟨⟨start, id⟩, -, holds⟩ := found
  split at holds
  · rename_i covers
    cases holds
    exact size_ne_zero (UInt64.lt_of_le_of_lt covers.1 covers.2)
  · contradiction

/-- Operations do to names what steps do. -/
theorem nameSteps_perform (indexed : Indexed map) (operation : Operation)
    (unfound : operation.StoresUnfound) : NameSteps map (operation.perform map) := by
  by_cases lookup : ∃ address, operation = .findAddress address
  · obtain ⟨address, rfl⟩ := lookup
    obtain ⟨searched, alike, finds⟩ := indexed.exists_findAddress address
    have rearranged : NameSteps map searched := .of_alike alike
    rw [Operation.perform, finds]
    cases marked : map.isMarked address with
    | true => exact rearranged
    | false =>
      cases found : map.lookup? address with
      | none => exact rearranged
      | some located =>
        have extent := indexed.extent_of_lookup? marked found
        rw [← congrFun alike.entry_eq] at extent
        exact rearranged.tail (.number extent)
  · obtain ⟨names, arena⟩ := indexed.stores_perform operation fun address isLookup =>
      lookup ⟨address, isLookup⟩
    cases registered : operation.registration? with
    | none =>
      rw [registered] at arena
      exact .single (.rearrange arena names)
    | some registration =>
      have isUnfound : registration.entry.Unfound := by
        cases operation <;> cases registered <;> exact unfound
      rw [registered] at arena
      exact .tail (.single (.store isUnfound)) (.rearrange arena names)

end Indexed

/-- Asking for the code that starts at an address rearranges an index, and what is found is
live. -/
theorem Indexed.exists_rearranged_dynamicAt (indexed : Indexed map) (start : UInt64) :
    ∃ found after, map.dynamicAt start = (found, after) ∧ NameSteps map after ∧ Indexed after ∧
      after.entry = map.entry ∧ ∀ id ∈ found, (start, id) ∈ map.dynamics.toList := by
  obtain ⟨dynamics, finds, searched, -⟩ := indexed.exists_dynamicAt start
  exact ⟨_, _, finds, .single (.rearrange rfl rfl), searched, rfl,
    fun _ isFound => indexed.found?_eq_some.mp isFound⟩

/-- Changing entries one after the other, but for their titles. -/
theorem nameSteps_foldl_modifyEntry (ids : List CodeId) {change : CodeEntry → CodeEntry}
    (keeps : ∀ entry : CodeEntry, entry.SameTitle (change entry)) (map : CodeMap) :
    NameSteps map (ids.foldl (fun map id => map.modifyEntry id change) map) := by
  induction ids generalizing map with
  | nil => exact .refl
  | cons id ids inductionHypothesis => exact .head (.change (keeps _)) (inductionHypothesis _)

/-- A new map knows no names. -/
theorem wellNamed_empty : WellNamed .empty where
  empty := nofun
  unnumbered _ _ := rfl
  knows_iff _ := by
    have unborne : (default : CodeEntry).numbered = false := rfl
    simp [NameSupply.Knows, Bears, entry, empty, unborne]
  unique _ _ _ borne _ := by cases borne.1

end CodeMap

end JitTrace
