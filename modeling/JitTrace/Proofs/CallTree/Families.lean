import JitTrace.CallTree.Family
import JitTrace.CallTree.Report
import JitTrace.Proofs.CallTree.Draws

/-!
# Ids within a family of trees

All trees of a family draw their ids from one supply, whichever of them grows, is cloned or has
another tree derived from it. Beside the family stands a record of where every node came into
being, which a clone takes over from its original. As long as the supply lasts, ids ascend in
each tree, and two nodes have one id when they came into being as one node and at no other time.
-/

namespace JitTrace

open GrowingTree (GrewBy Grows nextIds unborn)

/-! ## What happens in a family -/

/-- What can be done to a tree itself. -/
inductive TreeChange where
  | findOrAddChild (parent : NodeIndex) (label : String) (entry : Option CodeId)
  | addPath (path : List (String × Option CodeId))
  | recordSample (index : NodeIndex) (line : Option Nat)
  | moveSample (source : NodeIndex) (sourceLine : Option Nat) (target : NodeIndex)
    (targetLine : Option Nat)
  | computeTotals

/-- The tree after a change. -/
def TreeChange.apply (growing : GrowingTree) : TreeChange → GrowingTree
  | findOrAddChild parent label entry => (growing.findOrAddChild parent label entry).2
  | addPath path => (growing.addPath path).2
  | recordSample index line => growing.mapTree fun tree => tree.recordSample index line
  | moveSample source sourceLine target targetLine =>
    growing.mapTree fun tree => tree.moveSample source sourceLine target targetLine
  | computeTotals => growing.mapTree CallTree.computeTotals

/-- How a tree is derived from another one. -/
inductive Derivation where
  | bottomUp
  | flat (region : Option String)
  | subtrees (label : String)

/-- The tree that is derived. -/
def Derivation.apply (source : GrowingTree) : Derivation → GrowingTree
  | bottomUp => source.tree.bottomUp source.ids
  | flat region => source.tree.flat region source.ids
  | subtrees label => source.tree.subtrees label source.ids

/-- What can be done with a tree of a family. -/
inductive FamilyAct where
  | change (change : TreeChange)
  | clone
  | derive (derivation : Derivation)
  | topFunctions (count : Nat) (kind : WeightKind)
  /-- A view is made of the tree alone, and has no ids. -/
  | view (rate : Float) (inverted : Bool)

theorem TreeChange.grows (growing : GrowingTree) (change : TreeChange) :
    Grows growing (change.apply growing) := by
  cases change with
  | findOrAddChild parent label entry => exact .findOrAddChild growing parent label entry
  | addPath path => exact .addPath growing path
  | recordSample index line => exact (Grows.refl growing).reweighted (.recordSample _ index line)
  | moveSample source sourceLine target targetLine =>
    exact (Grows.refl growing).reweighted (.moveSample _ source sourceLine target targetLine)
  | computeTotals => exact (Grows.refl growing).reweighted (.computeTotals _)

theorem Derivation.grows (source : GrowingTree) (derivation : Derivation) :
    Grows (unborn source.ids) (derivation.apply source) := by
  cases derivation with
  | bottomUp => exact source.tree.grows_bottomUp source.ids
  | flat region => exact source.tree.grows_flat region source.ids
  | subtrees label => exact source.tree.grows_subtrees label source.ids

/-- Where a node came into being: the tree, and the place among its nodes. -/
structure Birthplace where
  tree : Nat
  index : NodeIndex
deriving DecidableEq

/-- The birthplaces of the nodes that a tree gets while it grows from one size to another. -/
def birthplaces (tree before after : Nat) : List Birthplace :=
  (List.range (after - before)).map fun offset => ⟨tree, before + offset⟩

/-- A family and what is known of its nodes. -/
structure FamilyHistory where
  family : TreeFamily
  /-- The birthplaces of the nodes of each tree, in order. -/
  births : Array (List Birthplace)
  /-- How many nodes were created, those of trees that were not kept among them. -/
  created : Nat

namespace FamilyHistory

/-- A tree of the family, without nodes if there is none at this place. -/
def tree (history : FamilyHistory) (place : Nat) : CallTree :=
  (history.family.member place).tree

def birthsOf (history : FamilyHistory) (place : Nat) : List Birthplace :=
  history.births.getD place []

/-- A family starts with the root of its first tree. -/
def first (label : String) (entry : Option CodeId) : FamilyHistory where
  family := .ofFirst (.fresh label entry)
  births := #[[⟨0, 0⟩]]
  created := 1

/-- The tree at a place changes, and what nodes it gets come into being in it. -/
def change (history : FamilyHistory) (place : Nat) (change : TreeChange) : FamilyHistory :=
  let member := history.family.member place
  let grown := change.apply member
  { family := history.family.replace place grown
    births := history.births.modify place
      (· ++ birthplaces place member.tree.size grown.tree.size)
    created := history.created + (grown.tree.size - member.tree.size) }

/-- A clone has the nodes of its original, and no node comes into being. -/
def clone (history : FamilyHistory) (place : Nat) : FamilyHistory :=
  { history with
    family := history.family.adopt (history.family.member place)
    births := history.births.push (history.birthsOf place) }

/-- All nodes of a derived tree come into being in it. -/
def derive (history : FamilyHistory) (place : Nat) (derivation : Derivation) : FamilyHistory :=
  let derived := derivation.apply (history.family.member place)
  { family := history.family.adopt derived
    births := history.births.push (birthplaces history.family.trees.size 0 derived.tree.size)
    created := history.created + derived.tree.size }

/-- The flat tree behind a listing is not kept. -/
def topFunctions (history : FamilyHistory) (place count : Nat) (kind : WeightKind) :
    FamilyHistory :=
  let member := history.family.member place
  { history with
    family := { history.family with ids := (member.tree.topFunctions count kind member.ids).2 }
    created := history.created + (member.tree.flat none member.ids).tree.size }

/-- Do something with the tree at a place, if there is one. -/
def perform (history : FamilyHistory) (place : Nat) (act : FamilyAct) : FamilyHistory :=
  if place < history.family.trees.size then
    match act with
    | .change change => history.change place change
    | .clone => history.clone place
    | .derive derivation => history.derive place derivation
    | .topFunctions count kind => history.topFunctions place count kind
    | .view .. => history
  else history

/-- What becomes of a family. -/
def run (label : String) (entry : Option CodeId) (acts : List (Nat × FamilyAct)) :
    FamilyHistory :=
  acts.foldl (fun history act => history.perform act.1 act.2) (first label entry)

/-! ## Numbers of nodes -/

/-- A node with this birthplace is in one of the trees. -/
def Born (history : FamilyHistory) (birth : Birthplace) : Prop :=
  ∃ place, birth ∈ history.birthsOf place

/-- The nodes that came into being are numbered from one on, in this order, and the id of a node
is the number of its birthplace as a word. -/
structure Numbering (history : FamilyHistory) (number : Birthplace → Nat) : Prop where
  births_size : history.births.size = history.family.trees.size
  supply : history.family.ids = .ofNat (1 + history.created)
  ids : ∀ place, (history.tree place).ids =
    (history.birthsOf place).map fun birth => .ofNat (number birth)
  ascending : ∀ place, (history.birthsOf place).Pairwise fun earlier later =>
    number earlier < number later
  within : ∀ {birth}, history.Born birth → 0 < number birth ∧ number birth < 1 + history.created
  /-- The node that came into being is still there. -/
  original : ∀ {birth}, history.Born birth →
    (history.birthsOf birth.tree)[birth.index]? = some birth
  injective : ∀ {birth other}, history.Born birth → history.Born other →
    number birth = number other → birth = other

variable {history before after : FamilyHistory} {number : Birthplace → Nat} {place count : Nat}

theorem getElem?_kept {Value : Type} {front whole : List Value} (extended : front <+: whole)
    {index : Nat} {value : Value} (found : front[index]? = some value) :
    whole[index]? = some value := by
  obtain ⟨within, isValue⟩ := List.getElem?_eq_some_iff.mp found
  rw [List.prefix_iff_getElem?.mp extended index within, isValue]

/-- The numbers of nodes after the tree at a place has grown. -/
def numberAfter (before : FamilyHistory) (number : Birthplace → Nat) (place : Nat)
    (birth : Birthplace) : Nat :=
  if birth.tree = place ∧ (before.tree place).size ≤ birth.index then
    1 + before.created + (birth.index - (before.tree place).size)
  else number birth

theorem numberAfter_new (before : FamilyHistory) (number : Birthplace → Nat) (place offset : Nat) :
    before.numberAfter number place ⟨place, (before.tree place).size + offset⟩ =
      1 + before.created + offset := by
  rw [numberAfter, if_pos ⟨rfl, Nat.le_add_right ..⟩, Nat.add_sub_cancel_left]

/-- One tree grows and no other, and the record is kept. -/
structure GrowsAt (before after : FamilyHistory) (place count : Nat) : Prop where
  births_size : after.births.size = after.family.trees.size
  grew : GrewBy count (before.family.member place) (after.family.member place)
  trees : ∀ other ≠ place, after.tree other = before.tree other
  births : after.birthsOf place = before.birthsOf place ++
    birthplaces place (before.tree place).size (after.tree place).size
  otherBirths : ∀ other ≠ place, after.birthsOf other = before.birthsOf other
  created : after.created = before.created + count

namespace Numbering

theorem length_birthsOf (numbered : Numbering history number) (place : Nat) :
    (history.birthsOf place).length = (history.tree place).size := by
  have lengths := congrArg List.length (numbered.ids place)
  simpa using lengths.symm

theorem numberAfter_old (numbered : Numbering before number) {birth : Birthplace}
    (born : before.Born birth) : before.numberAfter number place birth = number birth := by
  refine if_neg fun ⟨isHere, isNew⟩ => ?_
  obtain ⟨old, -⟩ := List.getElem?_eq_some_iff.mp (numbered.original born)
  rw [isHere, numbered.length_birthsOf] at old
  exact Nat.not_le.mpr old isNew

end Numbering

namespace GrowsAt

variable (grows : GrowsAt before after place count)

include grows

theorem births_eq : after.birthsOf place = before.birthsOf place ++
    (List.range count).map fun offset => ⟨place, (before.tree place).size + offset⟩ := by
  have size : (after.tree place).size = (before.tree place).size + count := grows.grew.size
  rw [grows.births, birthplaces, size, Nat.add_sub_cancel_left]

theorem births_kept (other : Nat) : before.birthsOf other <+: after.birthsOf other := by
  by_cases isHere : other = place
  · exact isHere ▸ grows.births ▸ List.prefix_append ..
  · rw [grows.otherBirths other isHere]

theorem born_cases {birth : Birthplace} (born : after.Born birth) : before.Born birth ∨
    ∃ offset < count, birth = ⟨place, (before.tree place).size + offset⟩ := by
  obtain ⟨other, inside⟩ := born
  by_cases isHere : other = place
  · rw [isHere, grows.births_eq] at inside
    rcases List.mem_append.mp inside with old | isNew
    · exact .inl ⟨place, old⟩
    · obtain ⟨offset, within, rfl⟩ := List.mem_map.mp isNew
      exact .inr ⟨offset, List.mem_range.mp within, rfl⟩
  · exact .inl ⟨other, grows.otherBirths other isHere ▸ inside⟩

variable (numbered : Numbering before number)

include numbered

theorem ids_eq (other : Nat) : (after.tree other).ids =
    (after.birthsOf other).map fun birth => .ofNat (before.numberAfter number place birth) := by
  have old : (before.tree other).ids = (before.birthsOf other).map fun birth =>
      .ofNat (before.numberAfter number place birth) := by
    rw [numbered.ids]
    exact List.map_congr_left fun birth inside => by rw [numbered.numberAfter_old ⟨other, inside⟩]
  by_cases isHere : other = place
  · subst isHere
    have ids : (after.tree other).ids =
        (before.tree other).ids ++ nextIds before.family.ids count := grows.grew.ids
    rw [ids, old, grows.births_eq, List.map_append, List.map_map]
    refine congrArg _ (List.map_congr_left fun offset _ => ?_)
    rw [Function.comp_apply, numberAfter_new, numbered.supply, UInt32.ofNat_add _ offset]
  · rw [grows.trees other isHere, old, grows.otherBirths other isHere]

theorem ascending (other : Nat) : (after.birthsOf other).Pairwise fun earlier later =>
    before.numberAfter number place earlier < before.numberAfter number place later := by
  have same {birth : Birthplace} (inside : birth ∈ before.birthsOf other) :
      before.numberAfter number place birth = number birth :=
    numbered.numberAfter_old ⟨other, inside⟩
  have old := (numbered.ascending other).imp_of_mem fun inside later below => by
    rwa [← same inside, ← same later] at below
  by_cases isHere : other = place
  · subst isHere
    rw [grows.births_eq, List.pairwise_append]
    refine ⟨old, ?_, fun birth inside later isNew => ?_⟩
    · refine List.pairwise_map.mpr (List.pairwise_lt_range.imp fun below => ?_)
      rw [numberAfter_new, numberAfter_new]
      exact Nat.add_lt_add_left below _
    · obtain ⟨offset, -, rfl⟩ := List.mem_map.mp isNew
      have below := (numbered.within ⟨other, inside⟩).2
      rw [same inside, numberAfter_new]
      omega
  · rwa [grows.otherBirths other isHere]

theorem injective {birth other : Birthplace} (born : after.Born birth)
    (otherBorn : after.Born other)
    (same : before.numberAfter number place birth = before.numberAfter number place other) :
    birth = other := by
  -- New numbers are above all old ones.
  rcases grows.born_cases born with known | ⟨offset, -, rfl⟩
  · rcases grows.born_cases otherBorn with otherKnown | ⟨offset, -, rfl⟩
    · rw [numbered.numberAfter_old known, numbered.numberAfter_old otherKnown] at same
      exact numbered.injective known otherKnown same
    · rw [numbered.numberAfter_old known, numberAfter_new] at same
      have below := (numbered.within known).2
      omega
  · rcases grows.born_cases otherBorn with otherKnown | ⟨otherOffset, -, rfl⟩
    · rw [numbered.numberAfter_old otherKnown, numberAfter_new] at same
      have below := (numbered.within otherKnown).2
      omega
    · rw [numberAfter_new, numberAfter_new] at same
      rw [Nat.add_left_cancel same]

/-- The new nodes get the next numbers. -/
theorem numbering : Numbering after (before.numberAfter number place) where
  births_size := grows.births_size
  supply := by
    have supply : after.family.ids = before.family.ids + .ofNat count := grows.grew.supply
    rw [supply, grows.created, numbered.supply, ← UInt32.ofNat_add, Nat.add_assoc]
  ids := grows.ids_eq numbered
  ascending := grows.ascending numbered
  within := by
    intro birth born
    rw [grows.created]
    rcases grows.born_cases born with known | ⟨offset, within, rfl⟩
    · rw [numbered.numberAfter_old known]
      have ⟨positive, below⟩ := numbered.within known
      exact ⟨positive, by omega⟩
    · rw [numberAfter_new]
      omega
  original := by
    intro birth born
    rcases grows.born_cases born with known | ⟨offset, within, rfl⟩
    · exact getElem?_kept (grows.births_kept _) (numbered.original known)
    · rw [grows.births_eq, List.getElem?_append_right]
      · simp [numbered.length_birthsOf, within]
      · simp [numbered.length_birthsOf]
  injective := grows.injective numbered

end GrowsAt

/-- Trees and records are copied and stay, while the supply may go on. -/
theorem Numbering.copied (numbered : Numbering before number)
    (births_size : after.births.size = after.family.trees.size)
    (supply : after.family.ids = before.family.ids + .ofNat count)
    (created : after.created = before.created + count)
    (sources : ∀ place, ∃ source, after.tree place = before.tree source ∧
      after.birthsOf place = before.birthsOf source)
    (kept : ∀ place, before.birthsOf place <+: after.birthsOf place) :
    Numbering after number := by
  have known {birth : Birthplace} (born : after.Born birth) : before.Born birth := by
    obtain ⟨place, inside⟩ := born
    obtain ⟨source, -, births⟩ := sources place
    exact ⟨source, births ▸ inside⟩
  refine ⟨births_size, ?_, fun place => ?_, fun place => ?_, fun born => ?_, fun born => ?_,
    fun born other => numbered.injective (known born) (known other)⟩
  · rw [supply, created, numbered.supply, ← UInt32.ofNat_add, Nat.add_assoc]
  · obtain ⟨source, tree, births⟩ := sources place
    rw [tree, births, numbered.ids]
  · obtain ⟨source, -, births⟩ := sources place
    exact births ▸ numbered.ascending source
  · have ⟨positive, below⟩ := numbered.within (known born)
    rw [created]
    exact ⟨positive, by omega⟩
  · exact getElem?_kept (kept _) (numbered.original (known born))

/-! ## Steps -/

theorem numbering_first (label : String) (entry : Option CodeId) :
    Numbering (first label entry) fun _ => 1 := by
  have births (place : Nat) : (first label entry).birthsOf place =
      if place = 0 then [⟨0, 0⟩] else [] := by
    cases place <;> rfl
  have born {birth : Birthplace} (born : (first label entry).Born birth) : birth = ⟨0, 0⟩ := by
    obtain ⟨place, inside⟩ := born
    rw [births] at inside
    split at inside <;> simp_all
  refine ⟨rfl, rfl, fun place => ?_, fun place => ?_,
    fun _ => ⟨Nat.zero_lt_one, Nat.lt_add_one 1⟩, fun isBorn => ?_,
    fun isBorn other _ => (born isBorn).trans (born other).symm⟩
  · cases place <;> rfl
  · rw [births]
    split <;> simp
  · rw [born isBorn]
    rfl

theorem getD_modify {Value : Type} {values : Array Value} (inside : place < values.size)
    (change : Value → Value) (fallback : Value) (other : Nat) :
    (values.modify place change).getD other fallback =
      if other = place then change (values.getD place fallback)
      else values.getD other fallback := by
  simp only [Array.getD_eq_getD_getElem?, Array.getElem?_modify, @eq_comm _ place]
  split
  · rename_i isHere
    subst isHere
    simp [inside]
  · rfl

theorem getD_push {Value : Type} (values : Array Value) (value fallback : Value) (other : Nat) :
    (values.push value).getD other fallback =
      if other = values.size then value else values.getD other fallback := by
  rw [Array.getD_eq_getD_getElem?, Array.getElem?_push, Array.getD_eq_getD_getElem?]
  split <;> rfl

/-- A change is the growth of one tree. -/
theorem exists_growsAt_change (numbered : Numbering history number)
    (inside : place < history.family.trees.size) (change : TreeChange) :
    ∃ count, GrowsAt history (history.change place change) place count := by
  have trees (other : Nat) : (history.change place change).tree other =
      if other = place then (change.apply (history.family.member place)).tree
      else history.tree other :=
    getD_modify inside _ _ other
  have births (other : Nat) : (history.change place change).birthsOf other = _ :=
    getD_modify (numbered.births_size ▸ inside) _ _ other
  obtain ⟨count, grew⟩ := change.grows (history.family.member place)
  have size : (change.apply (history.family.member place)).tree.size = _ := grew.size
  refine ⟨count, ?_, ⟨grew.supply, ?_⟩, fun other isOther => ?_, ?_, fun other isOther => ?_, ?_⟩
  · simp [FamilyHistory.change, TreeFamily.replace, numbered.births_size]
  · exact (congrArg CallTree.ids ((trees place).trans (if_pos rfl))).trans grew.ids
  · rw [trees, if_neg isOther]
  · rw [births, if_pos rfl, trees, if_pos rfl]
    rfl
  · rw [births, if_neg isOther]
    rfl
  · rw [FamilyHistory.change, size, Nat.add_sub_cancel_left]

theorem tree_adopt (family : TreeFamily) (growing : GrowingTree) (other : Nat) :
    ((family.adopt growing).member other).tree =
      if other = family.trees.size then growing.tree else (family.member other).tree :=
  getD_push family.trees growing.tree default other

/-- A derivation is the growth of a tree that was not there. -/
theorem exists_growsAt_derive (numbered : Numbering history number) (place : Nat)
    (derivation : Derivation) :
    ∃ count, GrowsAt history (history.derive place derivation) history.family.trees.size count := by
  have trees (other : Nat) : (history.derive place derivation).tree other = _ :=
    tree_adopt _ _ other
  have births (other : Nat) : (history.derive place derivation).birthsOf other = _ :=
    getD_push _ _ _ other
  have unborn : history.family.member history.family.trees.size = unborn history.family.ids := by
    simp [TreeFamily.member, unborn]
  obtain ⟨count, grew⟩ := derivation.grows (history.family.member place)
  have noSize : (history.tree history.family.trees.size).size = 0 := by
    rw [tree, unborn]
    rfl
  have size : (derivation.apply (history.family.member place)).tree.size = count :=
    grew.size.trans (Nat.zero_add count)
  refine ⟨count, ?_, ⟨grew.supply, ?_⟩, fun other isOther => ?_, ?_, fun other isOther => ?_, ?_⟩
  · simp [FamilyHistory.derive, TreeFamily.adopt, numbered.births_size]
  · rw [unborn]
    exact (congrArg CallTree.ids ((trees _).trans (if_pos rfl))).trans grew.ids
  · rw [trees, if_neg isOther]
    rfl
  · have unrecorded : history.birthsOf history.family.trees.size = [] := by
      simp [birthsOf, ← numbered.births_size]
    rw [births, if_pos numbered.births_size.symm, trees, if_pos rfl, unrecorded, noSize,
      List.nil_append]
  · rw [births, if_neg (numbered.births_size ▸ isOther)]
    rfl
  · rw [FamilyHistory.derive, size]

theorem numbering_clone (numbered : Numbering history number) (place : Nat) :
    Numbering (history.clone place) number := by
  have trees (other : Nat) : (history.clone place).tree other = _ := tree_adopt _ _ other
  have births (other : Nat) : (history.clone place).birthsOf other = _ := getD_push _ _ _ other
  have supply : (history.clone place).family.ids = history.family.ids + .ofNat 0 :=
    (UInt32.add_zero _).symm
  refine numbered.copied ?_ supply rfl (fun other => ?_) fun other => ?_
  · simp [FamilyHistory.clone, TreeFamily.adopt, numbered.births_size]
  · rw [trees, births, numbered.births_size]
    split
    · exact ⟨place, rfl, rfl⟩
    · exact ⟨other, rfl, rfl⟩
  · rw [births]
    split
    · rename_i isClone
      have unrecorded : history.birthsOf other = [] := by
        simp [birthsOf, isClone]
      exact unrecorded ▸ List.nil_prefix
    · exact List.prefix_rfl

theorem numbering_topFunctions (numbered : Numbering history number) (place rows : Nat)
    (kind : WeightKind) : Numbering (history.topFunctions place rows kind) number := by
  obtain ⟨count, grew⟩ := (history.tree place).grows_flat none history.family.ids
  have size : ((history.tree place).flat none history.family.ids).tree.size = count :=
    grew.size.trans (Nat.zero_add count)
  have created : (history.topFunctions place rows kind).created = history.created + count :=
    congrArg (history.created + ·) size
  exact numbered.copied numbered.births_size grew.supply created
    (fun other => ⟨other, rfl, rfl⟩) fun _ => List.prefix_rfl

/-- Whatever is done with a tree, all nodes keep their numbers and new ones get the next. -/
theorem exists_numbering_perform (numbered : Numbering history number) (place : Nat)
    (act : FamilyAct) : ∃ number, Numbering (history.perform place act) number := by
  unfold perform
  split
  · rename_i inside
    cases act with
    | change change =>
      obtain ⟨count, grows⟩ := exists_growsAt_change numbered inside change
      exact ⟨_, grows.numbering numbered⟩
    | clone => exact ⟨number, numbering_clone numbered place⟩
    | derive derivation =>
      obtain ⟨count, grows⟩ := exists_growsAt_derive numbered place derivation
      exact ⟨_, grows.numbering numbered⟩
    | topFunctions count kind => exact ⟨number, numbering_topFunctions numbered place count kind⟩
    | view => exact ⟨number, numbered⟩
  · exact ⟨number, numbered⟩

theorem exists_numbering_run (label : String) (entry : Option CodeId)
    (acts : List (Nat × FamilyAct)) : ∃ number, Numbering (run label entry acts) number :=
  List.foldlRecOn (motive := fun history => ∃ number, Numbering history number) acts _
    ⟨_, numbering_first label entry⟩
    fun _ ⟨_, numbered⟩ act _ => exists_numbering_perform numbered act.1 act.2

/-! ## Ids of nodes -/

theorem Numbering.id_eq (numbered : Numbering history number) {index : Nat} {birth : Birthplace}
    (found : (history.birthsOf place)[index]? = some birth) :
    ((history.tree place).node index).id = .ofNat (number birth) := by
  have inside : index < (history.tree place).size := by
    rw [← numbered.length_birthsOf]
    exact (List.getElem?_eq_some_iff.mp found).1
  have listed := congrArg (·[index]?) (numbered.ids place)
  simpa [CallTree.ids, inside, found] using listed

/-- What the ids of a family tell. -/
structure Identified (history : FamilyHistory) : Prop where
  /-- Every node has a birthplace. -/
  born : ∀ place, (history.birthsOf place).length = (history.tree place).size
  /-- The node that was created is still there, in the tree it was created in. -/
  original : ∀ place, ∀ birth ∈ history.birthsOf place,
    (history.birthsOf birth.tree)[birth.index]? = some birth
  ascending : ∀ place earlier later, earlier < later → later < (history.tree place).size →
    ((history.tree place).node earlier).id < ((history.tree place).node later).id
  /-- Two nodes have one id when both are the same created node, or clones of it. -/
  same_id_iff : ∀ first second, ∀ left < (history.tree first).size,
    ∀ right < (history.tree second).size,
      (((history.tree first).node left).id = ((history.tree second).node right).id ↔
        (history.birthsOf first)[left]? = (history.birthsOf second)[right]?)
  /-- Nothing but a change of a tree changes a tree. -/
  unchanged : ∀ place act, (∀ change, act ≠ .change change) →
    ∀ other < history.family.trees.size, (history.perform place act).tree other = history.tree other

theorem tree_perform (history : FamilyHistory) (place : Nat) {act : FamilyAct}
    (noChange : ∀ change, act ≠ .change change) {other : Nat}
    (inside : other < history.family.trees.size) :
    (history.perform place act).tree other = history.tree other := by
  have adopted (growing : GrowingTree) :
      ((history.family.adopt growing).member other).tree = history.tree other := by
    rw [tree_adopt, if_neg (Nat.ne_of_lt inside)]
    rfl
  unfold perform
  split
  · cases act with
    | change change => exact absurd rfl (noChange change)
    | clone => exact adopted _
    | derive derivation => exact adopted _
    | topFunctions => rfl
    | view => rfl
  · rfl

theorem Numbering.identified (numbered : Numbering history number)
    (few : history.created < 2 ^ 32 - 1) : Identified history := by
  have toNat_id {place index : Nat} {birth : Birthplace}
      (found : (history.birthsOf place)[index]? = some birth) :
      ((history.tree place).node index).id.toNat = number birth := by
    have below := (numbered.within ⟨place, List.mem_of_getElem? found⟩).2
    rw [numbered.id_eq found, UInt32.toNat_ofNat_of_lt' (by rw [UInt32.size]; omega)]
  refine ⟨numbered.length_birthsOf, fun place birth inside => numbered.original ⟨place, inside⟩,
    fun place earlier later before inside => ?_, fun first second left inFirst right inSecond => ?_,
    fun place _ noChange _ => tree_perform history place noChange⟩
  · rw [← numbered.length_birthsOf] at inside
    have foundEarlier := List.getElem?_eq_getElem (before.trans inside)
    have foundLater := List.getElem?_eq_getElem inside
    rw [UInt32.lt_iff_toNat_lt, toNat_id foundEarlier, toNat_id foundLater]
    exact List.pairwise_iff_getElem.mp (numbered.ascending place) _ _ _ _ before
  · rw [← numbered.length_birthsOf] at inFirst inSecond
    have foundLeft := List.getElem?_eq_getElem inFirst
    have foundRight := List.getElem?_eq_getElem inSecond
    rw [← UInt32.toNat_inj, toNat_id foundLeft, toNat_id foundRight, foundLeft, foundRight,
      Option.some.injEq]
    constructor
    · exact numbered.injective ⟨first, List.getElem_mem _⟩ ⟨second, List.getElem_mem _⟩
    · exact congrArg number

/-- As long as ids are not used up, they ascend in every tree of a family and tell all its nodes
apart, a clone and its original excepted. -/
theorem ids_identify_nodes (label : String) (entry : Option CodeId)
    (acts : List (Nat × FamilyAct)) (few : (run label entry acts).created < 2 ^ 32 - 1) :
    Identified (run label entry acts) := by
  obtain ⟨number, numbered⟩ := exists_numbering_run label entry acts
  exact numbered.identified few

theorem ids_identify_nodes_of_clone :
    let history := run CallTree.rootLabel none
      [(0, .change (.addPath [("f", none), ("g", none)])), (0, .change (.recordSample 2 none)),
        (0, .clone), (1, .change (.findOrAddChild 0 "h" none)), (0, .derive .bottomUp),
        (1, .topFunctions 1 .own), (1, .derive (.flat none)), (0, .view 1.0 false),
        (0, .change (.findOrAddChild 0 "h" none))]
    history.created < 2 ^ 32 - 1 ∧ Identified history :=
  ⟨by decide +kernel, ids_identify_nodes _ _ _ (by decide +kernel)⟩

end FamilyHistory

end JitTrace
