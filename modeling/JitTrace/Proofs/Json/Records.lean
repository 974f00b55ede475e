import JitTrace.Json.Record
import Mathlib.Data.List.Nodup

/-!
# Records of JSON

A record that is written with distinct names is read by these names, and whatever is not
written is found missing. A list is read when its items are.
-/

namespace JitTrace.Json

/-- A name that occurs once at most is found where it is looked up, and nowhere else. -/
theorem filter_eq_lookup {members : List (String × Json)}
    (distinct : (members.map Prod.fst).Nodup) (name : String) :
    members.filter (·.1 == name) = ((members.lookup name).map (name, ·)).toList := by
  induction members with
  | nil => rfl
  | cons first members inductionHypothesis =>
    obtain ⟨key, value⟩ := first
    rw [List.map_cons, List.nodup_cons] at distinct
    by_cases same : key = name
    · subst same
      have absent : members.filter (·.1 == key) = [] := by
        rw [List.filter_eq_nil_iff]
        intro member inside isSame
        exact distinct.1 (List.mem_map.mpr ⟨member, inside, beq_iff_eq.mp isSame⟩)
      simp [absent]
    · have others := inductionHypothesis distinct.2
      have different : (name == key) = false := beq_false_of_ne (Ne.symm same)
      simp [same, different, List.lookup_cons, others]

theorem member?_ofMembers {members : List (String × Json)}
    (distinct : (members.map Prod.fst).Nodup) (name : String) :
    member? name (members.map fun (key, value) => (some key, value)) =
      some (members.lookup name) := by
  have found : (members.map fun member => (some member.1, member.2)).filter
      (fun member => member.1 == some name) =
        (members.filter (·.1 == name)).map fun member => (some member.1, member.2) := by
    rw [List.filter_map]
    rfl
  rw [member?, found, filter_eq_lookup distinct]
  cases members.lookup name <;> rfl

/-- The fields of a record are looked up by their names. -/
theorem fields?_ofMembers {members : List (String × Json)}
    (distinct : (members.map Prod.fst).Nodup) (names : List String) :
    fields? names (ofMembers members) = some (names.map fun name => members.lookup name) := by
  have named : (members.map fun member => (some member.1, member.2)).all
      (fun member => member.1.isSome) = true := by
    simp
  rw [ofMembers, fields?, if_pos named]
  simp only [member?_ofMembers distinct]
  exact List.mapM_pure

theorem readList?_map {Value : Type} {read? : Json → Option Value} {write : Value → Json}
    {values : List Value} (reads : ∀ value ∈ values, read? (write value) = some value) :
    readList? read? (.array (values.map write)) = some values := by
  rw [readList?]
  induction values with
  | nil => rfl
  | cons value values inductionHypothesis =>
    have others := inductionHypothesis fun other inside =>
      reads other (List.mem_cons_of_mem value inside)
    rw [List.map_cons, List.mapM_cons, reads value List.mem_cons_self, others]
    rfl

/-! ## Members that may be left out -/

/-- A member that is left out when it has no value. -/
def optionalMember (name : String) (value : Option Json) : List (String × Json) :=
  (value.map (name, ·)).toList

theorem names_optionalMember (name : String) (value : Option Json) :
    ((optionalMember name value).map Prod.fst).Sublist [name] := by
  cases value with
  | none => exact List.nil_sublist _
  | some => exact .refl _

@[simp] theorem lookup_optionalMember (name sought : String) (value : Option Json) :
    (optionalMember name value).lookup sought = if sought = name then value else none := by
  cases value with
  | none => simp [optionalMember]
  | some value =>
    by_cases same : sought = name
    · simp [optionalMember, same]
    · simp [optionalMember, same, List.lookup_cons, beq_false_of_ne same]

/-- The items of a list, unless it is empty. -/
def nonemptyList {Value : Type} (write : Value → Json) (values : List Value) : Option Json :=
  if values.isEmpty then none else some (.array (values.map write))

/-- A list that was left out because it is empty is read as the empty one. -/
theorem optional?_nonemptyList {Value : Type} {read? : Json → Option Value}
    {write : Value → Json} {values : List Value}
    (reads : ∀ value ∈ values, read? (write value) = some value) :
    optional? [] (readList? read?) (nonemptyList write values) = some values := by
  rw [nonemptyList]
  split
  · rename_i empty
    rw [List.isEmpty_iff.mp empty]
    rfl
  · exact readList?_map reads

end JitTrace.Json
