import JitTrace.Proofs.Json.Literals

/-!
# Documents of JSON

A document is read back as it was written. No written form starts with a blank or with a
closing bracket, so a reader that skips blanks stops in front of it and tells a first item from
the end of an empty list. Every character that a document is written with pays for two steps of
its reader, which is more than the reader takes.
-/

namespace JitTrace.Json

/-- All numbers of a document are written as the format demands. -/
inductive Written : Json → Prop
  | null : Written .null
  | bool (value : Bool) : Written (.bool value)
  | number {literal : JsonNumber} : literal.Written → Written (.number literal)
  | string (text : Option String) : Written (.string text)
  | array {items : List Json} : (∀ item ∈ items, Written item) → Written (.array items)
  | object {members : List (Option String × Json)} :
    (∀ member ∈ members, Written member.2) → Written (.object members)

/-! ## Fronts -/

/-- A text that starts neither with a blank nor with a closing bracket. -/
def Opens (cs : List Char) : Prop :=
  ∃ c rest, cs = c :: rest ∧ isBlank c = false ∧ c ≠ ']'

theorem Opens.append {cs : List Char} (opens : Opens cs) (rest : List Char) :
    Opens (cs ++ rest) := by
  obtain ⟨c, others, rfl, visible, notEnd⟩ := opens
  exact ⟨c, others ++ rest, rfl, visible, notEnd⟩

theorem skipBlanks_of_visible {c : Char} (visible : isBlank c = false) (rest : List Char) :
    skipBlanks (c :: rest) = c :: rest :=
  List.dropWhile_cons_of_neg (by simp [visible])

theorem Opens.skipBlanks_eq {cs : List Char} (opens : Opens cs) : skipBlanks cs = cs := by
  obtain ⟨c, rest, rfl, visible, -⟩ := opens
  exact skipBlanks_of_visible visible rest

theorem isBlank_of_isDigit {c : Char} (digit : isDigit c = true) : isBlank c = false := by
  by_contra blank
  simp only [isBlank, Bool.not_eq_false, Bool.or_eq_true, beq_iff_eq] at blank
  rcases blank with ((rfl | rfl) | rfl) | rfl <;> contradiction

/-- A number starts with its sign or with a digit. -/
theorem exists_renderNumber_eq {literal : JsonNumber} (written : literal.Written) :
    ∃ c rest, renderNumber literal = c :: rest ∧ (c = '-' ∨ isDigit c = true) := by
  rw [renderNumber_eq]
  cases literal.negative with
  | true => exact ⟨'-', _, rfl, .inl rfl⟩
  | false =>
    obtain ⟨c, others, whole⟩ := List.exists_cons_of_ne_nil written.whole_ne_nil
    have digit := written.whole c (whole ▸ List.mem_cons_self)
    exact ⟨c, _, by rw [whole]; rfl, .inr digit⟩

theorem Written.opens {document : Json} (written : Written document) :
    Opens document.render := by
  cases written with
  | null => exact ⟨'n', ['u', 'l', 'l'], by rw [render], rfl, by decide⟩
  | bool value =>
    cases value with
    | true => exact ⟨'t', ['r', 'u', 'e'], by rw [render], rfl, by decide⟩
    | false => exact ⟨'f', ['a', 'l', 's', 'e'], by rw [render], rfl, by decide⟩
  | number literal =>
    obtain ⟨c, rest, starts, rfl | digit⟩ := exists_renderNumber_eq literal
    · exact ⟨'-', rest, by rw [render, starts], rfl, by decide⟩
    · refine ⟨c, rest, by rw [render, starts], isBlank_of_isDigit digit, ?_⟩
      rintro rfl
      contradiction
  | string text => cases text <;> exact ⟨'"', _, by rw [render]; rfl, rfl, by decide⟩
  | array => exact ⟨'[', _, by rw [render], rfl, by decide⟩
  | object => exact ⟨'\x7b', _, by rw [render], rfl, by decide⟩

/-! ## Reading back -/

/-- A document is read back in front of whatever ends a number, when every character that it
is written with pays for two steps. -/
def ReadsBack (document : Json) : Prop :=
  ∀ fuel rest, 2 * document.render.length ≤ fuel → EndsNumber rest →
    readValue? fuel (document.render ++ rest) = some (document, rest)

theorem endsNumber_cons {c : Char} (ends : continuesNumber c = false) (rest : List Char) :
    EndsNumber (c :: rest) := by
  rintro first ⟨⟩
  exact ends

theorem readsBack_number {literal : JsonNumber} (written : literal.Written) :
    ReadsBack (.number literal) := by
  intro fuel rest enough ends
  obtain ⟨c, others, starts, first⟩ := exists_renderNumber_eq written
  have reads := readNumber?_renderNumber written ends
  rw [render, starts, List.length_cons] at enough
  obtain ⟨fuel, rfl⟩ : ∃ more, fuel = more + 1 := ⟨fuel - 1, by omega⟩
  rw [starts, List.cons_append] at reads
  rw [render, starts, List.cons_append, readValue?, reads]
  · rfl
  all_goals
    intro more same
    obtain ⟨rfl, -⟩ := List.cons.inj same
    rcases first with first | first <;> contradiction

theorem readsBack_string (text : Option String) : ReadsBack (.string text) := by
  intro fuel rest enough ends
  obtain ⟨inside, starts, reads⟩ := readString?_renderString text rest
  have nonempty : 0 < (renderString text).length := by cases text <;> simp [renderString]
  rw [render] at enough
  obtain ⟨fuel, rfl⟩ : ∃ more, fuel = more + 1 := ⟨fuel - 1, by omega⟩
  rw [render, starts, readValue?, reads]
  rfl

/-- Items are read back up to the bracket that closes them. -/
theorem readItems?_renderItems {first : Json} {items : List Json}
    (opens : ∀ item ∈ first :: items, Opens item.render)
    (each : ∀ item ∈ first :: items, ReadsBack item) (fuel : Nat) (rest : List Char)
    (enough : 2 * (renderItems (first :: items)).length ≤ fuel) :
    readItems? fuel (renderItems (first :: items) ++ rest) = some (first :: items, rest) := by
  induction items generalizing first fuel with
  | nil =>
    rw [renderItems, renderMoreItems, List.length_append, List.length_singleton] at enough
    obtain ⟨fuel, rfl⟩ : ∃ more, fuel = more + 1 := ⟨fuel - 1, by omega⟩
    rw [renderItems, renderMoreItems, List.append_assoc, List.singleton_append, readItems?,
      each first List.mem_cons_self fuel _ (by omega) (endsNumber_cons rfl rest)]
    simp only [skipBlanks_of_visible (c := ']') rfl]
  | cons second items inductionHypothesis =>
    have others : renderMoreItems (second :: items) = ',' :: renderItems (second :: items) := by
      rw [renderMoreItems, renderItems]
    have opensRest : Opens (renderItems (second :: items)) := by
      rw [renderItems]
      exact (opens second (by simp)).append _
    rw [renderItems, others, List.length_append, List.length_cons] at enough
    obtain ⟨fuel, rfl⟩ : ∃ more, fuel = more + 1 := ⟨fuel - 1, by omega⟩
    have readsRest := inductionHypothesis
      (fun item inside => opens item (List.mem_cons_of_mem first inside))
      (fun item inside => each item (List.mem_cons_of_mem first inside)) fuel (by omega)
    rw [renderItems, others, List.append_assoc, List.cons_append, readItems?,
      each first List.mem_cons_self fuel _ (by omega) (endsNumber_cons rfl _)]
    simp only [skipBlanks_of_visible (c := ',') rfl, (opensRest.append rest).skipBlanks_eq,
      readsRest, Option.map_some]

theorem readsBack_array {items : List Json} (opens : ∀ item ∈ items, Opens item.render)
    (each : ∀ item ∈ items, ReadsBack item) : ReadsBack (.array items) := by
  intro fuel rest enough _
  rw [render, List.length_cons] at enough
  obtain ⟨fuel, rfl⟩ : ∃ more, fuel = more + 1 := ⟨fuel - 1, by omega⟩
  rw [render, List.cons_append, readValue?]
  cases items with
  | nil =>
    rw [renderItems, List.singleton_append, skipBlanks_of_visible rfl]
    rfl
  | cons first items =>
    have reads := readItems?_renderItems opens each fuel rest (by omega)
    have opensItems : Opens (renderItems (first :: items) ++ rest) := by
      rw [renderItems, List.append_assoc]
      exact (opens first List.mem_cons_self).append _
    rw [opensItems.skipBlanks_eq]
    obtain ⟨c, others, starts, -, notEnd⟩ := opensItems
    rw [starts] at reads ⊢
    split
    · rename_i more same
      exact absurd (List.cons.inj same).1 notEnd
    · rw [reads]
      rfl

/-- What stands behind a member tells whether more members follow. -/
def readMembersBehind? (fuel : Nat) (member : Option String × Json) (behind : List Char) :
    Option (List (Option String × Json) × List Char) :=
  match skipBlanks behind with
  | '\x7d' :: rest => some ([member], rest)
  | ',' :: rest =>
    (readMembers? fuel (skipBlanks rest)).map fun (members, rest) => (member :: members, rest)
  | _ => none

/-- A member is read back before what stands behind it is looked at. -/
theorem readMembers?_member (key : Option String) {value : Json} (opens : Opens value.render)
    {fuel : Nat} {behind : List Char}
    (reads : readValue? fuel (value.render ++ behind) = some (value, behind)) :
    readMembers? (fuel + 1) (renderString key ++ ':' :: (value.render ++ behind)) =
      readMembersBehind? fuel (key, value) behind := by
  obtain ⟨inside, starts, readsKey⟩ :=
    readString?_renderString key (':' :: (value.render ++ behind))
  rw [starts, readMembers?, readsKey]
  simp only [skipBlanks_of_visible (c := ':') rfl, (opens.append _).skipBlanks_eq, reads]
  rfl

theorem exists_renderMembers_eq (first : Option String × Json)
    (members : List (Option String × Json)) :
    ∃ inside, renderMembers (first :: members) = '"' :: inside := by
  rw [renderMembers]
  cases first.1 <;> exact ⟨_, rfl⟩

/-- Members are read back up to the brace that closes them. -/
theorem readMembers?_renderMembers {first : Option String × Json}
    {members : List (Option String × Json)}
    (opens : ∀ member ∈ first :: members, Opens member.2.render)
    (each : ∀ member ∈ first :: members, ReadsBack member.2) (fuel : Nat) (rest : List Char)
    (enough : 2 * (renderMembers (first :: members)).length ≤ fuel) :
    readMembers? fuel (renderMembers (first :: members) ++ rest) =
      some (first :: members, rest) := by
  induction members generalizing first fuel with
  | nil =>
    rw [renderMembers, renderMoreMembers] at enough ⊢
    simp only [List.length_append, List.length_cons, List.length_nil] at enough
    obtain ⟨fuel, rfl⟩ : ∃ more, fuel = more + 1 := ⟨fuel - 1, by omega⟩
    have readsValue := each first List.mem_cons_self fuel ('\x7d' :: rest) (by omega)
      (endsNumber_cons rfl rest)
    rw [List.append_assoc, List.cons_append, List.append_assoc, List.singleton_append,
      readMembers?_member first.1 (opens first List.mem_cons_self) readsValue, readMembersBehind?,
      skipBlanks_of_visible rfl]
    rfl
  | cons second members inductionHypothesis =>
    have others : renderMoreMembers (second :: members) =
        ',' :: renderMembers (second :: members) := by
      rw [renderMoreMembers, renderMembers]
    rw [renderMembers, others] at enough ⊢
    simp only [List.length_append, List.length_cons] at enough
    obtain ⟨fuel, rfl⟩ : ∃ more, fuel = more + 1 := ⟨fuel - 1, by omega⟩
    have readsRest := inductionHypothesis
      (fun member inside => opens member (List.mem_cons_of_mem _ inside))
      (fun member inside => each member (List.mem_cons_of_mem _ inside)) fuel (by omega)
    have readsValue := each first List.mem_cons_self fuel
      (',' :: (renderMembers (second :: members) ++ rest)) (by omega) (endsNumber_cons rfl _)
    obtain ⟨inside, starts⟩ := exists_renderMembers_eq second members
    rw [List.append_assoc, List.cons_append, List.append_assoc, List.cons_append,
      readMembers?_member first.1 (opens first List.mem_cons_self) readsValue, readMembersBehind?,
      skipBlanks_of_visible rfl]
    rw [starts, List.cons_append] at readsRest ⊢
    simp only [skipBlanks_of_visible (c := '"') rfl, readsRest, Option.map_some]

theorem readsBack_object {members : List (Option String × Json)}
    (opens : ∀ member ∈ members, Opens member.2.render)
    (each : ∀ member ∈ members, ReadsBack member.2) : ReadsBack (.object members) := by
  intro fuel rest enough _
  rw [render, List.length_cons] at enough
  obtain ⟨fuel, rfl⟩ : ∃ more, fuel = more + 1 := ⟨fuel - 1, by omega⟩
  rw [render, List.cons_append, readValue?]
  cases members with
  | nil =>
    rw [renderMembers, List.singleton_append, skipBlanks_of_visible rfl]
    rfl
  | cons first members =>
    have reads := readMembers?_renderMembers opens each fuel rest (by omega)
    obtain ⟨inside, starts⟩ := exists_renderMembers_eq first members
    rw [starts, List.cons_append] at reads ⊢
    rw [skipBlanks_of_visible rfl]
    exact congrArg (Option.map _) reads

theorem Written.readsBack {document : Json} (written : Written document) :
    ReadsBack document := by
  induction written with
  | null =>
    intro fuel rest enough _
    rw [render] at enough ⊢
    obtain ⟨fuel, rfl⟩ : ∃ more, fuel = more + 1 := ⟨fuel - 1, by simp at enough; omega⟩
    rfl
  | bool value =>
    intro fuel rest enough _
    obtain ⟨fuel, rfl⟩ : ∃ more, fuel = more + 1 := ⟨fuel - 1, by
      cases value <;> simp [render] at enough <;> omega⟩
    cases value <;> (rw [render]; rfl)
  | number literal => exact readsBack_number literal
  | string text => exact readsBack_string text
  | array items each => exact readsBack_array (fun item inside => (items item inside).opens) each
  | object members each =>
    exact readsBack_object (fun member inside => (members member inside).opens) each

/-- A document is read from its text. -/
theorem parse?_text {document : Json} (written : Written document) :
    parse? document.text = some document := by
  have front : skipBlanks document.render = document.render := written.opens.skipBlanks_eq
  have reads := written.readsBack (2 * document.render.length + 2) [] (by omega) nofun
  rw [List.append_nil] at reads
  simp only [parse?, text, String.toList_ofList, front, reads]
  rfl

end JitTrace.Json
