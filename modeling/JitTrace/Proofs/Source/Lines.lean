import JitTrace.Proofs.Source.Registry
import JitTrace.Proofs.Text.Utf8
import Mathlib.Algebra.GroupWithZero.Nat
import Mathlib.Data.List.TakeWhile

/-!
# Lines of scripts

The lines of a text begin behind its line feeds, which no other character shares a byte
with. So the line of an offset is told by the line feeds in front of it, and its column by
the last of them. A script that gets another text forgets the lines of the one before.
-/

namespace JitTrace

/-! ## Lines by bytes -/

/-- A text has as many bytes as it says. -/
theorem Text.length_encodeUtf8 (text : String) : (encodeUtf8 text).length = text.utf8ByteSize := by
  rw [← String.size_toByteArray, ← String.ofList_toList (s := text), String.toByteArray_ofList,
    List.utf8Encode, List.size_toByteArray, encodeUtf8, String.toList_ofList]

/-- Where lines begin in bytes that begin at an offset: behind every line feed. -/
def byteStartsFrom (offset : Nat) : List UInt8 → List Nat
  | [] => []
  | byte :: bytes =>
    if byte = 10 then (offset + 1) :: byteStartsFrom (offset + 1) bytes
    else byteStartsFrom (offset + 1) bytes

theorem byteStartsFrom_append (offset : Nat) (front back : List UInt8) :
    byteStartsFrom offset (front ++ back) =
      byteStartsFrom offset front ++ byteStartsFrom (offset + front.length) back := by
  induction front generalizing offset with
  | nil => rfl
  | cons byte front inductionHypothesis =>
    simp only [List.cons_append, byteStartsFrom, inductionHypothesis, List.length_cons,
      Nat.add_assoc, Nat.add_comm 1]
    split <;> rfl

/-- Where there is no line feed, no line begins. -/
theorem byteStartsFrom_eq_nil (offset : Nat) {bytes : List UInt8} (none : 10 ∉ bytes) :
    byteStartsFrom offset bytes = [] := by
  induction bytes generalizing offset with
  | nil => rfl
  | cons byte bytes inductionHypothesis =>
    rw [List.mem_cons, not_or] at none
    rw [byteStartsFrom, if_neg (Ne.symm none.1), inductionHypothesis _ none.2]

theorem length_byteStartsFrom (offset : Nat) (bytes : List UInt8) :
    (byteStartsFrom offset bytes).length = bytes.count 10 := by
  induction bytes generalizing offset with
  | nil => rfl
  | cons byte bytes inductionHypothesis =>
    rw [byteStartsFrom]
    split
    · rename_i feed
      rw [feed, List.count_cons_self, List.length_cons, inductionHypothesis]
    · rename_i other
      rw [List.count_cons_of_ne other, inductionHypothesis]

/-- A line begins behind the offset it is looked for from. -/
theorem lt_of_mem_byteStartsFrom {offset start : Nat} {bytes : List UInt8}
    (begins : start ∈ byteStartsFrom offset bytes) : offset < start := by
  induction bytes generalizing offset with
  | nil => contradiction
  | cons byte bytes inductionHypothesis =>
    have onward (later : start ∈ byteStartsFrom (offset + 1) bytes) : offset < start :=
      Nat.lt_of_succ_lt (inductionHypothesis later)
    rw [byteStartsFrom] at begins
    split at begins
    · rcases List.mem_cons.mp begins with rfl | later
      · exact Nat.lt_succ_self offset
      · exact onward later
    · exact onward begins

theorem pairwise_byteStartsFrom (offset : Nat) (bytes : List UInt8) :
    (byteStartsFrom offset bytes).Pairwise (· < ·) := by
  induction bytes generalizing offset with
  | nil => exact .nil
  | cons byte bytes inductionHypothesis =>
    rw [byteStartsFrom]
    split
    · exact .cons (fun _ later => lt_of_mem_byteStartsFrom later) (inductionHypothesis _)
    · exact inductionHypothesis _

/-- The lines that have begun at an offset are those of the bytes in front of it. -/
theorem takeWhile_byteStartsFrom (offset before : Nat) (bytes : List UInt8) :
    (byteStartsFrom before bytes).takeWhile (· ≤ before + offset) =
      byteStartsFrom before (bytes.take offset) := by
  induction bytes generalizing before offset with
  | nil => cases offset <;> rfl
  | cons byte bytes inductionHypothesis =>
    cases offset with
    | zero =>
      rw [List.take_zero]
      refine List.takeWhile_eq_nil_iff.mpr fun nonempty => ?_
      have behind := lt_of_mem_byteStartsFrom (List.getElem_mem nonempty)
      simpa using behind
    | succ offset =>
      have onward := inductionHypothesis offset (before + 1)
      rw [Nat.add_right_comm, Nat.add_assoc before] at onward
      rw [List.take_succ_cons, byteStartsFrom, byteStartsFrom]
      split
      · rw [List.takeWhile_cons_of_pos (by simp), onward]
      · exact onward

/-- The lines of characters begin behind the line feeds among their bytes. -/
theorem lineStartsFrom_eq (offset : Nat) (cs : List Char) :
    lineStartsFrom offset cs = byteStartsFrom offset (cs.flatMap String.utf8EncodeChar) := by
  induction cs generalizing offset with
  | nil => rfl
  | cons c cs inductionHypothesis =>
    rw [List.flatMap_cons, byteStartsFrom_append, String.length_utf8EncodeChar, lineStartsFrom]
    split
    · rename_i feed
      obtain rfl : c = '\n' := by simpa using feed
      rw [inductionHypothesis]
      rfl
    · rename_i other
      have noFeed : (10 : UInt8) ∉ String.utf8EncodeChar c := by
        rw [show (10 : UInt8) = .ofNat '\n'.toNat from rfl,
          Text.ofNat_mem_utf8EncodeChar '\n' c (by decide)]
        simpa using other
      rw [byteStartsFrom_eq_nil offset noFeed, List.nil_append, inductionHypothesis]

theorem lineStarts_eq (text : String) :
    lineStarts text = 0 :: byteStartsFrom 0 (Text.encodeUtf8 text) :=
  congrArg (0 :: ·) (lineStartsFrom_eq 0 text.toList)

/-- The lines of a text begin one behind the other, so those that have begun at an offset
stand in front. -/
theorem pairwise_lineStarts (text : String) : (lineStarts text).Pairwise (· < ·) := by
  rw [lineStarts_eq]
  exact .cons (fun _ later => lt_of_mem_byteStartsFrom later) (pairwise_byteStartsFrom ..)

/-- The place of an offset by the bytes in front of it. -/
theorem LineColumn.of_lineStarts (text : String) (offset : Nat) :
    LineColumn.of (lineStarts text) offset =
      let front := (Text.encodeUtf8 text).take offset
      ⟨(1 + front.count 10) % 2 ^ 32,
        (offset - (byteStartsFrom 0 front).getLastD 0) % 2 ^ 32⟩ := by
  have begun := takeWhile_byteStartsFrom offset 0 (Text.encodeUtf8 text)
  rw [Nat.zero_add] at begun
  rw [LineColumn.of, lineStarts_eq, List.takeWhile_cons_of_pos (by simp), begun]
  simp only [List.length_cons, length_byteStartsFrom, Nat.add_comm 1, List.getLastD_cons,
    UInt32.size, Nat.reducePow]

/-! ## Lines of scripts -/

namespace Script

/-- The lines that a script will find are those of its text. -/
def Fresh (script : Script) : Prop :=
  ∀ text, script.text = some text → script.starts.get = lineStarts text

theorem fresh_setText (script : Script) (text : String) : (script.setText text).Fresh := by
  rintro _ ⟨⟩
  rfl

theorem fresh_new (id : UInt32) (url : String) : Fresh { id, url } := nofun

/-- The lines of a script do not depend on its url. -/
theorem Fresh.withUrl {script : Script} (fresh : script.Fresh) (url : String) :
    Fresh { script with url } := fresh

theorem Fresh.lineColumn? {script : Script} (fresh : script.Fresh) {text : String}
    (known : script.text = some text) (offset : UInt64) :
    script.lineColumn? offset =
      if text.utf8ByteSize < offset.toNat then none
      else some (.of (lineStarts text) offset.toNat) := by
  simp only [Script.lineColumn?, lineStarts?, known, fresh text known, Option.map_some]
  rfl

end Script

namespace ScriptRegistry

/-- A script that a call leaves behind is as it was, or its text or its url is new. -/
theorem get?_perform {registry : ScriptRegistry} {call : Call} {id : UInt32} {script : Script}
    (found : (registry.perform call).get? id = some script) :
    registry.get? id = some script ∨ (∃ before text, script = Script.setText before text) ∨
      ∃ before url, script = { before with url } ∧
        (registry.get? id = some before ∨ ∃ url, before = { id, url }) := by
  cases call with
  | addSource other url text =>
    rw [perform, get?_addSource] at found
    by_cases same : other = id
    · rw [if_pos same, Option.some.injEq] at found
      exact .inr (.inl ⟨_, text, found.symm⟩)
    · exact .inl ((if_neg same).symm.trans found)
  | addDetails other url =>
    rw [perform, get?_addDetails] at found
    by_cases same : other = id
    · subst same
      rw [if_pos rfl, Option.some.injEq] at found
      refine .inr (.inr ⟨_, _, found.symm, ?_⟩)
      cases registry.get? other with
      | none => exact .inr ⟨url, rfl⟩
      | some before => exact .inl rfl
    · exact .inl ((if_neg same).symm.trans found)
  | ensureSource other provider =>
    rw [perform] at found
    rcases ({ registry with provider }.ensureSource_cases other) with
      ⟨same, -⟩ | ⟨asked, askedFor, -, ⟨-, ensured⟩ | ⟨-, ensured⟩⟩
    · exact .inl (by rwa [same] at found)
    · exact .inl (by rwa [ensured] at found)
    · rw [ensured] at found
      rcases get?_ask askedFor id with same | ⟨-, text, replaced⟩
      · exact .inl (same.symm.trans found)
      · exact .inr (.inl ⟨asked, text, Option.some.inj (found.symm.trans replaced)⟩)

/-- No script of a registry ever knows the lines of another text. -/
theorem fresh_run (calls : List Call) {id : UInt32} {script : Script}
    (found : (run calls).get? id = some script) : script.Fresh := by
  induction calls using List.reverseRecOn generalizing script with
  | nil => simp [run, get?] at found
  | append_singleton calls call inductionHypothesis =>
    rw [run_concat] at found
    rcases get?_perform found with before | ⟨before, text, rfl⟩ | ⟨before, url, rfl, known | new⟩
    · exact inductionHypothesis before
    · exact before.fresh_setText text
    · exact (inductionHypothesis known).withUrl url
    · obtain ⟨_, rfl⟩ := new
      exact (Script.fresh_new id _).withUrl url

/-- The line of an offset is one more than the line feeds in front of it, and its column the
bytes behind the last of them. Both are numbers of 32 bits. The line behind as many line feeds
as a text of such a length can hold is too large for that, and it is told as zero. -/
theorem lineColumn_of_bytes (calls : List Call) (id : UInt32) (script : Script)
    (found : (run calls).get? id = some script) :
    (script.text = none → ∀ offset, script.lineColumn? offset = none) ∧
    (∀ text, script.text = some text → text.utf8ByteSize < 2 ^ 32 → ∀ offset : UInt64,
      let front := (Text.encodeUtf8 text).take offset.toNat
      (script.lineColumn? offset = none ↔ text.utf8ByteSize < offset.toNat) ∧
      (offset.toNat ≤ text.utf8ByteSize → ∃ place, script.lineColumn? offset = some place ∧
        (front.count 10 < 2 ^ 32 - 1 → place.line = 1 + front.count 10) ∧
        (front.count 10 = 2 ^ 32 - 1 → place.line = 0) ∧
        (10 ∉ front → place.column = offset.toNat) ∧
        ∀ before line, front = before ++ 10 :: line → 10 ∉ line →
          place.column = offset.toNat - (before.length + 1))) ∧
    ∀ url text, ∃ replaced, (run (calls ++ [.addSource id url text])).get? id = some replaced ∧
      replaced.text = some text := by
  refine ⟨?_, ?_, ?_⟩
  · intro unknown offset
    simp [Script.lineColumn?, unknown]
  · intro text known small offset front
    rw [(fresh_run calls found).lineColumn? known]
    refine ⟨by simp, fun inside => ?_⟩
    have fits : offset.toNat - (byteStartsFrom 0 front).getLastD 0 < 2 ^ 32 := by omega
    rw [if_neg (Nat.not_lt.mpr inside), LineColumn.of_lineStarts]
    refine ⟨_, rfl, ?_, ?_, ?_, ?_⟩
    · intro few
      have fits : 1 + front.count 10 < 2 ^ 32 := by omega
      exact Nat.mod_eq_of_lt fits
    · intro most
      change (1 + front.count 10) % 2 ^ 32 = 0
      omega
    · intro noFeed
      dsimp only
      rw [Nat.mod_eq_of_lt fits, byteStartsFrom_eq_nil 0 noFeed]
      rfl
    · intro before line parts noFeed
      dsimp only
      rw [Nat.mod_eq_of_lt fits, parts, byteStartsFrom_append]
      simp [byteStartsFrom, byteStartsFrom_eq_nil _ noFeed]
  · intro url text
    rw [run_concat, perform, get?_addSource, if_pos rfl]
    exact ⟨_, rfl, rfl⟩

/-- A text that was replaced does not count. -/
theorem lineColumn_of_bytes_replaced :
    let calls : List Call :=
      [.addSource 1 "a.js" "an\nolder\ntext\n", .addSource 1 "" "ab\ncé\n\nx"]
    let text := "ab\ncé\n\nx"
    ∃ script, (run calls).get? 1 = some script ∧ script.text = some text ∧
      text.utf8ByteSize < 2 ^ 32 ∧ (8 : UInt64).toNat ≤ text.utf8ByteSize ∧
      ∃ place, script.lineColumn? 8 = some place ∧ place.line = 4 ∧ place.column = 0 := by
  intro calls text
  have small : text.utf8ByteSize < 2 ^ 32 := by decide
  have inside : (8 : UInt64).toNat ≤ text.utf8ByteSize := by decide
  obtain ⟨place, located, line, -, -, column⟩ :=
    ((lineColumn_of_bytes calls 1 _ rfl).2.1 text rfl small 8).2 inside
  have feeds : ((Text.encodeUtf8 text).take (8 : UInt64).toNat).count 10 = 3 := by decide
  rw [feeds] at line
  refine ⟨_, rfl, rfl, small, inside, place, located, line (by decide), ?_⟩
  exact column (Text.encodeUtf8 "ab\ncé\n") [] (by decide) (by simp)

/-- A text of line feeds. -/
def lineFeeds (count : Nat) : String :=
  String.ofList (List.replicate count '\n')

theorem encodeUtf8_lineFeeds (count : Nat) :
    Text.encodeUtf8 (lineFeeds count) = List.replicate count 10 := by
  rw [Text.encodeUtf8, lineFeeds, String.toList_ofList, List.flatMap_replicate,
    show String.utf8EncodeChar '\n' = [10] from rfl, List.flatten_replicate_singleton]

/-- Line feeds alone can be as many as the bytes of a text, and the line behind all of them is
told as zero. -/
theorem line_eq_zero_of_lineFeeds :
    let text := lineFeeds (2 ^ 32 - 1)
    let offset : UInt64 := 0xffffffff
    text.utf8ByteSize < 2 ^ 32 ∧ offset.toNat ≤ text.utf8ByteSize ∧
      ∃ script, (run [.addSource 1 "a.js" text]).get? 1 = some script ∧ script.text = some text ∧
        ∃ place, script.lineColumn? offset = some place ∧ place.line = 0 ∧
          place.line ≠ 1 + ((Text.encodeUtf8 text).take offset.toNat).count 10 := by
  intro text offset
  have bytes : Text.encodeUtf8 text = List.replicate (2 ^ 32 - 1) 10 := encodeUtf8_lineFeeds _
  have size : text.utf8ByteSize = 2 ^ 32 - 1 := by
    rw [← Text.length_encodeUtf8, bytes, List.length_replicate]
  have atEnd : offset.toNat = 2 ^ 32 - 1 := rfl
  have found : (run [.addSource 1 "a.js" text]).get? 1 =
      some (Script.setText { id := 1, url := "a.js" } text) := rfl
  have feeds : ((Text.encodeUtf8 text).take offset.toNat).count 10 = 2 ^ 32 - 1 := by
    rw [bytes, atEnd, List.take_replicate, Nat.min_self, List.count_replicate_self]
  have line : (1 + ((Text.encodeUtf8 text).take offset.toNat).count 10) % 2 ^ 32 = 0 := by
    omega
  have located := (fresh_run _ found).lineColumn? rfl offset
  rw [size, if_neg (by omega), LineColumn.of_lineStarts] at located
  refine ⟨by omega, by omega, _, found, rfl, _, located, line, fun same => ?_⟩
  exact absurd (line.symm.trans same) (by omega)

end ScriptRegistry

end JitTrace
