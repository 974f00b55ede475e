import JitTrace.CpuProfile.Basic
import JitTrace.Proofs.Json.Documents
import JitTrace.Proofs.Json.Records

/-!
# Reading CPU profile documents back

Whatever a document holds, its text is read as that document. A list that is left out because
it is empty is read as the empty list, and a reason that is left out as none; a reason that is
there is written even when it is the empty text.
-/

namespace JitTrace

open Json (Written optionalMember names_optionalMember nonemptyList optional?_nonemptyList)

namespace Json

theorem Written.ofMembers {members : List (String × Json)}
    (each : ∀ member ∈ members, Written member.2) : Written (ofMembers members) := by
  refine .object fun member inside => ?_
  obtain ⟨known, isMember, rfl⟩ := List.mem_map.mp inside
  exact each known isMember

theorem Written.list {Value : Type} {write : Value → Json} (each : ∀ value, Written (write value))
    (values : List Value) : Written (.array (values.map write)) := by
  refine .array fun item inside => ?_
  obtain ⟨value, -, rfl⟩ := List.mem_map.mp inside
  exact each value

theorem Written.nonemptyList {Value : Type} {write : Value → Json}
    (each : ∀ value, Written (write value)) (values : List Value) :
    ∀ document ∈ nonemptyList write values, Written document := by
  intro document isList
  rw [Json.nonemptyList] at isList
  split at isList
  · contradiction
  · exact Option.some.inj isList ▸ .list each values

theorem Written.optionalMember {value : Option Json} (each : ∀ document ∈ value, Written document)
    (name : String) : ∀ member ∈ optionalMember name value, Written member.2 := by
  intro member inside
  obtain ⟨document, isValue, rfl⟩ := Option.map_eq_some_iff.mp (Option.mem_toList.mp inside)
  exact each document isValue

theorem written_ofNat (value : Nat) : Written (ofNat value) :=
  .number (JsonNumber.written_ofNat value)

theorem written_ofInt (value : Int) : Written (ofInt value) :=
  .number (JsonNumber.written_ofInt value)

@[simp] theorem readWord32?_ofNat (word : UInt32) :
    readWord32? (ofNat word.toNat) = some word := by
  have reads := JsonNumber.natBelow?_ofNat word.toNat_lt_size
  exact (congrArg (Option.map UInt32.ofNat) reads).trans (congrArg some word.ofNat_toNat)

@[simp] theorem readWord64?_ofNat (word : UInt64) :
    readWord64? (ofNat word.toNat) = some word := by
  have reads := JsonNumber.natBelow?_ofNat word.toNat_lt_size
  exact (congrArg (Option.map UInt64.ofNat) reads).trans (congrArg some word.ofNat_toNat)

@[simp] theorem readInt64?_ofInt (value : Int64) :
    readInt64? (ofInt value.toInt) = some value :=
  JsonNumber.int64?_ofInt value

@[simp] theorem readText?_ofString (text : String) : readText? (ofString text) = some text :=
  rfl

end Json

/-! ## Locations and lines -/

theorem CallFrame.written_toJson (frame : CallFrame) : Written frame.toJson := by
  refine .ofMembers fun member inside => ?_
  simp only [List.mem_cons, List.not_mem_nil, or_false] at inside
  rcases inside with rfl | rfl | rfl | rfl | rfl
  · exact .string _
  · exact .string _
  · exact .string _
  · exact Json.written_ofInt _
  · exact Json.written_ofInt _

theorem CallFrame.ofJson?_toJson (frame : CallFrame) : ofJson? frame.toJson = some frame := by
  rw [ofJson?, toJson, Json.fields?_ofMembers (by simp)]
  simp [Json.required?, List.lookup_cons]

theorem PositionTick.written_toJson (tick : PositionTick) : Written tick.toJson := by
  refine .ofMembers fun member inside => ?_
  simp only [List.mem_cons, List.not_mem_nil, or_false] at inside
  rcases inside with rfl | rfl <;> exact Json.written_ofNat _

theorem PositionTick.ofJson?_toJson (tick : PositionTick) : ofJson? tick.toJson = some tick := by
  rw [ofJson?, toJson, Json.fields?_ofMembers (by simp)]
  simp [Json.required?, List.lookup_cons]

/-! ## Nodes -/

namespace CpuProfileNode

variable (node : CpuProfileNode)

/-- The members of a node. -/
def members : List (String × Json) :=
  [("id", .ofNat node.id.toNat), ("callFrame", node.callFrame.toJson),
      ("hitCount", .ofNat node.hitCount.toNat)] ++
    optionalMember "children" (nonemptyList (fun id => .ofNat id.toNat) node.children) ++
    optionalMember "deoptReason" (node.deoptReason.map .ofString) ++
    optionalMember "positionTicks" (nonemptyList PositionTick.toJson node.positionTicks)

theorem toJson_eq : node.toJson = .ofMembers node.members := by
  have children : (if node.children.isEmpty then []
      else [("children", Json.array (node.children.map fun id => .ofNat id.toNat))]) =
        optionalMember "children" (nonemptyList (fun id => .ofNat id.toNat) node.children) := by
    rw [nonemptyList]
    split <;> rfl
  have positionTicks : (if node.positionTicks.isEmpty then []
      else [("positionTicks", Json.array (node.positionTicks.map PositionTick.toJson))]) =
        optionalMember "positionTicks" (nonemptyList PositionTick.toJson node.positionTicks) := by
    rw [nonemptyList]
    split <;> rfl
  rw [members, ← children, ← positionTicks, toJson]
  cases node.deoptReason <;> rfl

/-- Every member of a node is written under a name of its own. -/
theorem distinct_members : (node.members.map Prod.fst).Nodup := by
  have names : (node.members.map Prod.fst).Sublist
      (["id", "callFrame", "hitCount"] ++ ["children"] ++ ["deoptReason"] ++
        ["positionTicks"]) := by
    simp only [members, List.map_append]
    exact (((List.Sublist.refl _).append (names_optionalMember ..)).append
      (names_optionalMember ..)).append (names_optionalMember ..)
  exact names.nodup (by decide)

theorem written_toJson : Written node.toJson := by
  rw [toJson_eq]
  refine .ofMembers fun member inside => ?_
  rw [members, List.mem_append, List.mem_append, List.mem_append] at inside
  rcases inside with ((required | inside) | inside) | inside
  · simp only [List.mem_cons, List.not_mem_nil, or_false] at required
    rcases required with rfl | rfl | rfl
    · exact Json.written_ofNat _
    · exact node.callFrame.written_toJson
    · exact Json.written_ofNat _
  · exact .optionalMember (.nonemptyList (fun _ => Json.written_ofNat _) _) _ member inside
  · refine .optionalMember (fun document isReason => ?_) _ member inside
    obtain ⟨reason, -, rfl⟩ := Option.map_eq_some_iff.mp isReason
    exact .string _
  · exact .optionalMember (.nonemptyList PositionTick.written_toJson _) _ member inside

theorem ofJson?_toJson : ofJson? node.toJson = some node := by
  rw [ofJson?, toJson_eq, Json.fields?_ofMembers node.distinct_members]
  have children : Json.optional? [] (Json.readList? Json.readWord32?)
      (nonemptyList (fun id : UInt32 => .ofNat id.toNat) node.children) = some node.children :=
    optional?_nonemptyList fun id _ => Json.readWord32?_ofNat id
  have deoptReason : Json.optional? none (Json.nullable? Json.readText?)
      (node.deoptReason.map .ofString) = some node.deoptReason := by
    cases node.deoptReason <;> rfl
  have positionTicks : Json.optional? [] (Json.readList? PositionTick.ofJson?)
      (nonemptyList PositionTick.toJson node.positionTicks) = some node.positionTicks :=
    optional?_nonemptyList fun tick _ => tick.ofJson?_toJson
  simp [members, List.lookup_append, List.lookup_cons, Json.required?, children, deoptReason,
    positionTicks, CallFrame.ofJson?_toJson]

end CpuProfileNode

/-! ## Documents -/

namespace CpuProfile

variable (profile : CpuProfile)

theorem written_toJson : Written profile.toJson := by
  refine .ofMembers fun member inside => ?_
  simp only [List.mem_cons, List.not_mem_nil, or_false] at inside
  rcases inside with rfl | rfl | rfl | rfl | rfl
  · exact .list CpuProfileNode.written_toJson _
  · exact Json.written_ofNat _
  · exact Json.written_ofNat _
  · exact .list (fun _ => Json.written_ofNat _) _
  · exact .list (fun _ => Json.written_ofInt _) _

theorem ofJson?_toJson : ofJson? profile.toJson = some profile := by
  have nodes : Json.readList? CpuProfileNode.ofJson?
      (.array (profile.nodes.map CpuProfileNode.toJson)) = some profile.nodes :=
    Json.readList?_map fun node _ => node.ofJson?_toJson
  have samples : Json.readList? Json.readWord32?
      (.array (profile.samples.map fun id => .ofNat id.toNat)) = some profile.samples :=
    Json.readList?_map fun id _ => Json.readWord32?_ofNat id
  have timeDeltas : Json.readList? Json.readInt64?
      (.array (profile.timeDeltas.map fun delta => .ofInt delta.toInt)) =
        some profile.timeDeltas :=
    Json.readList?_map fun delta _ => Json.readInt64?_ofInt delta
  rw [ofJson?, toJson, Json.fields?_ofMembers (by simp)]
  simp [Json.required?, List.lookup_cons, nodes, samples, timeDeltas]

/-- The text of a document is read as the document. -/
theorem parse_text : parse profile.text = .ok profile := by
  rw [parse, text, Json.parse?_text profile.written_toJson, Option.bind_some, ofJson?_toJson]

/-- A text as it is written again after it has been read. -/
def rewritten (text : String) : Except Fault String :=
  (parse text).map CpuProfile.text

/-- Reading undoes writing, for every document. So a text that has been read and written once
is written in the same way ever after. -/
theorem reading_undoes_writing : parse profile.text = .ok profile ∧
    ∀ text : String, (rewritten text).bind rewritten = rewritten text := by
  refine ⟨profile.parse_text, fun text => ?_⟩
  cases found : parse text with
  | error fault =>
    rw [rewritten, found]
    rfl
  | ok document =>
    have once : rewritten text = .ok document.text := by
      rw [rewritten, found]
      rfl
    rw [once, Except.bind, rewritten, parse_text]
    rfl

end CpuProfile

end JitTrace
