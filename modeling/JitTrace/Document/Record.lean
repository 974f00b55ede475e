import JitTrace.Document.Basic

/-!
# Documents of record fields

The document of a field value, tagged with its kind.
-/

namespace JitTrace.Document

mutual

/-- A value of a field. -/
def fieldValue : FieldValue → Json
  | .int value => Json.ofMembers [("int", int value)]
  | .address value => Json.ofMembers [("address", address value)]
  | .text value => Json.ofMembers [("str", text value)]
  | .list items => Json.ofMembers [("list", .array (fieldValues items))]
  | .cancellation cancelled => Json.ofMembers [("cancelled", .bool cancelled)]
  | .absent => text "absent"

/-- The values of a tail. -/
def fieldValues : List FieldValue → List Json
  | [] => []
  | item :: items => fieldValue item :: fieldValues items

end

end JitTrace.Document
