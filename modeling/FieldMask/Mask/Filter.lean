import FieldMask.Json.Basic
import FieldMask.Mask.Basic
import FieldMask.Refusal

/-!
Filtering data by a mask. The mask works on the records of a value: an object is one record, an array
holds the records of its items, and anything else has none and is refused. The fields a mask names come
out in mask order. A field taken whole keeps its value; a nested mask filters the records of the value,
and passes over a value that is absent or null. With the wildcard, the members of the record that did not
come out yet follow in their own order.
-/

namespace FieldMask

/-! ### The records of a value -/

namespace Json

mutual

/-- Transforms every record of a value in place, stopping at the first refusal. -/
def mapRecords (transform : Fields Json → Except Refusal (Fields Json)) : Json → Except Refusal Json
  | .obj members => .obj <$> transform members
  | .arr items => .arr <$> mapItems transform items
  | _ => .error (.inconsistent none)

/-- Transforms the records of a list of items, in order. -/
def mapItems (transform : Fields Json → Except Refusal (Fields Json)) :
    List Json → Except Refusal (List Json)
  | [] => .ok []
  | item :: rest => do
    let first ← mapRecords transform item
    let others ← mapItems transform rest
    return first :: others

end
end Json

/-! ### Filtering -/

namespace Mask

/-- What comes out for a field the record lacks: nothing if such fields are skipped, else null. -/
def missing (skip : Bool) (name : String) : Fields Json := if skip then [] else [(name, .null)]

/-- What comes out for a field taken whole. -/
def whole (skip : Bool) (record : Fields Json) (name : String) : Fields Json :=
  match Fields.find? record name with
  | some value => [(name, value)]
  | none => missing skip name

/-- The members of a record that are not among the fields that came out. -/
def remaining (record output : Fields Json) : Fields Json :=
  record.filter fun member => !Fields.contains output member.1

end Mask

mutual

/-- Filters one record. -/
def Mask.filter : Mask → Fields Json → Except Refusal (Fields Json)
  | .mk skip entries, record => do
    let output ← Mask.filterEntries skip record entries
    return output ++ if Fields.contains entries wildcard then Mask.remaining record output else []

/-- The fields of a record that some entries name, in the order of the entries. -/
def Mask.filterEntries (skip : Bool) (record : Fields Json) :
    List (String × Entry) → Except Refusal (Fields Json)
  | [] => .ok []
  | (name, entry) :: rest => do
    let field ← if name = wildcard then .ok [] else entry.filter skip record name
    let output ← Mask.filterEntries skip record rest
    return field ++ output

/-- The field that an entry names: one member, or none if it is missing and skipped. -/
def Entry.filter : Entry → Bool → Fields Json → String → Except Refusal (Fields Json)
  | .selected, skip, record, name => .ok (Mask.whole skip record name)
  | .nested mask, skip, record, name =>
    match Fields.find? record name with
    | none | some .null => .ok (Mask.missing skip name)
    | some value => do
      let filtered ← atField name (value.mapRecords fun inner => mask.filter inner)
      return [(name, filtered)]

end

/-- Filters every record of a value. -/
def Mask.apply (mask : Mask) (data : Json) : Except Refusal Json := data.mapRecords mask.filter

end FieldMask
