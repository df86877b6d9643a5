import FieldMask.Mask.Filter
import FieldMask.Schema.Narrow

/-!
Everything a mask can be put on: data, which is filtered, and fields of schemas, which are narrowed, in
lists of any depth.
-/

namespace FieldMask

/-- Something that a mask can be put on. -/
inductive Target where
  /-- A list, each item on its own. -/
  | list (items : List Target)
  /-- A field of a schema. -/
  | field (field : Field)
  /-- A value as it was serialized. -/
  | json (value : Json)
  /-- The members of an object. -/
  | record (members : Fields Json)
deriving Inhabited

namespace Target

mutual

/-- The target that a value makes: arrays become lists and objects records. -/
def ofJson : Json → Target
  | .arr items => .list (ofItems items)
  | .obj members => .record members
  | value => .json value

/-- The targets that the items of an array make. -/
def ofItems : List Json → List Target
  | [] => []
  | item :: rest => ofJson item :: ofItems rest

end

mutual

/-- The value of a target; one with a field inside has none. -/
def toJson? : Target → Option Json
  | .list items => .arr <$> itemsToJson? items
  | .field _ => none
  | .json value => some value
  | .record members => some (.obj members)

/-- The values of the items of a list, if all have one. -/
def itemsToJson? : List Target → Option (List Json)
  | [] => some []
  | item :: rest => do
    let first ← item.toJson?
    let others ← itemsToJson? rest
    return first :: others

end

end Target

mutual

/-- Filters a value into a target: arrays come out as lists and objects as records. -/
def Mask.applyValue (mask : Mask) : Json → Except Refusal Target
  | .obj members => .record <$> mask.filter members
  | .arr items => .list <$> Mask.applyItems mask items
  | _ => .error (.inconsistent none)

/-- Filters the items of an array into targets, in order. -/
def Mask.applyItems (mask : Mask) : List Json → Except Refusal (List Target)
  | [] => .ok []
  | item :: rest => do
    let first ← mask.applyValue item
    let others ← Mask.applyItems mask rest
    return first :: others

end

mutual

/-- Puts a mask on a target: data is filtered and fields are narrowed. -/
def Mask.applyTarget (mask : Mask) : Target → Except Refusal Target
  | .list items => .list <$> Mask.applyTargets mask items
  | .field field => .field <$> field.applyMask mask
  | .json value => mask.applyValue value
  | .record members => .record <$> mask.filter members

/-- Puts a mask on each of some targets, in order. -/
def Mask.applyTargets (mask : Mask) : List Target → Except Refusal (List Target)
  | [] => .ok []
  | target :: rest => do
    let first ← mask.applyTarget target
    let others ← Mask.applyTargets mask rest
    return first :: others

end
end FieldMask
