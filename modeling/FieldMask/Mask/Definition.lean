import FieldMask.Json.Basic
import FieldMask.Mask.Basic
import FieldMask.Mask.Text

/-!
Masks built by hand or from a JSON definition. Both check that a mask text could spell each name, so the
text of a mask always reads back. A definition is an object whose members are `true` for a field taken
whole or an object for a nested mask; the parts of a nested object are checked before its own name.
-/

namespace FieldMask.Mask

/-- Sets a field whose name a mask text can spell. -/
def add (mask : Mask) (name : String) (entry : Entry) : Except Refusal Mask :=
  if isFieldName name then .ok (mask.insert name entry) else .error (.invalidName name)

/-- Takes a field whole. -/
def select (mask : Mask) (name : String) : Except Refusal Mask := mask.add name .selected

/-- Takes a field through a mask of its own. -/
def nest (mask : Mask) (name : String) (inner : Mask) : Except Refusal Mask := mask.add name (.nested inner)

mutual

/-- Reads a mask from its JSON definition, all groups with the given policy. -/
def ofJson (skip : Bool) : Json → Except Refusal Mask
  | .obj members => addMembers skip (.empty skip) members
  | _ => .error .invalidDefinition

/-- Adds the members of a definition to a mask, in order. -/
def addMembers (skip : Bool) (mask : Mask) : List (String × Json) → Except Refusal Mask
  | [] => .ok mask
  | (name, value) :: rest => do
    let entry ← memberEntry skip name value
    let mask ← mask.add name entry
    addMembers skip mask rest

/-- What the member of a definition says about the field of its name. -/
def memberEntry (skip : Bool) (name : String) : Json → Except Refusal Entry
  | .bool true => .ok .selected
  | .obj members => do
    let inner ← addMembers skip (.empty skip) members
    return .nested inner
  | _ => .error (.invalidValue name)

end
end FieldMask.Mask
