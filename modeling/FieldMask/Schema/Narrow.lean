import FieldMask.Refusal
import FieldMask.Schema.Basic

/-!
Narrowing a schema by a mask, before anything is dumped. The fields that both name remain, in mask order.
A nested mask narrows the schemas a field leads to; a raw field keeps it for the time of the dump, in
place of one it has; a plain field has nothing to narrow and stays. The wildcard is a name like any other.
-/

namespace FieldMask

/-- Changes the schemas that a field leads to. -/
def Field.mapSchemas (change : Schema → Schema) : Field → Field
  | .related schema many => .related (change schema) many
  | .variant discriminator schemas =>
    .variant discriminator (schemas.map fun (name, schema) => (name, change schema))
  | field => field

mutual

/-- Keeps the fields of a schema that the mask names. -/
def Mask.narrow : Mask → Schema → Schema
  | .mk _ entries, schema => schema.withFields (Mask.narrowFields entries schema.fields)

/-- Keeps the fields that some entries name, in the order of the entries. -/
def Mask.narrowFields : List (String × Entry) → Fields Field → Fields Field
  | [], _ => []
  | (name, entry) :: rest, fields =>
    match Fields.find? fields name with
    | some field => (name, entry.narrow field) :: Mask.narrowFields rest fields
    | none => Mask.narrowFields rest fields

/-- Narrows a field as an entry says. -/
def Entry.narrow : Entry → Field → Field
  | .nested mask, .raw fallback source _ => .raw fallback source (some mask)
  | .nested mask, field => field.mapSchemas fun schema => mask.narrow schema
  | .selected, field => field

end

namespace Field

/-- Narrows the schemas that a field leads to; plain and raw fields stay. -/
def narrowSchemas (field : Field) (mask : Mask) : Field := field.mapSchemas mask.narrow

/-- Puts a mask on a field: the schemas that it leads to are narrowed, a raw field keeps the mask, and a plain field
    cannot bear one. -/
def applyMask (field : Field) (mask : Mask) : Except Refusal Field :=
  match field with
  | .related _ _ | .variant _ _ => .ok (field.narrowSchemas mask)
  | .raw fallback source _ => .ok (.raw fallback source (some mask))
  | .plain _ => .error (.inconsistent none)

end Field
end FieldMask
