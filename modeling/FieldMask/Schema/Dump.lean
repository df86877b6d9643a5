import FieldMask.Mask.Filter
import FieldMask.Schema.Basic

/-!
Dumping a record through a schema: an object with the fields of the schema, in schema order. A value that
is null counts as absent. The innermost field on the way to a value that does not fit takes the blame.
-/

namespace FieldMask

/-- The value under a name, where null counts as absent. -/
def Fields.present? (record : Fields Json) (name : String) : Option Json :=
  (Fields.find? record name).filter fun value => !value.isNull

/-- Dumps a raw value: the value, or else the fallback, or else null, and all but null through the mask. -/
def dumpRaw (fallback : Option Json) (mask : Option Mask) (value : Option Json) : Except Refusal Json :=
  let value := (value.or fallback).getD .null
  match mask with
  | some mask => if value.isNull then .ok value else mask.apply value
  | none => .ok value

/-- Dumps a list of records, stopping at the first refusal. -/
def dumpItems (dump : Json → Except Refusal Json) : List Json → Except Refusal (List Json)
  | [] => .ok []
  | item :: rest => do
    let first ← dump item
    let others ← dumpItems dump rest
    return first :: others

mutual

/-- Dumps a record. -/
def Schema.dump : Schema → Json → Except Refusal Json
  | .mk _ fields, .obj record => .obj <$> Schema.dumpFields record fields
  | _, _ => .error (.inconsistent none)

/-- Dumps some fields of a record, in order. -/
def Schema.dumpFields (record : Fields Json) : List (String × Field) → Except Refusal (Fields Json)
  | [] => .ok []
  | (name, field) :: rest => do
    let value ← atField name (field.dump (Fields.present? record (field.source name)))
    let others ← Schema.dumpFields record rest
    return (name, value) :: others

/-- Dumps the value of one field, if it is present. -/
def Field.dump : Field → Option Json → Except Refusal Json
  | .plain _, value => .ok (value.getD .null)
  | .raw fallback _ mask, value => dumpRaw fallback mask value
  | .related _ _, none => .ok .null
  | .related schema false, some value => schema.dump value
  | .related schema true, some (.arr items) => .arr <$> dumpItems (fun item => schema.dump item) items
  | .related _ true, some _ => .error (.inconsistent none)
  | .variant _ _, none => .ok .null
  | .variant discriminator schemas, some value =>
    match (value.member? discriminator).bind Json.text? with
    | some kind => Field.dumpVariant kind value schemas
    | none => .error (.inconsistent none)

/-- Dumps a record through the variant of the given name. -/
def Field.dumpVariant (kind : String) (value : Json) : List (String × Schema) → Except Refusal Json
  | [] => .error (.inconsistent none)
  | (name, schema) :: rest => if name = kind then schema.dump value else Field.dumpVariant kind value rest

end

namespace Schema

/-- Dumps a list of records. -/
def dumpMany (schema : Schema) (records : List Json) : Except Refusal Json :=
  .arr <$> dumpItems schema.dump records

/-- Dumps a record, or each record of an array. -/
def dumpAll (schema : Schema) (data : Json) : Except Refusal Json :=
  match data with
  | .arr records => schema.dumpMany records
  | record => schema.dump record

end Schema
end FieldMask
