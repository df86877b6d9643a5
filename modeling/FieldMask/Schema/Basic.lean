import FieldMask.Json.Basic
import FieldMask.Mask.Basic

/-!
Schemas: which fields of a record are dumped, in order, and how. A field is dumped as it is, as a raw
value with a fallback and a mask of its own, through another schema, or through one of several schemas
picked by the text under a discriminator. Two schemas are the same (`Schema.same`) if they agree but for
the order of fields, of variants and of the members of fallbacks; the masks of raw fields keep their order.
-/

namespace FieldMask

mutual

/-- A named list of the fields that are dumped. -/
inductive Schema where
  | mk (name : String) (fields : List (String × Field))

/-- How one field of a record is dumped. -/
inductive Field where
  /-- As it is, read under `source` if given. -/
  | plain (source : Option String)
  /-- As it is, or else as the fallback, and then through the mask if there is one. -/
  | raw (fallback : Option Json) (source : Option String) (mask : Option Mask)
  /-- Through another schema, as one record or as a list of them. -/
  | related (schema : Schema) (many : Bool)
  /-- Through the schema named by the text under the discriminator. -/
  | variant (discriminator : String) (schemas : List (String × Schema))

end

namespace Schema

/-- The name of the schema. -/
def name : Schema → String
  | .mk name _ => name

/-- The fields, in order. -/
def fields : Schema → Fields Field
  | .mk _ fields => fields

/-- The schema without fields. -/
def empty (name : String) : Schema := .mk name []

instance : Inhabited Schema := ⟨empty ""⟩

/-- Sets a field: in place if the schema has it, else at the end. -/
def insert (schema : Schema) (name : String) (field : Field) : Schema :=
  .mk schema.name (Fields.insert schema.fields name field)

/-- The schema with other fields under the same name. -/
def withFields (schema : Schema) (fields : Fields Field) : Schema := .mk schema.name fields

/-- The field with the given name. -/
def find? (schema : Schema) (name : String) : Option Field := Fields.find? schema.fields name

/-- The names of the fields, in order. -/
def names (schema : Schema) : List String := Fields.names schema.fields

/-- The number of fields. -/
def size (schema : Schema) : Nat := schema.fields.length

/-- Whether the schema has no field. -/
def isEmpty (schema : Schema) : Bool := schema.fields.isEmpty

end Schema

namespace Field

instance : Inhabited Field := ⟨.plain none⟩

/-- The name under which the field is read from a record. -/
def source (field : Field) (name : String) : String :=
  match field with
  | .plain source | .raw _ source _ => source.getD name
  | _ => name

/-- Reads the field under another name; only plain and raw fields read from the record themselves. -/
def withSource (field : Field) (source : String) : Field :=
  match field with
  | .plain _ => .plain (some source)
  | .raw fallback _ mask => .raw fallback (some source) mask
  | other => other

/-- Gives the field a fallback; only raw fields have one. -/
def withFallback (field : Field) (fallback : Json) : Field :=
  match field with
  | .raw _ source mask => .raw (some fallback) source mask
  | other => other

end Field

mutual

/-- Whether two schemas are the same but for order. -/
def Schema.same : Schema → Schema → Bool
  | .mk m as, .mk n bs => m == n && as.length == bs.length && Schema.sameFields as bs
termination_by structural a => a

/-- Whether every field of the first list is a field of the second. -/
def Schema.sameFields : List (String × Field) → List (String × Field) → Bool
  | [], _ => true
  | (name, a) :: as, bs =>
    (match Fields.find? bs name with
      | some b => a.same b
      | none => false) && Schema.sameFields as bs
termination_by structural as => as

/-- Whether two fields are the same but for order. -/
def Field.same : Field → Field → Bool
  | .plain s, .plain t => s == t
  | .raw f s m, .raw g t n =>
    (match f, g with
      | some f, some g => f.same g
      | none, none => true
      | _, _ => false) && s == t && m == n
  | .related a s, .related b t => a.same b && s == t
  | .variant d as, .variant e bs => d == e && as.length == bs.length && Field.sameVariants as bs
  | _, _ => false
termination_by structural a => a

/-- Whether every variant of the first list is a variant of the second. -/
def Field.sameVariants : List (String × Schema) → List (String × Schema) → Bool
  | [], _ => true
  | (name, a) :: as, bs =>
    (match Fields.find? bs name with
      | some b => a.same b
      | none => false) && Field.sameVariants as bs
termination_by structural as => as

end
end FieldMask
