import FieldMask.Proofs.Narrowing

/-! What narrowing leaves alone. A narrowed schema has the name of the schema and those of its fields that the mask names
    too (`Schema.Narrows`). A field taken whole is not touched at any depth. A field with a nested mask is what it is
    when the mask is put on it alone, or itself if it cannot bear one; it stays of its kind and is read under the same
    name, and all that changes in it is the mask of a raw field, or the schemas that it leads to, in the same way. -/

namespace FieldMask

mutual

/-- `Schema.Narrows mask schema kept`: the schema that is kept has the name of the schema and the fields that the mask
    and the schema both name, in the order of the mask, each as its entry leaves it. -/
inductive Schema.Narrows : Mask → Schema → Schema → Prop
  | mk {mask : Mask} {schema kept : Schema} : kept.name = schema.name →
      kept.names = mask.names.filter (fun name => name ∈ schema.names) →
      (∀ name entry field left, mask.find? name = some entry → schema.find? name = some field →
        kept.find? name = some left → Entry.Leaves entry field left) →
      Schema.Narrows mask schema kept

/-- `Entry.Leaves entry field left`: a field taken whole is left as it is, and so is a field that the nested mask cannot
    be put on; else the field is left as the mask makes it. -/
inductive Entry.Leaves : Entry → Field → Field → Prop
  | selected (field : Field) : Entry.Leaves .selected field field
  | refused {inner : Mask} {field : Field} {refusal : Refusal} : field.applyMask inner = .error refusal →
      Entry.Leaves (.nested inner) field field
  | applied {inner : Mask} {field left : Field} : field.applyMask inner = .ok left → Field.Bears inner field left →
      Entry.Leaves (.nested inner) field left

/-- `Field.Bears inner field left`: the field with the mask on it differs from the field in the mask, if it is raw, and
    else in the schemas that it leads to. Its variants are the same, in the same order. -/
inductive Field.Bears : Mask → Field → Field → Prop
  | raw (inner : Mask) (fallback : Option Json) (source : Option String) (mask : Option Mask) :
      Field.Bears inner (.raw fallback source mask) (.raw fallback source (some inner))
  | related {inner : Mask} {next kept : Schema} (many : Bool) : Schema.Narrows inner next kept →
      Field.Bears inner (.related next many) (.related kept many)
  | variant {inner : Mask} {schemas left : Fields Schema} (discriminator : String) :
      Fields.names left = Fields.names schemas →
      (∀ (place : Nat) (kind : String) (next kept : Schema), schemas[place]? = some (kind, next) →
        left[place]? = some (kind, kept) → Schema.Narrows inner next kept) →
      Field.Bears inner (.variant discriminator schemas) (.variant discriminator left)

end

section Frame
variable {mask inner : Mask} {schema : Schema} {entry : Entry} {field left : Field} {refusal : Refusal}

theorem Field.applyMask_eq_error_iff : field.applyMask inner = .error refusal ↔
    refusal = .inconsistent none ∧ ∃ source, field = .plain source := by
  cases field <;> simp [applyMask, eq_comm]

theorem Entry.narrow_eq_of_applyMask (h : field.applyMask inner = .ok left) :
    (Entry.nested inner).narrow field = left := by
  cases field with
  | plain source => cases h
  | raw _ _ _ | related _ _ | variant _ _ => exact Except.ok.inj h

theorem Entry.Leaves.source (h : Entry.Leaves entry field left) (name : String) :
    left.source name = field.source name := by
  cases h with
  | selected | refused => rfl
  | applied _ bears => cases bears <;> rfl

theorem Field.bears_of_applyMask (hi : ∀ next, Schema.Narrows inner next (inner.narrow next))
    (h : field.applyMask inner = .ok left) : Field.Bears inner field left := by
  cases field with
  | plain source => cases h
  | raw fallback source mask =>
    cases h
    exact .raw inner fallback source mask
  | related next many =>
    cases h
    exact .related many (hi next)
  | variant discriminator schemas =>
    cases h
    refine .variant discriminator (by simp [Fields.names]) fun place kind next kept hs hl => ?_
    rw [List.getElem?_map, hs] at hl
    cases hl
    exact hi next

theorem Mask.narrows_narrow (mask : Mask) (schema : Schema) : Schema.Narrows mask schema (mask.narrow schema) := by
  induction mask using nodeInduction generalizing schema with
  | step skip entries ih =>
    refine .mk rfl (names_narrow _ schema) fun name entry field left he hf hl => ?_
    rw [find?_narrow, he, hf] at hl
    obtain rfl : entry.narrow field = left := Option.some.inj hl
    cases entry with
    | selected => exact .selected field
    | nested inner =>
      cases ha : field.applyMask inner with
      | error refusal =>
        obtain ⟨-, source, rfl⟩ := Field.applyMask_eq_error_iff.mp ha
        exact .refused ha
      | ok left =>
        rw [Entry.narrow_eq_of_applyMask ha]
        exact .applied ha (Field.bears_of_applyMask (ih name inner (Fields.mem_of_find? he)) ha)

end Frame

/-- Narrowing touches nothing but which fields there are and the masks of raw fields, at every depth. What an entry
    leaves of a field is read under the same name as the field, and only a plain field cannot bear a mask. -/
theorem narrow_frame (mask : Mask) (schema : Schema) :
    Schema.Narrows mask schema (mask.narrow schema) ∧
    (∀ entry field left, Entry.Leaves entry field left → ∀ name, left.source name = field.source name) ∧
    ∀ (field : Field) (inner : Mask) (refusal : Refusal), field.applyMask inner = .error refusal ↔
      refusal = .inconsistent none ∧ ∃ source, field = .plain source :=
  ⟨mask.narrows_narrow schema, fun _ _ _ h => h.source, fun _ _ _ => Field.applyMask_eq_error_iff⟩

end FieldMask
