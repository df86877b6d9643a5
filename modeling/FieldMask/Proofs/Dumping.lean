import FieldMask.Proofs.Filtering

/-! What a schema makes of a record: the fields of the schema, in its order, each with what it makes of the
    value it reads. -/

namespace FieldMask

section Dump
variable {schema : Schema} {fields : List (String × Field)} {record output : Fields Json} {data value out : Json}

theorem Schema.dump_obj (schema : Schema) (record : Fields Json) :
    schema.dump (.obj record) = Json.obj <$> Schema.dumpFields record schema.fields := by
  cases schema
  rfl

theorem Schema.dump_other (schema : Schema) (h : ∀ record, value ≠ .obj record) :
    schema.dump value = .error (.inconsistent none) := by
  cases schema
  cases value with
  | obj record => exact absurd rfl (h record)
  | null | bool _ | num _ | str _ | arr _ => rfl

/-- Only objects are dumped, and what comes out is an object. -/
theorem Schema.dump_eq_ok (h : schema.dump data = .ok out) :
    ∃ record output, data = .obj record ∧ out = .obj output ∧
      Schema.dumpFields record schema.fields = .ok output := by
  by_cases shape : ∃ record, data = .obj record
  · obtain ⟨record, rfl⟩ := shape
    obtain ⟨output, ho, rfl⟩ := map_eq_ok_iff.mp (schema.dump_obj record ▸ h)
    exact ⟨record, output, rfl, rfl, ho⟩
  · rw [schema.dump_other fun record heq => shape ⟨record, heq⟩] at h
    cases h

/-- What comes out of a record has the names of the fields, and under each what the field makes of its value. -/
theorem Schema.dumpFields_eq_ok_iff : Schema.dumpFields record fields = .ok output ↔
    Fields.names output = Fields.names fields ∧ ∀ name field value, ((name, field), (name, value)) ∈ fields.zip output →
      field.dump (Fields.present? record (field.source name)) = .ok value := by
  induction fields generalizing output with
  | nil =>
    cases output with
    | nil => simp [Schema.dumpFields, Fields.names]
    | cons head rest => simp [Schema.dumpFields, Fields.names]
  | cons head rest ih =>
    obtain ⟨first, kind⟩ := head
    rw [Schema.dumpFields]
    constructor
    · intro h
      obtain ⟨value, hv, h⟩ := bind_eq_ok_iff.mp h
      obtain ⟨others, ho, h⟩ := bind_eq_ok_iff.mp h
      cases h
      obtain ⟨hn, hr⟩ := ih.mp ho
      refine ⟨congrArg (first :: ·) hn, fun name field out hm => ?_⟩
      rcases List.mem_cons.mp hm with heq | hm
      · cases heq
        exact atField_eq_ok_iff.mp hv
      · exact hr name field out hm
    · rintro ⟨hn, h⟩
      cases output with
      | nil => cases hn
      | cons member others =>
        obtain ⟨name, value⟩ := member
        obtain ⟨rfl, hr⟩ : name = first ∧ Fields.names others = Fields.names rest := List.cons.inj hn
        have here := h name kind value List.mem_cons_self
        have later := ih.mpr ⟨hr, fun name field out hm => h name field out (List.mem_cons_of_mem _ hm)⟩
        rw [here, atField_ok, ok_bind, later]
        rfl

/-- Under the name of a field stands what the first field of that name makes of its value, and under other
    names nothing. -/
theorem Schema.find?_dumpFields (h : Schema.dumpFields record fields = .ok output) (name : String) :
    match Fields.find? fields name with
    | none => Fields.find? output name = none
    | some field => ∃ value, Fields.find? output name = some value ∧
        field.dump (Fields.present? record (field.source name)) = .ok value := by
  induction fields generalizing output with
  | nil =>
    cases h
    rfl
  | cons head rest ih =>
    obtain ⟨first, field⟩ := head
    rw [Schema.dumpFields] at h
    obtain ⟨value, hv, h⟩ := bind_eq_ok_iff.mp h
    obtain ⟨others, ho, h⟩ := bind_eq_ok_iff.mp h
    cases h
    rw [atField_eq_ok_iff] at hv
    by_cases same : first = name
    · subst same
      simpa [Fields.find?] using hv
    · simpa [Fields.find?, same] using ih ho

theorem Schema.field_dumped {name : String} {field : Field} (h : Schema.dumpFields record fields = .ok output)
    (hf : Fields.find? fields name = some field) : ∃ value, Fields.find? output name = some value ∧
      field.dump (Fields.present? record (field.source name)) = .ok value := by
  have found := Schema.find?_dumpFields h name
  rw [hf] at found
  exact found

theorem Schema.dumped_field {name : String} {value : Json} (h : Schema.dumpFields record fields = .ok output)
    (hv : Fields.find? output name = some value) : ∃ field, Fields.find? fields name = some field ∧
      field.dump (Fields.present? record (field.source name)) = .ok value := by
  have found := Schema.find?_dumpFields h name
  cases hf : Fields.find? fields name with
  | none =>
    rw [hf] at found
    cases hv.symm.trans found
  | some field =>
    rw [hf] at found
    obtain ⟨value', hv', hd⟩ := found
    obtain rfl : value = value' := Option.some.inj (hv.symm.trans hv')
    exact ⟨field, rfl, hd⟩

/-- A record goes through the first variant of its kind. -/
theorem Field.dumpVariant_eq (kind : String) (value : Json) (schemas : Fields Schema) :
    Field.dumpVariant kind value schemas =
      match Fields.find? schemas kind with
      | some schema => schema.dump value
      | none => .error (.inconsistent none) := by
  induction schemas with
  | nil => rfl
  | cons head rest ih =>
    obtain ⟨first, schema⟩ := head
    by_cases same : first = kind <;> simp [Field.dumpVariant, Fields.find?, same, ih]

/-- A value goes through the variant that its discriminator names. -/
theorem Field.dump_variant (discriminator : String) (schemas : Fields Schema) (value : Json) :
    (Field.variant discriminator schemas).dump (some value) =
      match ((value.member? discriminator).bind Json.text?).bind (Fields.find? schemas) with
      | some schema => schema.dump value
      | none => .error (.inconsistent none) := by
  rw [Field.dump]
  cases (value.member? discriminator).bind Json.text? with
  | none => rfl
  | some kind => exact Field.dumpVariant_eq kind value schemas

theorem Field.dump_variant_some {discriminator kind : String} {schemas : Fields Schema} {schema : Schema} {value : Json}
    (hk : (value.member? discriminator).bind Json.text? = some kind) (hs : Fields.find? schemas kind = some schema) :
    (Field.variant discriminator schemas).dump (some value) = schema.dump value := by
  rw [Field.dump_variant, hk, Option.bind_some, hs]

/-- A value is only dumped through the variant that its discriminator names. -/
theorem Field.dump_variant_eq_ok {discriminator : String} {schemas : Fields Schema} {value : Json}
    (h : (Field.variant discriminator schemas).dump (some value) = .ok out) :
    ∃ kind schema, (value.member? discriminator).bind Json.text? = some kind ∧
      Fields.find? schemas kind = some schema ∧ schema.dump value = .ok out := by
  rw [Field.dump_variant] at h
  cases hk : (value.member? discriminator).bind Json.text? with
  | none =>
    rw [hk] at h
    cases h
  | some kind =>
    rw [hk, Option.bind_some] at h
    cases hs : Fields.find? schemas kind with
    | none =>
      rw [hs] at h
      cases h
    | some schema =>
      rw [hs] at h
      exact ⟨kind, schema, rfl, hs, h⟩

theorem Field.dump_noList (schema : Schema) (h : ∀ items, value ≠ .arr items) :
    (Field.related schema true).dump (some value) = .error (.inconsistent none) := by
  cases value with
  | arr items => exact absurd rfl (h items)
  | null | bool _ | num _ | str _ | obj _ => rfl

/-- A list of records is dumped from an array, each item on its own. -/
theorem Field.dump_many_eq_ok (h : (Field.related schema true).dump (some data) = .ok out) :
    ∃ items kept, data = .arr items ∧ out = .arr kept ∧
      List.Forall₂ (fun item item' => schema.dump item = .ok item') items kept := by
  by_cases shape : ∃ items, data = .arr items
  · obtain ⟨items, rfl⟩ := shape
    obtain ⟨kept, hk, rfl⟩ := map_eq_ok_iff.mp
      (show Json.arr <$> dumpItems (fun item => schema.dump item) items = .ok out from h)
    exact ⟨items, kept, rfl, rfl, dumpItems_eq_ok_iff.mp hk⟩
  · rw [Field.dump_noList schema fun items heq => shape ⟨items, heq⟩] at h
    cases h

theorem Schema.isNull_dump (h : schema.dump data = .ok out) : out.isNull = false := by
  obtain ⟨_, _, _, rfl, _⟩ := Schema.dump_eq_ok h
  rfl

end Dump
end FieldMask
