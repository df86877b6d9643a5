import FieldMask.Proofs.Exposure
import FieldMask.Proofs.Misfit

/-! When a schema refuses a record, and which field it blames. A record fits unless a field on the way reads what it
    cannot dump: no record where one is to be, no list, no variant, or a value that does not fit the mask of a raw
    field (`Schema.Misfit`). The first such place in the order of the fields and of the items decides. The last name on
    the way to it takes the blame: that of a field or, inside a masked value, that of a nested entry
    (`Schema.FirstMisfit`). -/

namespace FieldMask

mutual

/-- `Misfit schema data`: the schema cannot dump the data. They are no object, or a field cannot dump what it reads. -/
inductive Schema.Misfit : Schema → Json → Prop
  | noRecord (schema : Schema) {data : Json} : (∀ record, data ≠ .obj record) → Schema.Misfit schema data
  | field {schema : Schema} {record : Fields Json} {name : String} {field : Field} : (name, field) ∈ schema.fields →
      Field.Misfit field (Fields.present? record (field.source name)) → Schema.Misfit schema (.obj record)

/-- `Misfit field present`: the field cannot dump what is present under its source, where null counts as absent. -/
inductive Field.Misfit : Field → Option Json → Prop
  /-- The mask of a raw field does not fit the value, or else the fallback, if that is not null. -/
  | masked {fallback present : Option Json} (source : Option String) {mask : Mask} {value : Json} :
      present.or fallback = some value → value.isNull = false → mask.Misfit value →
      Field.Misfit (.raw fallback source (some mask)) present
  | single {schema : Schema} {value : Json} : Schema.Misfit schema value → Field.Misfit (.related schema false) (some value)
  | noList (schema : Schema) {value : Json} : (∀ items, value ≠ .arr items) → Field.Misfit (.related schema true) (some value)
  | item {schema : Schema} {items : List Json} {item : Json} : item ∈ items → Schema.Misfit schema item →
      Field.Misfit (.related schema true) (some (.arr items))
  /-- Under the discriminator stands no text that names a variant. -/
  | noVariant {discriminator : String} {schemas : List (String × Schema)} {value : Json} :
      ((value.member? discriminator).bind Json.text?).bind (Fields.find? schemas) = none →
      Field.Misfit (.variant discriminator schemas) (some value)
  | variant {discriminator : String} {schemas : List (String × Schema)} {schema : Schema} {value : Json} :
      ((value.member? discriminator).bind Json.text?).bind (Fields.find? schemas) = some schema →
      Schema.Misfit schema value → Field.Misfit (.variant discriminator schemas) (some value)

end

mutual

/-- `FirstMisfit schema data path`: the path leads to the first thing in the data that cannot be dumped. It goes by the
    names of the fields; the fields that come before on the way, and the items, can be dumped. -/
inductive Schema.FirstMisfit : Schema → Json → List Step → Prop
  | noRecord (schema : Schema) {data : Json} : (∀ record, data ≠ .obj record) → Schema.FirstMisfit schema data []
  | field {schema : Schema} {record : Fields Json} {before after : List (String × Field)} {name : String} {field : Field}
      {path : List Step} : schema.fields = before ++ (name, field) :: after →
      (∀ other ∈ before, ¬ other.2.Misfit (Fields.present? record (other.2.source other.1))) →
      Field.FirstMisfit field (Fields.present? record (field.source name)) path →
      Schema.FirstMisfit schema (.obj record) (.key name :: path)

/-- `FirstMisfit field present path`: the same for what is present under the source of a field. Inside a value that has
    to fit a mask the path goes by the names of the nested entries. -/
inductive Field.FirstMisfit : Field → Option Json → List Step → Prop
  | masked {fallback present : Option Json} (source : Option String) {mask : Mask} {value : Json} {path : List Step} :
      present.or fallback = some value → value.isNull = false → mask.FirstMisfit value path →
      Field.FirstMisfit (.raw fallback source (some mask)) present path
  | single {schema : Schema} {value : Json} {path : List Step} : Schema.FirstMisfit schema value path →
      Field.FirstMisfit (.related schema false) (some value) path
  | noList (schema : Schema) {value : Json} : (∀ items, value ≠ .arr items) →
      Field.FirstMisfit (.related schema true) (some value) []
  | item {schema : Schema} {before after : List Json} {item : Json} {path : List Step} :
      (∀ other ∈ before, ¬ schema.Misfit other) → Schema.FirstMisfit schema item path →
      Field.FirstMisfit (.related schema true) (some (.arr (before ++ item :: after))) (.index before.length :: path)
  | noVariant {discriminator : String} {schemas : List (String × Schema)} {value : Json} :
      ((value.member? discriminator).bind Json.text?).bind (Fields.find? schemas) = none →
      Field.FirstMisfit (.variant discriminator schemas) (some value) []
  | variant {discriminator : String} {schemas : List (String × Schema)} {schema : Schema} {value : Json} {path : List Step} :
      ((value.member? discriminator).bind Json.text?).bind (Fields.find? schemas) = some schema →
      Schema.FirstMisfit schema value path → Field.FirstMisfit (.variant discriminator schemas) (some value) path

end

/-! ### One record and one list -/

section Steps
variable {schema : Schema} {fields : List (String × Field)} {record : Fields Json} {data : Json} {items : List Json}
  {refusal : Refusal}

/-- What a field of a schema dumps to, under its name. -/
def Schema.dumpMember (record : Fields Json) (field : String × Field) : Except Refusal (String × Json) :=
  (fun value => (field.1, value)) <$> atField field.1 (field.2.dump (Fields.present? record (field.2.source field.1)))

theorem Schema.dumpFields_eq_mapM : Schema.dumpFields record fields = fields.mapM (Schema.dumpMember record) := by
  induction fields with
  | nil => rfl
  | cons head rest ih =>
    obtain ⟨name, field⟩ := head
    rw [Schema.dumpFields, ih, List.mapM_cons, Schema.dumpMember]
    cases atField name (field.dump (Fields.present? record (field.source name))) <;> rfl

theorem Schema.dump_obj_eq_error_iff : schema.dump (.obj record) = .error refusal ↔
    schema.fields.mapM (Schema.dumpMember record) = .error refusal := by
  rw [Schema.dump_obj, map_eq_error_iff, Schema.dumpFields_eq_mapM]

/-- A field of a record is refused for what its value is refused for, under its name if under none yet. -/
theorem Schema.dumpMember_eq_error_iff {field : String × Field} : Schema.dumpMember record field = .error refusal ↔
    ∃ cause, field.2.dump (Fields.present? record (field.2.source field.1)) = .error cause ∧
      refusal = cause.atField field.1 := by
  rw [Schema.dumpMember, map_eq_error_iff]
  cases field.2.dump (Fields.present? record (field.2.source field.1)) <;> simp [eq_comm]

theorem Field.dump_list_eq_error_iff : (Field.related schema true).dump (some (.arr items)) = .error refusal ↔
    items.mapM schema.dump = .error refusal := by
  rw [Field.dump, map_eq_error_iff, dumpItems_eq_mapM]

theorem Field.dump_masked {fallback present : Option Json} {source : Option String} {mask : Mask} {value : Json}
    (hv : present.or fallback = some value) (hz : value.isNull = false) :
    (Field.raw fallback source (some mask)).dump present = mask.apply value := by
  rw [Field.dump_raw, hv, Option.getD_some]
  simp only [hz, Bool.false_eq_true, if_false]

end Steps

/-! ### What does not fit is refused

By induction on the derivation. -/

mutual

theorem Schema.Misfit.refused {schema : Schema} {data : Json} : schema.Misfit data →
    ∃ refusal, schema.dump data = .error refusal
  | .noRecord _ hr => ⟨_, schema.dump_other hr⟩
  | @Schema.Misfit.field _ record name field hm h => by
    obtain ⟨cause, hc⟩ := h.refused
    have refused : Schema.dumpMember record (name, field) = .error (cause.atField name) :=
      Schema.dumpMember_eq_error_iff.mpr ⟨cause, hc, rfl⟩
    exact (exists_error_of_mapM hm refused).imp fun _ => Schema.dump_obj_eq_error_iff.mpr

theorem Field.Misfit.refused {field : Field} {present : Option Json} : field.Misfit present →
    ∃ refusal, field.dump present = .error refusal
  | .masked _ hv hz hm => by
    rw [Field.dump_masked hv hz]
    exact hm.refused
  | .single h => h.refused
  | .noList schema hl => ⟨_, Field.dump_noList schema hl⟩
  | .item hm h => by
    obtain ⟨cause, hc⟩ := h.refused
    exact (exists_error_of_mapM hm hc).imp fun _ => Field.dump_list_eq_error_iff.mpr
  | .noVariant hs => ⟨_, by rw [Field.dump_variant, hs]⟩
  | .variant hs h => by
    rw [Field.dump_variant, hs]
    exact h.refused

end

section First
variable {schema : Schema} {field : Field} {data : Json} {present : Option Json} {refusal : Refusal} {path : List Step}

theorem Schema.not_misfit_of_ok {out : Json} (h : schema.dump data = .ok out) : ¬ schema.Misfit data := by
  intro hm
  obtain ⟨refusal, hr⟩ := hm.refused
  cases h.symm.trans hr

theorem Schema.not_misfit_of_dumpMember {record : Fields Json} {field : String × Field} {out : String × Json}
    (h : Schema.dumpMember record field = .ok out) :
    ¬ field.2.Misfit (Fields.present? record (field.2.source field.1)) := by
  intro hm
  obtain ⟨cause, hc⟩ := hm.refused
  cases h.symm.trans (Schema.dumpMember_eq_error_iff.mpr ⟨cause, hc, rfl⟩)

/-! ### What is refused holds a first misfit -/

theorem Field.exists_firstMisfit
    (ih : ∀ next, field.LeadsTo next → ∀ data refusal, next.dump data = .error refusal →
      ∃ path, next.FirstMisfit data path ∧ refusal = .inconsistent (lastName? path))
    (h : field.dump present = .error refusal) :
    ∃ path, field.FirstMisfit present path ∧ refusal = .inconsistent (lastName? path) := by
  cases field with
  | plain source => cases h
  | raw fallback source mask =>
    cases mask with
    | none => cases h
    | some mask =>
      cases hv : present.or fallback with
      | none =>
        rw [Field.dump_raw, hv] at h
        cases h
      | some value =>
        cases hz : value.isNull with
        | true =>
          rw [Field.dump_raw, hv, Option.getD_some] at h
          simp [hz] at h
        | false =>
          rw [Field.dump_masked hv hz] at h
          obtain ⟨path, hp, he⟩ := Mask.exists_firstMisfit h
          exact ⟨path, .masked source hv hz hp, he⟩
  | related schema many =>
    cases present with
    | none => cases h
    | some value =>
      cases many with
      | false =>
        obtain ⟨path, hp, he⟩ := ih schema (.related schema false) value refusal h
        exact ⟨path, .single hp, he⟩
      | true =>
        by_cases hl : ∃ items, value = .arr items
        · obtain ⟨items, rfl⟩ := hl
          obtain ⟨before, item, after, rfl, hb, hi⟩ := mapM_eq_error_iff.mp (Field.dump_list_eq_error_iff.mp h)
          obtain ⟨path, hp, rfl⟩ := ih schema (.related schema true) item refusal hi
          refine ⟨.index before.length :: path, .item (fun other ho => ?_) hp, rfl⟩
          obtain ⟨out, hout⟩ := hb other ho
          exact Schema.not_misfit_of_ok hout
        · have hl : ∀ items, value ≠ .arr items := fun items he => hl ⟨items, he⟩
          rw [Field.dump_noList schema hl] at h
          cases h
          exact ⟨[], .noList schema hl, rfl⟩
  | variant discriminator schemas =>
    cases present with
    | none => cases h
    | some value =>
      rw [Field.dump_variant] at h
      cases hs : ((value.member? discriminator).bind Json.text?).bind (Fields.find? schemas) with
      | none =>
        rw [hs] at h
        cases h
        exact ⟨[], .noVariant hs, rfl⟩
      | some schema =>
        rw [hs] at h
        obtain ⟨kind, -, hk⟩ := Option.bind_eq_some_iff.mp hs
        obtain ⟨path, hp, he⟩ := ih schema (.variant discriminator (Fields.mem_of_find? hk)) value refusal h
        exact ⟨path, .variant hs hp, he⟩

/-- By induction on what the fields lead to: the first field that is refused holds the first misfit. -/
theorem Schema.exists_firstMisfit (h : schema.dump data = .error refusal) :
    ∃ path, schema.FirstMisfit data path ∧ refusal = .inconsistent (lastName? path) := by
  induction schema using Schema.leadsInduction generalizing data refusal with
  | step title fields ih =>
    by_cases hr : ∃ record, data = .obj record
    · obtain ⟨record, rfl⟩ := hr
      obtain ⟨before, ⟨name, field⟩, after, he, hb, hf⟩ := mapM_eq_error_iff.mp (Schema.dump_obj_eq_error_iff.mp h)
      obtain ⟨cause, hc, rfl⟩ := Schema.dumpMember_eq_error_iff.mp hf
      have he' : fields = before ++ (name, field) :: after := he
      have hm : (name, field) ∈ fields := he' ▸ List.mem_append_right _ List.mem_cons_self
      obtain ⟨path, hp, rfl⟩ := Field.exists_firstMisfit (fun next hl data refusal => ih name field next hm hl) hc
      refine ⟨.key name :: path, .field he (fun other ho => ?_) hp, atField_lastName? name path⟩
      obtain ⟨out, hout⟩ := hb other ho
      exact Schema.not_misfit_of_dumpMember hout
    · have hr : ∀ record, data ≠ .obj record := fun record he => hr ⟨record, he⟩
      rw [Schema.dump_other _ hr] at h
      cases h
      exact ⟨[], .noRecord _ hr, rfl⟩

end First

/-! ### A first misfit is one, and is refused -/

mutual

theorem Schema.FirstMisfit.misfit {schema : Schema} {data : Json} {path : List Step} :
    schema.FirstMisfit data path → schema.Misfit data
  | .noRecord _ hr => .noRecord _ hr
  | .field he _ h => .field (he ▸ List.mem_append_right _ List.mem_cons_self) h.misfit

theorem Field.FirstMisfit.misfit {field : Field} {present : Option Json} {path : List Step} :
    field.FirstMisfit present path → field.Misfit present
  | .masked source hv hz h => .masked source hv hz h.misfit
  | .single h => .single h.misfit
  | .noList schema hl => .noList schema hl
  | .item _ h => .item (List.mem_append_right _ List.mem_cons_self) h.misfit
  | .noVariant hs => .noVariant hs
  | .variant hs h => .variant hs h.misfit

end

section Refused
variable {schema : Schema} {field : Field} {data : Json} {present : Option Json}

theorem Schema.misfit_iff : (∃ refusal, schema.dump data = .error refusal) ↔ schema.Misfit data := by
  constructor
  · rintro ⟨refusal, h⟩
    obtain ⟨path, hp, -⟩ := Schema.exists_firstMisfit h
    exact hp.misfit
  · exact Schema.Misfit.refused

theorem Schema.ok_of_not_misfit (h : ¬ schema.Misfit data) : ∃ out, schema.dump data = .ok out := by
  cases hd : schema.dump data with
  | ok out => exact ⟨out, rfl⟩
  | error refusal => exact absurd (Schema.misfit_iff.mp ⟨refusal, hd⟩) h

theorem Schema.dumpMember_of_not_misfit {record : Fields Json} {field : String × Field}
    (h : ¬ field.2.Misfit (Fields.present? record (field.2.source field.1))) :
    ∃ out, Schema.dumpMember record field = .ok out := by
  cases hd : Schema.dumpMember record field with
  | ok out => exact ⟨out, rfl⟩
  | error refusal =>
    obtain ⟨cause, hc, -⟩ := Schema.dumpMember_eq_error_iff.mp hd
    obtain ⟨path, hp, -⟩ := Field.exists_firstMisfit (fun _ _ _ _ => Schema.exists_firstMisfit) hc
    exact absurd hp.misfit h

end Refused

mutual

theorem Schema.FirstMisfit.blamed {schema : Schema} {data : Json} {path : List Step} :
    schema.FirstMisfit data path → schema.dump data = .error (.inconsistent (lastName? path))
  | .noRecord _ hr => schema.dump_other hr
  | @Schema.FirstMisfit.field _ _ before after name field path he hb h => by
    refine Schema.dump_obj_eq_error_iff.mpr (mapM_eq_error_iff.mpr ⟨before, (name, field), after, he, fun other ho => ?_, ?_⟩)
    · exact Schema.dumpMember_of_not_misfit (hb other ho)
    · exact Schema.dumpMember_eq_error_iff.mpr ⟨_, h.blamed, (atField_lastName? name path).symm⟩

theorem Field.FirstMisfit.blamed {field : Field} {present : Option Json} {path : List Step} :
    field.FirstMisfit present path → field.dump present = .error (.inconsistent (lastName? path))
  | .masked _ hv hz h => (Field.dump_masked hv hz).trans h.blamed
  | .single h => h.blamed
  | .noList schema hl => Field.dump_noList schema hl
  | @Field.FirstMisfit.item _ before after item _ hb h => by
    refine Field.dump_list_eq_error_iff.mpr (mapM_eq_error_iff.mpr ⟨before, item, after, rfl, fun other ho => ?_, h.blamed⟩)
    exact Schema.ok_of_not_misfit (hb other ho)
  | .noVariant hs => by
    rw [Field.dump_variant, hs]
    rfl
  | .variant hs h => by
    rw [Field.dump_variant, hs]
    exact h.blamed

end

/-- Only on the data themselves is a misfit blamed on no field. -/
theorem Schema.FirstMisfit.lastName?_eq_none_iff {schema : Schema} {data : Json} {path : List Step}
    (h : schema.FirstMisfit data path) : lastName? path = none ↔ ∀ record, data ≠ .obj record := by
  cases h with
  | noRecord _ hr => exact iff_of_true rfl hr
  | @field _ record before after name field path he hb h =>
    refine iff_of_false (fun none => ?_) fun other => other record rfl
    rw [lastName?_key] at none
    cases none

/-- A schema refuses just the data that do not fit it, as inconsistent at the last field or nested entry on the way to
    the first thing that it cannot dump, in the order of its fields and of the items. No field is blamed only where the
    data themselves are no object. -/
theorem dump_refused_iff (schema : Schema) (data : Json) :
    ((∃ refusal, schema.dump data = .error refusal) ↔ schema.Misfit data) ∧
    ∀ refusal,
      (schema.dump data = .error refusal ↔
        ∃ path, schema.FirstMisfit data path ∧ refusal = .inconsistent (lastName? path)) ∧
      (schema.dump data = .error refusal → (refusal = .inconsistent none ↔ ∀ record, data ≠ .obj record)) := by
  refine ⟨Schema.misfit_iff, fun refusal => ⟨⟨Schema.exists_firstMisfit, ?_⟩, fun h => ?_⟩⟩
  · rintro ⟨path, hp, rfl⟩
    exact hp.blamed
  · obtain ⟨path, hp, rfl⟩ := Schema.exists_firstMisfit h
    rw [Refusal.inconsistent.injEq, hp.lastName?_eq_none_iff]

-- The second event holds a truth value where the mask of its raw field nests an empty mask, for `a`.
example :
    let mask : Mask := .mk false [("a", .nested (.mk false []))]
    let event : Schema := .mk "event" [("payload", .raw none none (some mask))]
    let schema : Schema := .mk "log" [("id", .plain none), ("events", .related event true)]
    schema.dump (.obj [("events", .arr [.obj [], .obj [("payload", .obj [("a", .bool true)])]])]) =
      .error (.inconsistent (some "a")) := rfl

end FieldMask
