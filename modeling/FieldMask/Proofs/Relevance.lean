import FieldMask.Proofs.Agreement

/-! What of a record a schema reads. Two records that agree on it (`Schema.ReadsAlike`) come out of the dump the
    same, be it as the same value or as the same refusal. A schema that a mask narrowed reads the fields that both
    name and nothing else, so data that nobody asked for have no say in its dump, however malformed they are. -/

namespace FieldMask

mutual

/-- `ReadsAlike schema first second`: two values agree on what a schema reads. Neither is an object, or both are and
    agree on what each field of the schema reads. -/
inductive Schema.ReadsAlike : Schema → Json → Json → Prop
  | other (schema : Schema) {first second : Json} : (∀ record, first ≠ .obj record) → (∀ record, second ≠ .obj record) →
      Schema.ReadsAlike schema first second
  | record {schema : Schema} {first second : Fields Json} :
      (∀ name field, (name, field) ∈ schema.fields →
        Field.ReadsAlike field (Fields.present? first (field.source name)) (Fields.present? second (field.source name))) →
      Schema.ReadsAlike schema (.obj first) (.obj second)

/-- Two members agree on what a field makes of them, where a member that is null counts as absent. Both are absent, or
    both are there and agree on what the kind of the field reads: a plain or raw field everything, a related or
    variant field what the schema reads that it leads to, if it leads to one. -/
inductive Field.ReadsAlike : Field → Option Json → Option Json → Prop
  | absent (field : Field) : Field.ReadsAlike field none none
  | plain (source : Option String) (value : Json) : Field.ReadsAlike (.plain source) (some value) (some value)
  | raw (fallback : Option Json) (source : Option String) (mask : Option Mask) (value : Json) :
      Field.ReadsAlike (.raw fallback source mask) (some value) (some value)
  | single {schema : Schema} {value other : Json} : Schema.ReadsAlike schema value other →
      Field.ReadsAlike (.related schema false) (some value) (some other)
  | list {schema : Schema} {items others : List Json} : Schema.ItemsReadAlike schema items others →
      Field.ReadsAlike (.related schema true) (some (.arr items)) (some (.arr others))
  | noList (schema : Schema) {value other : Json} : (∀ items, value ≠ .arr items) → (∀ items, other ≠ .arr items) →
      Field.ReadsAlike (.related schema true) (some value) (some other)
  | variant {discriminator kind : String} {schemas : List (String × Schema)} {schema : Schema} {value other : Json} :
      (value.member? discriminator).bind Json.text? = some kind →
      (other.member? discriminator).bind Json.text? = some kind →
      Fields.find? schemas kind = some schema → Schema.ReadsAlike schema value other →
      Field.ReadsAlike (.variant discriminator schemas) (some value) (some other)
  | noVariant {discriminator : String} {schemas : List (String × Schema)} {value other : Json} :
      ((value.member? discriminator).bind Json.text?).bind (Fields.find? schemas) = none →
      ((other.member? discriminator).bind Json.text?).bind (Fields.find? schemas) = none →
      Field.ReadsAlike (.variant discriminator schemas) (some value) (some other)

/-- Two lists are as long as each other and agree item by item on what a schema reads. -/
inductive Schema.ItemsReadAlike : Schema → List Json → List Json → Prop
  | nil (schema : Schema) : Schema.ItemsReadAlike schema [] []
  | cons {schema : Schema} {item other : Json} {items others : List Json} : Schema.ReadsAlike schema item other →
      Schema.ItemsReadAlike schema items others → Schema.ItemsReadAlike schema (item :: items) (other :: others)

end

/-! ### The dump -/

section Dump
variable {first second : Fields Json}

theorem Schema.dumpFields_congr {fields : List (String × Field)} (h : ∀ name field, (name, field) ∈ fields →
      field.dump (Fields.present? first (field.source name)) = field.dump (Fields.present? second (field.source name))) :
    Schema.dumpFields first fields = Schema.dumpFields second fields := by
  induction fields with
  | nil => rfl
  | cons head rest ih =>
    obtain ⟨name, field⟩ := head
    rw [Schema.dumpFields, Schema.dumpFields, h name field List.mem_cons_self]
    rw [ih fun name field hm => h name field (List.mem_cons_of_mem _ hm)]

end Dump

/-! By induction on the agreement: the dump goes where the agreement looks, and nowhere else. -/

mutual

theorem Schema.ReadsAlike.dump_eq {schema : Schema} {first second : Json} :
    schema.ReadsAlike first second → schema.dump first = schema.dump second
  | .other _ hf hs => by rw [schema.dump_other hf, schema.dump_other hs]
  | .record h => by
    rw [Schema.dump_obj, Schema.dump_obj, Schema.dumpFields_congr fun name field hm => (h name field hm).dump_eq]

theorem Field.ReadsAlike.dump_eq {field : Field} {first second : Option Json} :
    field.ReadsAlike first second → field.dump first = field.dump second
  | .absent _ => rfl
  | .plain _ _ => rfl
  | .raw _ _ _ _ => rfl
  | .single h => h.dump_eq
  | .list h => congrArg (Json.arr <$> ·) h.dump_eq
  | .noList schema hv ho => by rw [Field.dump_noList schema hv, Field.dump_noList schema ho]
  | .variant hv ho hs h => by rw [Field.dump_variant_some hv hs, Field.dump_variant_some ho hs, h.dump_eq]
  | .noVariant hv ho => by rw [Field.dump_variant, Field.dump_variant, hv, ho]

theorem Schema.ItemsReadAlike.dump_eq {schema : Schema} {items others : List Json} :
    schema.ItemsReadAlike items others → dumpItems schema.dump items = dumpItems schema.dump others
  | .nil _ => rfl
  | .cons h hr => by rw [dumpItems, dumpItems, h.dump_eq, hr.dump_eq]

end

/-! ### The narrowed schema -/

/-- The fields of a narrowed schema are those that both name, each narrowed as the entry of its name says. -/
theorem Mask.mem_fields_narrow {mask : Mask} {schema : Schema} {name : String} {narrowed : Field} :
    (name, narrowed) ∈ (mask.narrow schema).fields ↔
      ∃ entry field, (name, entry) ∈ mask.entries ∧ schema.find? name = some field ∧ entry.narrow field = narrowed := by
  obtain ⟨skip, entries⟩ := mask
  change (name, narrowed) ∈ Mask.narrowFields entries schema.fields ↔ _
  rw [Mask.narrowFields_eq_common, Fields.common, List.mem_filterMap]
  constructor
  · rintro ⟨⟨other, entry⟩, hm, h⟩
    obtain ⟨field, hf, heq⟩ := Option.map_eq_some_iff.mp h
    cases heq
    exact ⟨entry, field, hm, hf, rfl⟩
  · rintro ⟨entry, field, hm, hf, rfl⟩
    exact ⟨(name, entry), hm, Option.map_eq_some_iff.mpr ⟨field, hf, rfl⟩⟩

theorem Schema.readsAlike_obj_iff {schema : Schema} {first second : Fields Json} :
    schema.ReadsAlike (.obj first) (.obj second) ↔ ∀ name field, (name, field) ∈ schema.fields →
      field.ReadsAlike (Fields.present? first (field.source name)) (Fields.present? second (field.source name)) := by
  constructor
  · intro h
    cases h with
    | other _ hf _ => exact absurd rfl (hf first)
    | record h => exact h
  · exact .record

/-- Data that nobody asked for have no say in a narrowed dump. Two values that agree on what the narrowed schema reads
    are dumped the same, or refused for the same reason; and of a record the narrowed schema reads the fields that
    mask and schema both name, each no further than the entry of its name goes. -/
theorem narrow_dump_congr (mask : Mask) (schema : Schema) :
    (∀ first second, (mask.narrow schema).ReadsAlike first second →
      (mask.narrow schema).dump first = (mask.narrow schema).dump second) ∧
    ∀ first second, (mask.narrow schema).ReadsAlike (.obj first) (.obj second) ↔
      ∀ name entry field, (name, entry) ∈ mask.entries → schema.find? name = some field →
        (entry.narrow field).ReadsAlike (Fields.present? first (field.source name))
          (Fields.present? second (field.source name)) := by
  refine ⟨fun _ _ h => h.dump_eq, fun first second => ?_⟩
  rw [Schema.readsAlike_obj_iff]
  constructor
  · intro h name entry field hm hf
    rw [← Field.source_narrow entry]
    exact h name _ (Mask.mem_fields_narrow.mpr ⟨entry, field, hm, hf, rfl⟩)
  · intro h name narrowed hm
    obtain ⟨entry, field, he, hf, rfl⟩ := Mask.mem_fields_narrow.mp hm
    rw [Field.source_narrow]
    exact h name entry field he hf

/-- The mask `actor{name},items{name},id` on events. It does not ask for their owners, which are no records here, so the
    schema itself refuses both events. -/
theorem narrow_dump_congr_malformed :
    let user : Schema := .mk "user" [("name", .plain (some "login")), ("age", .plain none)]
    let schema : Schema := .mk "event" [("id", .plain none), ("owner", .related user false), ("items", .related user true),
      ("actor", .variant "kind" [("user", user)])]
    let asked : Entry := .nested (.mk true [("name", .selected)])
    let mask : Mask := .mk false [("actor", asked), ("items", asked), ("id", .selected)]
    let first : Json := .obj [("owner", .str "?"), ("items", .arr [.obj [("age", .null), ("login", .str "a")], .bool true]),
      ("actor", .obj [("kind", .str "user"), ("login", .str "b"), ("age", .arr [])])]
    let second : Json := .obj [("actor", .obj [("login", .str "b"), ("kind", .str "user")]), ("id", .null), ("owner", .arr []),
      ("items", .arr [.obj [("login", .str "a")], .str "c"])]
    (mask.narrow schema).ReadsAlike first second ∧ (mask.narrow schema).dump first = (mask.narrow schema).dump second ∧
      schema.dump first = .error (.inconsistent (some "owner")) := by
  intro user schema asked mask first second
  obtain ⟨congr, reads⟩ := narrow_dump_congr mask schema
  have users {one two : Fields Json} (h : Fields.present? one "login" = Fields.present? two "login") :
      Schema.ReadsAlike (.mk "user" [("name", .plain (some "login"))]) (.obj one) (.obj two) := by
    refine .record fun name field hm => ?_
    obtain ⟨rfl, rfl⟩ : name = "name" ∧ field = .plain (some "login") := by simpa [Schema.fields] using hm
    change Field.ReadsAlike _ (Fields.present? one "login") (Fields.present? two "login")
    rw [h]
    cases Fields.present? two "login" with
    | none => exact .absent _
    | some value => exact .plain _ value
  have agree : (mask.narrow schema).ReadsAlike first second := by
    refine (reads _ _).mpr fun name entry field hm hf => ?_
    simp only [mask, Mask.entries_mk, List.mem_cons, Prod.mk.injEq, List.not_mem_nil, or_false] at hm
    rcases hm with ⟨rfl, rfl⟩ | ⟨rfl, rfl⟩ | ⟨rfl, rfl⟩ <;> cases hf
    · exact .variant rfl rfl rfl (users rfl)
    · exact .list (.cons (users rfl) (.cons (.other _ nofun nofun) (.nil _)))
    · exact .absent _
  exact ⟨agree, congr _ _ agree, rfl⟩

end FieldMask
