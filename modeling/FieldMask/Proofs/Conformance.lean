import FieldMask.Proofs.Exposure

/-! What a dump looks like. It conforms to its schema (`Schema.Conforms`): an object with the fields of the schema in
    their order, each with a value that its kind allows for what the record holds under the source of the field. The
    relation says all there is to say: a schema dumps a record to what conforms, and to nothing else
    (`dump_conforms_iff`). -/

namespace FieldMask

mutual

/-- `Conforms schema data out`: the value conforms to the schema for the data it was dumped from. Both are objects; the
    members that came out have the names of the fields, in the order of the schema, and each of them conforms to its
    field for what the data hold under the source of the field, where null counts as absent. -/
inductive Schema.Conforms : Schema → Json → Json → Prop
  | record {schema : Schema} {record output : Fields Json} : Fields.names output = schema.names →
      (∀ name field value, ((name, field), (name, value)) ∈ schema.fields.zip output →
        Field.Conforms field (Fields.present? record (field.source name)) value) →
      Schema.Conforms schema (.obj record) (.obj output)

/-- `Conforms field present out`: the value conforms to the field for what is present under its source. -/
inductive Field.Conforms : Field → Option Json → Json → Prop
  /-- A plain field holds what is present, or else null. -/
  | plain (source : Option String) (present : Option Json) : Field.Conforms (.plain source) present (present.getD .null)
  /-- A raw field without a mask holds what is present, or else its fallback, or else null. -/
  | raw (fallback : Option Json) (source : Option String) (present : Option Json) :
      Field.Conforms (.raw fallback source none) present ((present.or fallback).getD .null)
  /-- A raw field with a mask holds null if that is what it would hold without, -/
  | rawNull {fallback : Option Json} (source : Option String) (mask : Mask) {present : Option Json} :
      (present.or fallback).getD .null = .null → Field.Conforms (.raw fallback source (some mask)) present .null
  /-- and otherwise what the mask lets out of it. -/
  | rawMasked {fallback : Option Json} (source : Option String) {mask : Mask} {present : Option Json} {value out : Json} :
      present.or fallback = some value → value.isNull = false → mask.apply value = .ok out →
      Field.Conforms (.raw fallback source (some mask)) present out
  /-- A related or variant field holds null if nothing is present. -/
  | absentRelated (schema : Schema) (many : Bool) : Field.Conforms (.related schema many) none .null
  | absentVariant (discriminator : String) (schemas : List (String × Schema)) :
      Field.Conforms (.variant discriminator schemas) none .null
  /-- A related field holds one record of its schema, -/
  | single {schema : Schema} {value out : Json} : Schema.Conforms schema value out →
      Field.Conforms (.related schema false) (some value) out
  /-- or a list of them, one for each item in turn. -/
  | list {schema : Schema} {items kept : List Json} : items.length = kept.length →
      (∀ item out, (item, out) ∈ items.zip kept → Schema.Conforms schema item out) →
      Field.Conforms (.related schema true) (some (.arr items)) (.arr kept)
  /-- A variant field holds a record of the variant that the text under the discriminator names. -/
  | variant {discriminator kind : String} {schemas : List (String × Schema)} {schema : Schema} {value out : Json} :
      (value.member? discriminator).bind Json.text? = some kind → Fields.find? schemas kind = some schema →
      Schema.Conforms schema value out → Field.Conforms (.variant discriminator schemas) (some value) out

end

theorem dumpItems_eq_ok_iff_zip {dump : Json → Except Refusal Json} {items kept : List Json} : dumpItems dump items = .ok kept ↔
    items.length = kept.length ∧ ∀ item out, (item, out) ∈ items.zip kept → dump item = .ok out := by
  rw [dumpItems_eq_ok_iff, List.forall₂_iff_zip]

/-! ### What is dumped conforms -/

theorem Field.conforms_raw {fallback : Option Json} {source : Option String} {mask : Option Mask} {present : Option Json}
    {out : Json} (h : (Field.raw fallback source mask).dump present = .ok out) :
    (Field.raw fallback source mask).Conforms present out := by
  cases mask with
  | none =>
    cases h
    exact .raw fallback source present
  | some mask =>
    rw [Field.dump_raw] at h
    cases hp : present.or fallback with
    | none =>
      rw [hp] at h
      cases h
      exact .rawNull source mask (by rw [hp]; rfl)
    | some value =>
      rw [hp, Option.getD_some] at h
      cases hz : value.isNull with
      | true =>
        simp only [hz, if_true, Except.ok.injEq] at h
        obtain rfl := Json.isNull_iff.mp hz
        exact h ▸ .rawNull source mask (by rw [hp]; rfl)
      | false =>
        simp only [hz, Bool.false_eq_true, if_false] at h
        exact .rawMasked source hp hz h

theorem Field.conforms_of_dump {field : Field} {present : Option Json} {out : Json}
    (ih : ∀ next, field.LeadsTo next → ∀ data out, next.dump data = .ok out → next.Conforms data out)
    (h : field.dump present = .ok out) : field.Conforms present out := by
  cases field with
  | plain source =>
    cases h
    exact .plain source present
  | raw fallback source mask => exact Field.conforms_raw h
  | related schema many =>
    cases present with
    | none =>
      cases h
      exact .absentRelated schema many
    | some value =>
      cases many with
      | false => exact .single (ih schema (.related schema false) value out h)
      | true =>
        obtain ⟨items, kept, rfl, rfl, hi⟩ := Field.dump_many_eq_ok h
        obtain ⟨hl, hz⟩ := dumpItems_eq_ok_iff_zip.mp (dumpItems_eq_ok_iff.mpr hi)
        exact .list hl fun item out hm => ih schema (.related schema true) item out (hz item out hm)
  | variant discriminator schemas =>
    cases present with
    | none =>
      cases h
      exact .absentVariant discriminator schemas
    | some value =>
      obtain ⟨kind, schema, hk, hs, hd⟩ := Field.dump_variant_eq_ok h
      exact .variant hk hs (ih schema (.variant discriminator (Fields.mem_of_find? hs)) value out hd)

/-- By induction on what the fields lead to. -/
theorem Schema.conforms_of_dump {schema : Schema} {data out : Json} (h : schema.dump data = .ok out) :
    schema.Conforms data out := by
  induction schema using Schema.leadsInduction generalizing data out with
  | step title fields ih =>
    obtain ⟨record, output, rfl, rfl, hd⟩ := Schema.dump_eq_ok h
    obtain ⟨hn, hf⟩ := Schema.dumpFields_eq_ok_iff.mp hd
    refine .record hn fun name field value hm => Field.conforms_of_dump ?_ (hf name field value hm)
    exact fun next hl data out => ih name field next (List.of_mem_zip hm).1 hl

/-! ### What conforms is dumped

By induction on the derivation. -/

mutual

theorem Schema.Conforms.dump_eq {schema : Schema} {data out : Json} : schema.Conforms data out → schema.dump data = .ok out
  | .record hn hf => by
    rw [Schema.dump_obj, Schema.dumpFields_eq_ok_iff.mpr ⟨hn, fun name field value hm => (hf name field value hm).dump_eq⟩]
    rfl

theorem Field.Conforms.dump_eq {field : Field} {present : Option Json} {out : Json} :
    field.Conforms present out → field.dump present = .ok out
  | .plain _ _ => rfl
  | .raw _ _ _ => rfl
  | .rawNull _ _ hv => by
    rw [Field.dump_raw, hv]
    rfl
  | .rawMasked _ hv hz ha => by
    rw [Field.dump_raw, hv, Option.getD_some]
    simp only [hz, Bool.false_eq_true, if_false]
    exact ha
  | .absentRelated _ _ => rfl
  | .absentVariant _ _ => rfl
  | .single h => h.dump_eq
  | .list hl hi => by
    rw [Field.dump, dumpItems_eq_ok_iff_zip.mpr ⟨hl, fun item out hm => (hi item out hm).dump_eq⟩]
    rfl
  | .variant hk hs h => by rw [Field.dump_variant_some hk hs, h.dump_eq]

end

/-- A schema dumps data to a value exactly if the value conforms to it for the data. So what is dumped is an object,
    with the names of the fields in the order of the schema, and under the name of a field stands a value that conforms
    to the field for what the record holds under its source. -/
theorem dump_conforms_iff (schema : Schema) (data out : Json) :
    (schema.dump data = .ok out ↔ schema.Conforms data out) ∧
    (schema.dump data = .ok out → ∃ record output, data = .obj record ∧ out = .obj output ∧
      Fields.names output = schema.names ∧ ∀ name field, schema.find? name = some field →
        ∃ value, Fields.find? output name = some value ∧
          field.Conforms (Fields.present? record (field.source name)) value) := by
  refine ⟨⟨Schema.conforms_of_dump, Schema.Conforms.dump_eq⟩, fun h => ?_⟩
  obtain ⟨record, output, rfl, rfl, hd⟩ := Schema.dump_eq_ok h
  refine ⟨record, output, rfl, rfl, (Schema.dumpFields_eq_ok_iff.mp hd).1, fun name field hf => ?_⟩
  obtain ⟨value, hv, hfd⟩ := Schema.field_dumped hd hf
  exact ⟨value, hv, Field.conforms_of_dump (fun _ _ _ _ => Schema.conforms_of_dump) hfd⟩

/-- A book whose authors are a list, the second of a kind that has a raw field: the fallback stands in for the null that
    the record holds, and the mask of the field cuts it down. -/
theorem dump_conforms_iff_in_list :
    let person : Schema := .mk "person" [("name", .plain none), ("links", .raw (some (.obj [("web", .str "w"), ("mail", .str "m")]))
      (some "urls") (some (.mk true [("web", .selected)])))]
    let author : Schema := .mk "author" [("who", .variant "kind" [("group", .mk "group" []), ("person", person)])]
    let book : Schema := .mk "book" [("authors", .related author true), ("editor", .related person false), ("id", .plain (some "key"))]
    let data : Json := .obj [("key", .str "b"), ("editor", .null), ("authors", .arr [.obj [("who", .null)],
      .obj [("who", .obj [("kind", .str "person"), ("urls", .null), ("name", .str "x")])]])]
    let out : Json := .obj [("authors", .arr [.obj [("who", .null)],
      .obj [("who", .obj [("name", .str "x"), ("links", .obj [("web", .str "w")])])]]), ("editor", .null), ("id", .str "b")]
    book.dump data = .ok out ∧ book.Conforms data out ∧
      ∃ record output, data = .obj record ∧ out = .obj output ∧ Fields.names output = book.names ∧
        ∀ name field, book.find? name = some field → ∃ value, Fields.find? output name = some value ∧
          field.Conforms (Fields.present? record (field.source name)) value := by
  intro person author book data out
  have h : book.dump data = .ok out := rfl
  obtain ⟨conforms, fields⟩ := dump_conforms_iff book data out
  exact ⟨h, conforms.mp h, fields h⟩

end FieldMask
