import FieldMask.Proofs.Blame
import FieldMask.Proofs.MemberOrder
import FieldMask.Proofs.Narrowing

/-! Schemas that differ in order only. The test for it (`Schema.same`) goes through the fields of one schema and looks
    each of them up in the other. Where no name is repeated it means that both declare the same names with the same
    fields, and so on at every depth (`Schema.Reordered`).

    Such schemas remain so when both are narrowed, and on the same data they end akin (`Schema.Reordered.dump_akin`):
    whether a field is refused does not depend on those before it. Which one is blamed does. -/

namespace FieldMask

open Json

mutual

/-- Two schemas of one name declare the same fields, in whatever order. -/
inductive Schema.Reordered : Schema → Schema → Prop
  | mk (title : String) {fields others : List (String × Field)} :
      (Fields.names fields).Perm (Fields.names others) →
      (∀ name field other, (name, field) ∈ fields → (name, other) ∈ others → Field.Reordered field other) →
      Schema.Reordered (.mk title fields) (.mk title others)

/-- Two fields are dumped in the same way: from one source, with fallbacks that are the same but for order, through one
    mask, or through schemas that are reordered themselves, by the same kinds in whatever order. -/
inductive Field.Reordered : Field → Field → Prop
  | plain (source : Option String) : Field.Reordered (.plain source) (.plain source)
  | raw {fallback other : Option Json} (source : Option String) (mask : Option Mask) :
      Option.Rel SameData fallback other → Field.Reordered (.raw fallback source mask) (.raw other source mask)
  | related {schema other : Schema} (many : Bool) :
      Schema.Reordered schema other → Field.Reordered (.related schema many) (.related other many)
  | variant (discriminator : String) {schemas others : List (String × Schema)} :
      (Fields.names schemas).Perm (Fields.names others) →
      (∀ kind schema other, (kind, schema) ∈ schemas → (kind, other) ∈ others → Schema.Reordered schema other) →
      Field.Reordered (.variant discriminator schemas) (.variant discriminator others)

end

/-! ### The test -/

section Test
variable {first second : Schema} {fields others : Fields Field} {schemas variants : Fields Schema} {field other : Field}

theorem Schema.sameFields_iff : Schema.sameFields fields others = true ↔
    ∀ field ∈ fields, ∃ other, Fields.find? others field.1 = some other ∧ field.2.same other = true := by
  induction fields with
  | nil => simp [sameFields]
  | cons head rest ih =>
    rw [sameFields, Bool.and_eq_true, ih, List.forall_mem_cons]
    cases Fields.find? others head.1 <;> simp

theorem Field.sameVariants_iff : Field.sameVariants schemas variants = true ↔
    ∀ variant ∈ schemas, ∃ other, Fields.find? variants variant.1 = some other ∧ variant.2.same other = true := by
  induction schemas with
  | nil => simp [sameVariants]
  | cons head rest ih =>
    rw [sameVariants, Bool.and_eq_true, ih, List.forall_mem_cons]
    cases Fields.find? variants head.1 <;> simp

theorem Schema.same_mk_iff {name title : String} : (Schema.mk name fields).same (.mk title others) = true ↔
    name = title ∧ fields.length = others.length ∧
      ∀ field ∈ fields, ∃ other, Fields.find? others field.1 = some other ∧ field.2.same other = true := by
  rw [same, Bool.and_eq_true, Bool.and_eq_true, beq_iff_eq, beq_iff_eq, sameFields_iff, and_assoc]

theorem Field.same_variant_iff {discriminator tag : String} :
    (Field.variant discriminator schemas).same (.variant tag variants) = true ↔
      discriminator = tag ∧ schemas.length = variants.length ∧
        ∀ variant ∈ schemas, ∃ other, Fields.find? variants variant.1 = some other ∧ variant.2.same other = true := by
  rw [same, Bool.and_eq_true, Bool.and_eq_true, beq_iff_eq, beq_iff_eq, sameVariants_iff, and_assoc]

theorem Field.same_raw_iff {fallback usual : Option Json} {source origin : Option String} {mask own : Option Mask} :
    (Field.raw fallback source mask).same (.raw usual origin own) = true ↔
      Option.Rel (fun value other => value.same other = true) fallback usual ∧ source = origin ∧ mask = own := by
  cases fallback <;> cases usual <;> simp [same, rel_iff, and_assoc]

mutual

theorem Schema.Reordered.same {first second : Schema} : first.Reordered second → first.same second = true
  | .mk title perm hf => by
    refine Schema.same_mk_iff.mpr ⟨rfl, by simpa [Fields.names] using perm.length_eq, fun (name, field) hm => ?_⟩
    obtain ⟨other, ho⟩ := Fields.exists_find?_of_perm perm hm
    exact ⟨other, ho, (hf name field other hm (Fields.mem_of_find? ho)).same⟩

theorem Field.Reordered.same {field other : Field} : field.Reordered other → field.same other = true
  | .plain source => by rw [Field.same, beq_self_eq_true]
  | .raw source mask hf => by
    refine Field.same_raw_iff.mpr ⟨?_, rfl, rfl⟩
    cases hf with
    | none => exact .none
    | some hd => exact .some hd.same
  | .related many hs => by rw [Field.same, hs.same, beq_self_eq_true, Bool.true_and]
  | .variant discriminator perm hs => by
    refine Field.same_variant_iff.mpr ⟨rfl, by simpa [Fields.names] using perm.length_eq, fun (kind, schema) hm => ?_⟩
    obtain ⟨other, ho⟩ := Fields.exists_find?_of_perm perm hm
    exact ⟨other, ho, (hs kind schema other hm (Fields.mem_of_find? ho)).same⟩

end

theorem Field.nodup_of_distinct {discriminator : String} (h : (Field.variant discriminator schemas).distinct = true) :
    (Fields.names schemas).Nodup := by
  rw [distinct, Bool.and_eq_true, decide_eq_true_iff] at h
  exact h.1

theorem Field.reordered_of_same (hf : field.distinct = true) (ho : other.distinct = true)
    (hl : ∀ next last, field.LeadsTo next → other.LeadsTo last → next.same last = true → next.Reordered last)
    (h : field.same other = true) : field.Reordered other := by
  cases field with
  | plain source =>
    cases other with
    | plain origin =>
      rw [Field.same, beq_iff_eq] at h
      exact h ▸ .plain source
    | raw _ _ _ | related _ _ | variant _ _ => cases h
  | raw fallback source mask =>
    cases other with
    | raw usual origin own =>
      obtain ⟨same, rfl, rfl⟩ := Field.same_raw_iff.mp h
      refine .raw source mask ?_
      cases same with
      | none => exact .none
      | some hs => exact .some ⟨Field.distinct_fallback hf, Field.distinct_fallback ho, hs⟩
    | plain _ | related _ _ | variant _ _ => cases h
  | related schema many =>
    cases other with
    | related last listed =>
      rw [Field.same, Bool.and_eq_true, beq_iff_eq] at h
      obtain ⟨hs, rfl⟩ := h
      exact .related many (hl schema last (.related schema many) (.related last many) hs)
    | plain _ | raw _ _ _ | variant _ _ => cases h
  | variant discriminator schemas =>
    cases other with
    | variant tag variants =>
      obtain ⟨rfl, size, hs⟩ := Field.same_variant_iff.mp h
      obtain ⟨perm, same⟩ := Fields.perm_of_lookups (R := fun schema other => schema.same other = true)
        (Field.nodup_of_distinct hf) (Field.nodup_of_distinct ho) size hs
      refine .variant discriminator perm fun kind schema last hm hv => ?_
      exact hl schema last (.variant discriminator hm) (.variant discriminator hv) (same kind schema last hm hv)
    | plain _ | raw _ _ _ | related _ _ => cases h

/-- By induction on what the fields lead to. -/
theorem Schema.reordered_of_same (hf : first.distinct = true) (hs : second.distinct = true)
    (h : first.same second = true) : first.Reordered second := by
  induction first using leadsInduction generalizing second with
  | step title fields ih =>
    obtain ⟨again, others⟩ := second
    obtain ⟨rfl, size, hl⟩ := Schema.same_mk_iff.mp h
    obtain ⟨perm, same⟩ := Fields.perm_of_lookups (R := fun field other => field.same other = true)
      (nodup_of_distinct hf) (nodup_of_distinct hs) size hl
    refine .mk title perm fun name field other hm ho => ?_
    have hfield := distinct_field hf hm
    have hother := distinct_field hs ho
    refine Field.reordered_of_same hfield hother (fun next last hn hl => ?_) (same name field other hm ho)
    exact ih name field next hm hn (Field.distinct_next hfield hn) (Field.distinct_next hother hl)

end Test

/-! ### Narrowing -/

section Narrow
variable {mask : Mask} {entry : Entry} {first second : Schema} {field other : Field}

theorem Schema.Reordered.names_perm (h : first.Reordered second) : first.names.Perm second.names := by
  cases h with
  | mk title perm _ => exact perm

theorem Schema.Reordered.of_find? {name : String} (h : first.Reordered second) (hf : first.find? name = some field)
    (ho : second.find? name = some other) : field.Reordered other := by
  cases h with
  | mk title _ hr => exact hr name field other (Fields.mem_of_find? hf) (Fields.mem_of_find? ho)

theorem Schema.Reordered.names_narrow (h : first.Reordered second) (mask : Mask) :
    (mask.narrow first).names = (mask.narrow second).names := by
  rw [Mask.names_narrow, Mask.names_narrow]
  exact List.filter_congr fun name _ => decide_eq_decide.mpr h.names_perm.mem_iff

theorem Field.Reordered.narrow (h : field.Reordered other)
    (hi : ∀ inner, entry = .nested inner → ∀ next last : Schema, next.Reordered last →
      (inner.narrow next).Reordered (inner.narrow last)) : (entry.narrow field).Reordered (entry.narrow other) := by
  cases entry with
  | selected => exact h
  | nested inner =>
    have hi := hi inner rfl
    cases h with
    | plain source => exact .plain source
    | raw source mask hf => exact .raw source (some inner) hf
    | related many hs => exact .related many (hi _ _ hs)
    | variant discriminator perm hs =>
      refine .variant discriminator (by simpa [Fields.names, Function.comp_def] using perm) fun kind left right hm ho => ?_
      obtain ⟨⟨_, next⟩, hn, heq⟩ := List.mem_map.mp hm
      cases heq
      obtain ⟨⟨_, last⟩, hl, heq⟩ := List.mem_map.mp ho
      cases heq
      exact hi next last (hs kind next last hn hl)

theorem Schema.Reordered.narrow (hd : mask.Everywhere fun node => node.names.Nodup) (h : first.Reordered second) :
    (mask.narrow first).Reordered (mask.narrow second) := by
  induction mask using Mask.nodeInduction generalizing first second with
  | step skip entries ih =>
    have names := h.names_narrow (.mk skip entries)
    have fields : ∀ name left right, (name, left) ∈ ((Mask.mk skip entries).narrow first).fields →
        (name, right) ∈ ((Mask.mk skip entries).narrow second).fields → left.Reordered right := by
      intro name left right hm ho
      obtain ⟨entry, field, he, hf, rfl⟩ := Mask.mem_fields_narrow.mp hm
      obtain ⟨again, other, ha, hs, rfl⟩ := Mask.mem_fields_narrow.mp ho
      -- both fields were narrowed by the one entry of their name
      obtain rfl : entry = again := Option.some.inj ((Fields.find?_of_mem hd.root he).symm.trans (Fields.find?_of_mem hd.root ha))
      refine (h.of_find? hf hs).narrow fun inner heq next last hn => ?_
      subst heq
      exact ih name inner he (hd.below he) hn
    cases h with
    | mk title _ _ => exact .mk title (.of_eq names) fields

end Narrow

/-! ### Dumping -/

section Dump
variable {first second : Schema} {fields others : Fields Field} {field other : Field} {record : Fields Json}
  {present : Option Json} {data : Json}

theorem Field.Reordered.source_eq (h : field.Reordered other) (name : String) : field.source name = other.source name := by
  cases h <;> rfl

theorem dumpItems_akin {R : Json → Json → Prop} {dump again : Json → Except Refusal Json} {items : List Json}
    (h : ∀ item ∈ items, Akin R (dump item) (again item)) :
    Akin (List.Forall₂ R) (dumpItems dump items) (dumpItems again items) := by
  induction items with
  | nil => exact .ok .nil
  | cons item rest ih =>
    rw [dumpItems, dumpItems]
    have here := h item List.mem_cons_self
    have ih := ih fun other hm => h other (List.mem_cons_of_mem _ hm)
    exact here.bind fun _ _ ha => ih.bind fun _ _ hr => .ok (.cons ha hr)

theorem Schema.dumpFields_refused_iff : (∃ refusal, Schema.dumpFields record fields = .error refusal) ↔
    ∃ name field, (name, field) ∈ fields ∧
      ∃ refusal, field.dump (Fields.present? record (field.source name)) = .error refusal := by
  rw [Schema.dumpFields_eq_mapM, mapM_refused_iff]
  constructor
  · rintro ⟨⟨name, field⟩, hm, refusal, h⟩
    obtain ⟨cause, hc, -⟩ := Schema.dumpMember_eq_error_iff.mp h
    exact ⟨name, field, hm, cause, hc⟩
  · rintro ⟨name, field, hm, cause, hc⟩
    exact ⟨(name, field), hm, _, Schema.dumpMember_eq_error_iff.mpr ⟨cause, hc, rfl⟩⟩

section Record
variable (perm : (Fields.names fields).Perm (Fields.names others))
  (each : ∀ name field other, (name, field) ∈ fields → (name, other) ∈ others →
    Akin SameData (field.dump (Fields.present? record (field.source name)))
      (other.dump (Fields.present? record (other.source name))))
include perm each

/-- A field that is refused is refused wherever it stands. -/
theorem Schema.dumpFields_refused_congr : (∃ refusal, Schema.dumpFields record fields = .error refusal) ↔
    ∃ refusal, Schema.dumpFields record others = .error refusal := by
  rw [dumpFields_refused_iff, dumpFields_refused_iff]
  constructor
  · rintro ⟨name, field, hm, h⟩
    obtain ⟨other, ho⟩ := Fields.exists_find?_of_perm perm hm
    have ho := Fields.mem_of_find? ho
    exact ⟨name, other, ho, (each name field other hm ho).refused_iff.mp h⟩
  · rintro ⟨name, other, ho, h⟩
    obtain ⟨field, hm⟩ := Fields.exists_find?_of_perm perm.symm ho
    have hm := Fields.mem_of_find? hm
    exact ⟨name, field, hm, (each name field other hm ho).refused_iff.mpr h⟩

theorem Schema.find?_dumpFields_sameData {output kept : Fields Json} (hout : Schema.dumpFields record fields = .ok output)
    (hkept : Schema.dumpFields record others = .ok kept) (name : String) :
    Option.Rel SameData (Fields.find? output name) (Fields.find? kept name) := by
  rcases rel_iff.mp (Fields.rel_find? perm (each name)) with ⟨hf, ho⟩ | ⟨field, other, hf, ho, h⟩
  · have left := find?_dumpFields hout name
    have right := find?_dumpFields hkept name
    rw [hf] at left
    rw [ho] at right
    rw [left, right]
    exact .none
  · obtain ⟨value, hv, hd⟩ := field_dumped hout hf
    obtain ⟨again, ha, hd'⟩ := field_dumped hkept ho
    rw [hd, hd'] at h
    rw [hv, ha]
    cases h with
    | ok same => exact .some same

theorem Schema.dumpFields_akin (hf : (Fields.names fields).Nodup) :
    Akin SameRecord (Schema.dumpFields record fields) (Schema.dumpFields record others) := by
  have refused := dumpFields_refused_congr perm each
  cases hout : Schema.dumpFields record fields with
  | error refusal =>
    obtain ⟨cause, hc⟩ := refused.mp ⟨refusal, hout⟩
    rw [hc]
    exact .error refusal cause
  | ok output =>
    cases hkept : Schema.dumpFields record others with
    | error refusal =>
      obtain ⟨cause, hc⟩ := refused.mpr ⟨refusal, hkept⟩
      cases hout.symm.trans hc
    | ok kept =>
      have names := (dumpFields_eq_ok_iff.mp hout).1
      have again := (dumpFields_eq_ok_iff.mp hkept).1
      exact .ok ⟨names ▸ hf, again ▸ perm.nodup hf, find?_dumpFields_sameData perm each hout hkept⟩

end Record

theorem Field.Reordered.dump_akin (h : field.Reordered other) (hk : field.distinct = true)
    (hp : ∀ value, present = some value → value.distinct = true)
    (hl : ∀ next last, field.LeadsTo next → next.Reordered last → ∀ data, data.distinct = true →
      Akin SameData (next.dump data) (last.dump data)) : Akin SameData (field.dump present) (other.dump present) := by
  have same := SameData.rel_refl hp
  cases h with
  | plain source => exact .ok (getD_null_sameData same)
  | raw source mask hf => exact (dumpRaw_sameData (fun own he => Field.distinct_mask (he ▸ hk)) hf same).akin
  | @related next last many hs =>
    cases present with
    | none => cases many <;> exact .ok .null
    | some value =>
      have hv := hp value rfl
      cases many with
      | false => exact hl next last (.related next false) hs value hv
      | true =>
        rcases exists_or_forall_not fun items => value = .arr items with ⟨items, rfl⟩ | shape
        · have each := dumpItems_akin fun item hm => hl next last (.related next true) hs item (distinct_item hv hm)
          exact each.map fun _ _ hd => sameData_arr_iff.mpr hd
        · rw [Field.dump_noList next shape, Field.dump_noList last shape]
          exact .error _ _
  | @variant discriminator schemas others perm hs =>
    cases present with
    | none => exact .ok .null
    | some value =>
      rw [Field.dump_variant, Field.dump_variant]
      cases (value.member? discriminator).bind Json.text? with
      | none => exact .error _ _
      | some kind =>
        rw [Option.bind_some, Option.bind_some]
        rcases rel_iff.mp (Fields.rel_find? perm (hs kind)) with ⟨hn, ho⟩ | ⟨next, last, hn, ho, hr⟩
        · rw [hn, ho]
          exact .error _ _
        · rw [hn, ho]
          exact hl next last (.variant discriminator (Fields.mem_of_find? hn)) hr value (hp value rfl)

theorem Fields.distinct_of_present? {name : String} {value : Json} (hd : (Json.obj record).distinct = true)
    (h : Fields.present? record name = some value) : value.distinct = true := by
  obtain ⟨hv, -⟩ := Option.filter_eq_some_iff.mp h
  exact distinct_member hd (Fields.mem_of_find? hv)

/-- By induction on what the fields lead to. -/
theorem Schema.Reordered.dump_akin (h : first.Reordered second) (hk : first.distinct = true)
    (hd : data.distinct = true) : Akin SameData (first.dump data) (second.dump data) := by
  induction first using leadsInduction generalizing second data with
  | step title fields ih =>
    cases h with
    | @mk _ _ others perm hr =>
      rcases exists_or_forall_not fun record => data = .obj record with ⟨record, rfl⟩ | shape
      · have dumped : Akin SameRecord (dumpFields record fields) (dumpFields record others) := by
          refine dumpFields_akin perm (fun name field other hm ho => ?_) (nodup_of_distinct hk)
          have hf := distinct_field hk hm
          have same := hr name field other hm ho
          rw [← same.source_eq]
          refine same.dump_akin hf (fun value hv => Fields.distinct_of_present? hd hv) fun next last hl hn data hd => ?_
          exact ih name field next hm hl hn (Field.distinct_next hf hl) hd
        rw [dump_obj, dump_obj]
        exact dumped.map fun _ _ hs => hs.sameData
      · rw [dump_other _ shape, dump_other _ shape]
        exact .error _ _

end Dump

/-- Schemas that are the same can stand in for each other. That two of them are the same means that they have the same
    fields and variants, at every depth, but for the order of these and of the members of fallbacks. Then every mask
    leaves the same of both, under the same names in the same order; and a record that one of them dumps the other dumps
    as well, to the same but for the order of members, while a record that one of them refuses both refuse as
    inconsistent, though maybe with the blame on different fields. Schemas, masks and data repeat no name. -/
theorem same_schema_interchangeable {first second : Schema} (hf : first.distinct = true) (hs : second.distinct = true) :
    (first.same second = true ↔ first.Reordered second) ∧
    (first.same second = true →
      (∀ mask : Mask, (mask.Everywhere fun node => node.names.Nodup) →
        (mask.narrow first).same (mask.narrow second) = true ∧
          (mask.narrow first).names = (mask.narrow second).names) ∧
      ∀ data : Json, data.distinct = true →
        (∃ out other, first.dump data = .ok out ∧ second.dump data = .ok other ∧ SameData out other) ∨
        ∃ field blamed, first.dump data = .error (.inconsistent field) ∧
          second.dump data = .error (.inconsistent blamed)) := by
  refine ⟨⟨Schema.reordered_of_same hf hs, Schema.Reordered.same⟩, fun same => ?_⟩
  have h := Schema.reordered_of_same hf hs same
  refine ⟨fun mask hd => ⟨(h.narrow hd).same, h.names_narrow mask⟩, fun data hd => ?_⟩
  have akin := h.dump_akin hf hd
  cases hout : first.dump data with
  | ok out =>
    rw [hout] at akin
    generalize hother : second.dump data = result at akin
    cases akin with
    | ok same => exact Or.inl ⟨_, _, rfl, rfl, same⟩
  | error refusal =>
    obtain ⟨cause, hc⟩ := akin.refused_iff.mp ⟨refusal, hout⟩
    -- a schema refuses nothing but as inconsistent
    obtain ⟨path, -, rfl⟩ := Schema.exists_firstMisfit hout
    obtain ⟨other, -, rfl⟩ := Schema.exists_firstMisfit hc
    exact Or.inr ⟨_, _, rfl, hc⟩

/-- Two schemas of posts with fields, variants, inner fields and a fallback in different orders: a post is dumped by
    both, and one with texts in place of its author and of its reviews is refused by both, each at its own first field. -/
theorem same_schema_interchangeable_blames_apart :
    let user : Schema := .mk "user" [("id", .plain none), ("name", .plain (some "login"))]
    let again : Schema := .mk "user" [("name", .plain (some "login")), ("id", .plain none)]
    let own : Mask := .mk true [("y", .selected), ("x", .selected)]
    let first : Schema := .mk "post" [("author", .variant "kind" [("user", user), ("bot", .mk "bot" [])]),
      ("reviews", .related user true), ("data", .raw (some (.obj [("x", .null), ("y", .str "z")])) none (some own))]
    let second : Schema := .mk "post" [("data", .raw (some (.obj [("y", .str "z"), ("x", .null)])) none (some own)),
      ("reviews", .related again true), ("author", .variant "kind" [("bot", .mk "bot" []), ("user", again)])]
    let mask : Mask := .mk false [("reviews", .nested (.mk true [("name", .selected)])), ("x", .selected), ("author", .selected)]
    let data : Json := .obj [("author", .obj [("kind", .str "user"), ("login", .str "a")]), ("reviews", .arr [.obj [("id", .null)]])]
    let texts : Json := .obj [("author", .str "a"), ("reviews", .str "b")]
    first.distinct = true ∧ second.distinct = true ∧ first.same second = true ∧ first.Reordered second ∧
      (mask.Everywhere fun node => node.names.Nodup) ∧ (mask.narrow first).same (mask.narrow second) = true ∧
      (mask.narrow first).names = (mask.narrow second).names ∧ data.distinct = true ∧ texts.distinct = true ∧
      (∃ out other, first.dump data = .ok out ∧ second.dump data = .ok other ∧ SameData out other) ∧
      first.dump texts = .error (.inconsistent (some "author")) ∧
      second.dump texts = .error (.inconsistent (some "reviews")) := by
  intro user again own first second mask data texts
  have hf : first.distinct = true := by decide
  have hs : second.distinct = true := by decide
  have same : first.same second = true := by decide
  have hm : mask.Everywhere fun node => node.names.Nodup := by decide
  have hd : data.distinct = true := by decide
  obtain ⟨reordered, interchange⟩ := same_schema_interchangeable hf hs
  obtain ⟨narrowed, dumped⟩ := interchange same
  obtain ⟨left, names⟩ := narrowed mask hm
  have both := (dumped data hd).resolve_right fun ⟨_, _, refused, _⟩ => nomatch refused
  exact ⟨hf, hs, same, reordered.mp same, hm, left, names, hd, by decide, both, rfl, rfl⟩

-- The masks of raw fields are compared in order.
example :
    let x : Mask := .mk true [("a", .selected), ("b", .selected)]
    let y : Mask := .mk true [("b", .selected), ("a", .selected)]
    (Schema.mk "s" [("x", .raw none none (some x))]).same (.mk "s" [("x", .raw none none (some y))]) = false := by
  decide

end FieldMask
