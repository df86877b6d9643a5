import FieldMask.Proofs.SameData

/-! The order of members in the data has no say in what comes out, but for its order. Both the entries of a mask and the
    fields of a schema are gone through in their own order, so on data that are the same the runs stay in step
    (`Json.InStep`) and are refused at the same place. Only the members that the wildcard adds follow the data, and of
    these it only counts which there are. -/

namespace FieldMask

open Json

mutual

/-- Whether a schema repeats no name: neither do its fields, nor the variants, fallbacks and masks in them, at any
    depth. -/
def Schema.distinct : Schema → Bool
  | .mk _ fields => decide (Fields.names fields).Nodup && Schema.distinctFields fields

/-- Whether this is so in each of the fields. -/
def Schema.distinctFields : List (String × Field) → Bool
  | [] => true
  | (_, field) :: rest => field.distinct && Schema.distinctFields rest

/-- Whether this is so in a field. -/
def Field.distinct : Field → Bool
  | .plain _ => true
  | .raw fallback _ mask =>
    fallback.all Json.distinct && mask.all fun mask => mask.allNodes fun node => decide node.names.Nodup
  | .related schema _ => schema.distinct
  | .variant _ schemas => decide (Fields.names schemas).Nodup && Field.distinctVariants schemas

/-- Whether this is so in each of the variants. -/
def Field.distinctVariants : List (String × Schema) → Bool
  | [] => true
  | (_, schema) :: rest => schema.distinct && Field.distinctVariants rest

end

/-! ### Schemas that repeat no name -/

section Distinct
variable {schema next : Schema} {fields : Fields Field} {schemas : Fields Schema} {field : Field} {name : String}

theorem Schema.distinctFields_iff : Schema.distinctFields fields = true ↔ ∀ field ∈ fields, field.2.distinct = true := by
  induction fields with
  | nil => simp [distinctFields]
  | cons head rest ih => rw [distinctFields, Bool.and_eq_true, ih, List.forall_mem_cons]

theorem Field.distinctVariants_iff :
    Field.distinctVariants schemas = true ↔ ∀ variant ∈ schemas, variant.2.distinct = true := by
  induction schemas with
  | nil => simp [distinctVariants]
  | cons head rest ih => rw [distinctVariants, Bool.and_eq_true, ih, List.forall_mem_cons]

theorem Schema.nodup_of_distinct (h : (Schema.mk name fields).distinct = true) : (Fields.names fields).Nodup := by
  rw [distinct, Bool.and_eq_true, decide_eq_true_iff] at h
  exact h.1

theorem Schema.distinct_field {first : String} (h : (Schema.mk first fields).distinct = true)
    (hm : (name, field) ∈ fields) : field.distinct = true := by
  rw [distinct, Bool.and_eq_true, distinctFields_iff] at h
  exact h.2 _ hm

theorem Field.distinct_next (h : field.distinct = true) (hl : field.LeadsTo next) : next.distinct = true := by
  cases hl with
  | related next many => exact h
  | variant discriminator hm =>
    rw [distinct, Bool.and_eq_true, distinctVariants_iff] at h
    exact h.2 _ hm

theorem Field.distinct_fallback {fallback : Json} {source : Option String} {mask : Option Mask}
    (h : (Field.raw (some fallback) source mask).distinct = true) : fallback.distinct = true := by
  rw [distinct, Bool.and_eq_true, Option.all_some] at h
  exact h.1

theorem Field.distinct_mask {fallback : Option Json} {source : Option String} {mask : Mask}
    (h : (Field.raw fallback source (some mask)).distinct = true) : mask.Everywhere fun node => node.names.Nodup := by
  rw [distinct, Bool.and_eq_true, Option.all_some, Mask.allNodes_iff] at h
  simpa only [decide_eq_true_eq] using h.2

end Distinct

/-! ### Masks -/

section Masks
variable {mask : Mask} {entry : Entry} {entries : Fields Entry} {skip : Bool} {first second named other : Fields Json}
  {names : List String} {name : String} {data again : Json}

theorem Mask.inStep_missing (skip : Bool) (name : String) :
    InStep [name] (Mask.missing skip name) (Mask.missing skip name) := by
  cases skip
  · exact .single name .null
  · exact .empty _

theorem Entry.filter_inStep (h : Option.Rel SameData (Fields.find? first name) (Fields.find? second name))
    (hi : ∀ inner, entry = .nested inner → ∀ value other, SameData value other →
      Alike SameData (inner.apply value) (inner.apply other)) :
    Alike (InStep [name]) (entry.filter skip first name) (entry.filter skip second name) := by
  rcases rel_iff.mp h with ⟨hf, hs⟩ | ⟨value, other, hf, hs, hd⟩
  · rw [Entry.filter_absent hf, Entry.filter_absent hs]
    exact .ok (Mask.inStep_missing skip name)
  cases entry with
  | selected =>
    rw [Entry.filter_selected hf, Entry.filter_selected hs]
    exact .ok (.single name hd)
  | nested inner =>
    cases hz : value.isNull with
    | true =>
      obtain rfl := Json.isNull_iff.mp hz
      obtain rfl := Json.isNull_iff.mp (hd.isNull_eq.symm.trans hz)
      rw [Entry.filter_nested_null hf, Entry.filter_nested_null hs]
      exact .ok (Mask.inStep_missing skip name)
    | false =>
      rw [Entry.filter_nested hf hz, Entry.filter_nested hs (hd.isNull_eq.symm.trans hz)]
      exact ((hi inner rfl value other hd).atField name).map fun _ _ hk => .single name hk

theorem Mask.filterEntries_inStep (hr : SameRecord first second)
    (hi : ∀ name inner, (name, .nested inner) ∈ entries → ∀ value other, SameData value other →
      Alike SameData (inner.apply value) (inner.apply other)) :
    Alike (InStep (Fields.names entries)) (filterEntries skip first entries) (filterEntries skip second entries) := by
  induction entries with
  | nil => exact .ok (.empty _)
  | cons head rest ih =>
    obtain ⟨name, entry⟩ := head
    have ih := ih fun name inner hm => hi name inner (List.mem_cons_of_mem _ hm)
    by_cases hw : name = wildcard
    · subst hw
      rw [filterEntries_wildcard, filterEntries_wildcard]
      exact ih.imp fun _ _ h => h.skip wildcard
    · rw [filterEntries_named hw, filterEntries_named hw]
      have here : Alike (InStep [name]) (entry.filter skip first name) (entry.filter skip second name) :=
        Entry.filter_inStep (hr.find? name) fun inner he => hi name inner (he ▸ List.mem_cons_self)
      exact here.bind fun _ _ hf => ih.map fun _ _ hr => hf.append hr

theorem Json.SameRecord.append_remaining (hn : names.Nodup) (hr : SameRecord first second)
    (h : InStep names named other) : SameRecord (named ++ Mask.remaining first named) (other ++ Mask.remaining second other) := by
  have nodup {record out : Fields Json} (hr : (Fields.names record).Nodup) (ho : (Fields.names out).Nodup) :
      (Fields.names (out ++ Mask.remaining record out)).Nodup := by
    rw [Fields.names, List.map_append]
    refine List.nodup_append.mpr ⟨ho, (List.filter_sublist.map _).nodup hr, fun name hm left hl same => ?_⟩
    obtain ⟨member, hleft, rfl⟩ := List.mem_map.mp hl
    have gone : (!Fields.contains out member.1) = true := (List.mem_filter.mp hleft).2
    rw [Fields.contains, (Fields.mem_names_iff_find? out member.1).mp (same ▸ hm)] at gone
    cases gone
  have same := h.sameRecord hn
  refine ⟨nodup hr.nodupFirst same.nodupFirst, nodup hr.nodupSecond same.nodupSecond, fun name => ?_⟩
  rw [Fields.find?_append, Fields.find?_append, Mask.find?_remaining, Mask.find?_remaining, h.contains_eq name]
  rcases rel_iff.mp (h.find? name) with ⟨hf, hs⟩ | ⟨value, again, hf, hs, hd⟩
  · simpa [Fields.contains, hf, hs] using hr.find? name
  · simpa [hf, hs] using hd

theorem Mask.filter_sameRecord (hn : mask.names.Nodup) (hr : SameRecord first second)
    (hi : ∀ name inner, (name, .nested inner) ∈ mask.entries → ∀ value other, SameData value other →
      Alike SameData (inner.apply value) (inner.apply other)) :
    Alike SameRecord (mask.filter first) (mask.filter second) := by
  obtain ⟨skip, entries⟩ := mask
  rw [filter, filter]
  refine (filterEntries_inStep hr hi).bind fun named other h => .ok ?_
  cases Fields.contains entries wildcard with
  | true => exact hr.append_remaining hn h
  | false => simpa using h.sameRecord hn

theorem Mask.apply_sameData (hd : mask.Everywhere fun node => node.names.Nodup) (h : SameData data again) :
    Alike SameData (mask.apply data) (mask.apply again) := by
  induction mask using nodeInduction generalizing data again with
  | step skip entries ihm =>
    -- an array leads to its items with the same mask, an object to its members with the masks nested in it
    induction data using Json.itemInduction generalizing again with
    | step data ihd =>
      rcases h.cases with ⟨items, others, rfl, rfl, hi⟩ | ⟨members, others, rfl, rfl, hr⟩ | ⟨rfl, hs⟩
      · rw [apply_arr, apply_arr]
        have each := ((List.forall₂_and_left items others).mpr ⟨ihd items rfl, hi⟩).imp fun _ _ ⟨ih, hd⟩ => ih hd
        exact (dumpItems_alike each).map fun _ _ hk => sameData_arr_iff.mpr hk
      · have filtered := filter_sameRecord hd.root hr fun name inner hm _ _ => ihm name inner hm (hd.below hm)
        exact Alike.map filtered fun _ _ hk => hk.sameData
      · rw [apply_scalar hs]
        exact .error _

end Masks

/-! ### Schemas -/

section Schemas
variable {schema : Schema} {fields : Fields Field} {field : Field} {first second : Fields Json} {value other : Option Json}
  {data again : Json}

theorem Json.SameRecord.present? (h : SameRecord first second) (name : String) :
    Option.Rel SameData (Fields.present? first name) (Fields.present? second name) := by
  rw [Fields.present?, Fields.present?]
  rcases rel_iff.mp (h.find? name) with ⟨hf, hs⟩ | ⟨value, other, hf, hs, hd⟩
  · rw [hf, hs]
    exact .none
  · rw [hf, hs, Option.filter_some, Option.filter_some, hd.isNull_eq]
    split
    · exact .some hd
    · exact .none

theorem getD_null_sameData (h : Option.Rel SameData value other) : SameData (value.getD .null) (other.getD .null) := by
  cases h with
  | none => exact .null
  | some hd => exact hd

theorem dumpRaw_sameData {fallback usual : Option Json} {mask : Option Mask}
    (hd : ∀ own, mask = some own → own.Everywhere fun node => node.names.Nodup) (hf : Option.Rel SameData fallback usual)
    (h : Option.Rel SameData value other) : Alike SameData (dumpRaw fallback mask value) (dumpRaw usual mask other) := by
  have used : SameData ((value.or fallback).getD .null) ((other.or usual).getD .null) := by
    cases h with
    | some hd => exact hd
    | none => exact getD_null_sameData hf
  cases mask with
  | none => exact .ok used
  | some own =>
    simp only [dumpRaw, ← used.isNull_eq]
    split
    · exact .ok used
    · exact Mask.apply_sameData (hd own rfl) used

theorem Field.dump_sameData (hk : field.distinct = true)
    (hl : ∀ next, field.LeadsTo next → ∀ data again, SameData data again →
      Alike SameData (next.dump data) (next.dump again))
    (h : Option.Rel SameData value other) : Alike SameData (field.dump value) (field.dump other) := by
  cases field with
  | plain source => exact .ok (getD_null_sameData h)
  | raw fallback source mask =>
    have same : Option.Rel SameData fallback fallback :=
      SameData.rel_refl fun _ he => Field.distinct_fallback (he ▸ hk)
    exact dumpRaw_sameData (fun own he => Field.distinct_mask (he ▸ hk)) same h
  | related next many =>
    rcases rel_iff.mp h with ⟨rfl, rfl⟩ | ⟨data, again, rfl, rfl, hd⟩
    · cases many <;> exact .ok .null
    cases many with
    | false => exact hl next (.related next false) data again hd
    | true =>
      rcases hd.cases with ⟨items, others, rfl, rfl, hi⟩ | ⟨_, _, rfl, rfl, -⟩ | ⟨rfl, hs⟩
      · exact (dumpItems_alike (hi.imp (hl next (.related next true)))).map fun _ _ hk => sameData_arr_iff.mpr hk
      · exact .error _
      · rw [Field.dump_noList next (by rintro _ rfl; cases hs)]
        exact .error _
  | variant discriminator schemas =>
    rcases rel_iff.mp h with ⟨rfl, rfl⟩ | ⟨data, again, rfl, rfl, hd⟩
    · exact .ok .null
    have kind : (data.member? discriminator).bind Json.text? = (again.member? discriminator).bind Json.text? := by
      rcases rel_iff.mp (hd.member? discriminator) with ⟨hf, hs⟩ | ⟨tag, same, hf, hs, ht⟩
      · rw [hf, hs]
      · rw [hf, hs]
        exact ht.text?_eq
    rw [Field.dump_variant, Field.dump_variant, ← kind]
    cases hv : ((data.member? discriminator).bind Json.text?).bind (Fields.find? schemas) with
    | none => exact .error _
    | some next =>
      obtain ⟨kind, -, hm⟩ := Option.bind_eq_some_iff.mp hv
      exact hl next (.variant discriminator (Fields.mem_of_find? hm)) data again hd

theorem Schema.dumpFields_inStep (h : ∀ name field, (name, field) ∈ fields →
      Alike SameData (field.dump (Fields.present? first (field.source name)))
        (field.dump (Fields.present? second (field.source name)))) :
    Alike (InStep (Fields.names fields)) (Schema.dumpFields first fields) (Schema.dumpFields second fields) := by
  induction fields with
  | nil => exact .ok (.empty _)
  | cons head rest ih =>
    obtain ⟨name, field⟩ := head
    have ih := ih fun name field hm => h name field (List.mem_cons_of_mem _ hm)
    rw [Schema.dumpFields, Schema.dumpFields]
    have here := (h name field List.mem_cons_self).atField name
    exact here.bind fun _ _ hd => ih.bind fun _ _ hr => .ok ((InStep.single name hd).append hr)

theorem Schema.dump_sameData (hk : schema.distinct = true) (h : SameData data again) :
    Alike SameData (schema.dump data) (schema.dump again) := by
  induction schema using leadsInduction generalizing data again with
  | step name fields ih =>
    rcases h.cases with ⟨items, others, rfl, rfl, -⟩ | ⟨members, others, rfl, rfl, hr⟩ | ⟨rfl, hs⟩
    · exact .error _
    · rw [dump_obj, dump_obj]
      have dumped : Alike (InStep (Fields.names fields)) (dumpFields members fields) (dumpFields others fields) := by
        refine dumpFields_inStep fun name field hm => ?_
        have hf := distinct_field hk hm
        refine Field.dump_sameData hf (fun next hl _ _ hd => ?_) (hr.present? _)
        exact ih name field next hm hl (Field.distinct_next hf hl) hd
      exact dumped.map fun _ _ hd => (hd.sameRecord (nodup_of_distinct hk)).sameData
    · rw [dump_other _ (by rintro _ rfl; cases hs)]
      exact .error _

end Schemas

/-- The order of members in the data does not matter. On data that are the same but for it, at every depth, every mask
    and every schema is refused for the same reason, or lets out the same but for the order of members. Data, masks and
    schemas repeat no name. -/
theorem member_order_irrelevant {data again : Json} (h : SameData data again) :
    (∀ mask : Mask, (mask.Everywhere fun node => node.names.Nodup) →
      Alike SameData (mask.apply data) (mask.apply again)) ∧
    ∀ schema : Schema, schema.distinct = true → Alike SameData (schema.dump data) (schema.dump again) :=
  ⟨fun _ hd => Mask.apply_sameData hd h, fun _ hk => Schema.dump_sameData hk h⟩

/-- The mask `posts{*,title},*` and a schema of users on two records whose members are permuted at both depths: what the
    wildcard adds follows the order of the data. -/
theorem member_order_irrelevant_in_list :
    let data : Json := .obj [("posts", .arr [.obj [("id", .null), ("at", .str "b"), ("title", .str "t")]]),
      ("name", .str "a")]
    let again : Json := .obj [("name", .str "a"),
      ("posts", .arr [.obj [("title", .str "t"), ("at", .str "b"), ("id", .null)]])]
    let post : Mask := .mk false [("*", .selected), ("title", .selected)]
    let mask : Mask := .mk true [("posts", .nested post), ("*", .selected)]
    let out : Json := .obj [("posts", .arr [.obj [("title", .str "t"), ("id", .null), ("at", .str "b")]]),
      ("name", .str "a")]
    let other : Json := .obj [("posts", .arr [.obj [("title", .str "t"), ("at", .str "b"), ("id", .null)]]),
      ("name", .str "a")]
    let schema : Schema := .mk "user" [("login", .plain (some "name")),
      ("posts", .related (.mk "post" [("title", .plain none)]) true),
      ("data", .raw (some (.obj [("x", .null)])) none (some mask))]
    let dumped : Json := .obj [("login", .str "a"), ("posts", .arr [.obj [("title", .str "t")]]),
      ("data", .obj [("x", .null)])]
    SameData data again ∧ (mask.Everywhere fun node => node.names.Nodup) ∧ schema.distinct = true ∧
      mask.apply data = .ok out ∧ mask.apply again = .ok other ∧ SameData out other ∧
      schema.dump data = .ok dumped ∧ ∃ dumped', schema.dump again = .ok dumped' ∧ SameData dumped dumped' := by
  intro data again post mask out other schema dumped
  have h : SameData data again := ⟨by decide, by decide, by decide⟩
  have hd : mask.Everywhere fun node => node.names.Nodup := by decide
  have hk : schema.distinct = true := by decide
  have hout : mask.apply data = .ok out := rfl
  have hother : mask.apply again = .ok other := rfl
  have hdumped : schema.dump data = .ok dumped := rfl
  obtain ⟨masks, schemas⟩ := member_order_irrelevant h
  have same : Alike SameData (.ok out) (.ok other) := hout ▸ hother ▸ masks mask hd
  have alike := schemas schema hk
  rw [hdumped] at alike
  generalize hagain : schema.dump again = result at alike
  cases same with
  | ok ho =>
    cases alike with
    | ok hs => exact ⟨h, hd, hk, hout, hother, ho, hdumped, _, rfl, hs⟩

end FieldMask
