import FieldMask.Proofs.Relevance
import FieldMask.Proofs.Wildcard

/-! What a narrowed schema holds, place by place. A place in a schema is named by the fields on the way to it, and
    for the fields that have variants by their kinds (`Schema.at?`). At every place of a narrowed schema stands the
    schema that stood there, narrowed by the node of the mask that its names lead to (`Mask.at?_narrow`).

    Data pass a mask with the wildcard in whole; a schema does not. To it the wildcard is the name of a field, which
    may well be declared but hardly ever is, so what is not named is lost. -/

namespace FieldMask

/-- A step from a schema into one that a field leads to: the name of the field, and the kind if it has variants. -/
structure Hop where
  field : String
  kind : Option String := none
deriving DecidableEq, Inhabited, Repr

/-- The schema that a field leads to: its only one, or its variant of the given kind. -/
def Field.next? : Field → Option String → Option Schema
  | .related next _, none => some next
  | .variant _ schemas, some kind => Fields.find? schemas kind
  | _, _ => none

/-- The schema that stands at a place of a schema. -/
def Schema.at? (schema : Schema) : List Hop → Option Schema
  | [] => some schema
  | hop :: place => ((schema.find? hop.field).bind (·.next? hop.kind)).bind (·.at? place)

/-- What a mask says about the schema at a place. Under a field taken whole everything is taken whole, and under a
    field that is not named nothing is said, be it with the wildcard or without. -/
def Mask.saysAt? (mask : Mask) : List Hop → Option Entry
  | [] => some (.nested mask)
  | hop :: place =>
    match mask.find? hop.field with
    | some .selected => some .selected
    | some (.nested inner) => inner.saysAt? place
    | none => none

/-- The schema narrowed as an entry says. -/
def Entry.narrowSchema : Entry → Schema → Schema
  | .selected, schema => schema
  | .nested mask, schema => mask.narrow schema

/-! ### One schema -/

section Narrow
variable {mask inner : Mask} {schema : Schema} {entry : Entry} {name : String}

theorem Mask.fields_narrow (mask : Mask) (schema : Schema) : (mask.narrow schema).fields =
    Fields.common (fun field entry => entry.narrow field) schema.fields mask.entries := by
  cases mask
  exact Mask.narrowFields_eq_common _ _

theorem Mask.find?_narrow (mask : Mask) (schema : Schema) (name : String) : (mask.narrow schema).find? name =
    (mask.find? name).bind fun entry => (schema.find? name).map entry.narrow := by
  rw [Schema.find?, Mask.fields_narrow, Fields.find?_common]
  rfl

/-- The fields of a narrowed schema are those that both name, in the order of the mask. -/
theorem Mask.names_narrow (mask : Mask) (schema : Schema) :
    (mask.narrow schema).names = mask.names.filter fun name => name ∈ schema.names := by
  rw [Schema.names, Mask.fields_narrow, Fields.names_common]
  refine List.filter_congr fun name _ => ?_
  rw [Bool.eq_iff_iff, decide_eq_true_iff]
  exact (Fields.mem_names_iff_find? _ _).symm

/-- Unless the schema has a field of that name, the wildcard is as good as left out. -/
theorem Mask.narrow_withoutWildcard (h : wildcard ∉ schema.names) :
    mask.withoutWildcard.narrow schema = mask.narrow schema := by
  have absent : Fields.find? schema.fields wildcard = none := Fields.find?_eq_none_iff.mpr h
  obtain ⟨skip, entries⟩ := mask
  refine congrArg schema.withFields ?_
  rw [narrowFields_eq_common, narrowFields_eq_common]
  refine Fields.common_filter _ fun field _ gone => ?_
  have hw : field.1 = wildcard := by simpa using gone
  rw [hw, absent]

/-! ### Every place -/

theorem Field.next?_narrow (inner : Mask) (field : Field) (kind : Option String) :
    ((Entry.nested inner).narrow field).next? kind = (field.next? kind).map inner.narrow := by
  cases field with
  | plain source => cases kind <;> rfl
  | raw fallback source mask => cases kind <;> rfl
  | related next many => cases kind <;> rfl
  | variant discriminator schemas =>
    cases kind with
    | none => rfl
    | some kind => exact Fields.find?_map inner.narrow schemas kind

/-- At every place of a narrowed schema stands what stood there, narrowed as the mask says about the place. -/
theorem Mask.at?_narrow (mask : Mask) (schema : Schema) (place : List Hop) : (mask.narrow schema).at? place =
    (mask.saysAt? place).bind fun entry => (schema.at? place).map entry.narrowSchema := by
  induction place generalizing mask schema with
  | nil => rfl
  | cons hop place ih =>
    rw [Schema.at?, Schema.at?, Mask.find?_narrow, Mask.saysAt?]
    cases hm : mask.find? hop.field with
    | none => rfl
    | some entry =>
      cases hf : schema.find? hop.field with
      | none => cases entry <;> simp
      | some field =>
        cases entry with
        | selected =>
          have whole : Entry.selected.narrowSchema = id := rfl
          simp only [Option.bind_some, Option.map_some, whole, Option.map_id]
          rfl
        | nested inner =>
          simp only [Option.bind_some, Option.map_some, Field.next?_narrow]
          cases field.next? hop.kind with
          | none => simp
          | some next => exact ih inner next

/-! ### What comes out -/

/-- What comes out of a dump has the names of the schema. -/
theorem Schema.names_dump {data out : Json} (h : schema.dump data = .ok out) :
    ∃ members, out = .obj members ∧ Fields.names members = schema.names := by
  obtain ⟨record, members, rfl, rfl, hm⟩ := Schema.dump_eq_ok h
  exact ⟨members, rfl, (Schema.dumpFields_eq_ok_iff.mp hm).1⟩

/-- With the wildcard, what the mask does not name stays as it is. -/
theorem Mask.find?_filter_unnamed {record output : Fields Json} (hw : mask.hasWildcard = true) (hn : name ∉ mask.names)
    (h : mask.filter record = .ok output) : Fields.find? output name = Fields.find? record name := by
  have unnamed : Fields.find? mask.entries name = none := Fields.find?_eq_none_iff.mpr hn
  obtain ⟨skip, entries⟩ := mask
  have hc : Fields.contains entries wildcard = true := hw
  rw [filter, hc] at h
  obtain ⟨named, hf, rfl⟩ := map_eq_ok_iff.mp h
  have gone := find?_filterEntries_unnamed hf (Or.inr unnamed)
  simp [Fields.find?_append, find?_remaining, Fields.contains, gone]

end Narrow

/-- To a schema the wildcard is a name like any other. Wherever a node of the mask meets a schema, the fields remain
    that both name, in the order of the mask and each narrowed as its entry says, and no other; unless the wildcard is
    declared itself, the mask without it leaves the same. So a dump has those names and no other, where the node, put on
    the full dump, lets through what it does not name. -/
theorem narrow_keeps_only_named {mask node : Mask} {schema met : Schema} {place : List Hop}
    (hn : mask.saysAt? place = some (.nested node)) (hm : schema.at? place = some met) :
    ∃ kept, (mask.narrow schema).at? place = some kept ∧
      kept.names = node.names.filter (fun name => name ∈ met.names) ∧
      (∀ name, kept.find? name = (node.find? name).bind fun entry => (met.find? name).map entry.narrow) ∧
      (wildcard ∉ met.names → kept = node.withoutWildcard.narrow met) ∧
      (∀ data out, kept.dump data = .ok out →
        ∃ members, out = .obj members ∧ Fields.names members = node.names.filter fun name => name ∈ met.names) ∧
      (node.hasWildcard = true → ∀ data full out, met.dump data = .ok full → node.apply full = .ok out →
        ∀ name ∈ met.names, name ∉ node.names →
          ∃ value, full.member? name = some value ∧ out.member? name = some value) := by
  refine ⟨node.narrow met, ?_, Mask.names_narrow node met, Mask.find?_narrow node met, ?_, ?_, ?_⟩
  · rw [Mask.at?_narrow, hn, hm]
    rfl
  · exact fun h => (Mask.narrow_withoutWildcard h).symm
  · intro data out h
    rw [← Mask.names_narrow]
    exact Schema.names_dump h
  · intro hw data full out hfull hout name hd hu
    obtain ⟨members, rfl, hnames⟩ := Schema.names_dump hfull
    obtain ⟨output, ho, rfl⟩ := map_eq_ok_iff.mp (show Json.obj <$> node.filter members = .ok out from hout)
    obtain ⟨value, hv⟩ := Option.isSome_iff_exists.mp ((Fields.mem_names_iff_find? members name).mp (hnames ▸ hd))
    exact ⟨value, hv, (Mask.find?_filter_unnamed hw hu ho).trans hv⟩

/-- The mask `actor{*,name,x},*` on feeds: of the user that acts the name is kept, and neither its key nor its age. -/
theorem narrow_keeps_only_named_in_variant :
    let user : Schema := .mk "user" [("id", .plain none), ("name", .plain (some "login")), ("age", .plain none)]
    let schema : Schema := .mk "feed" [("id", .plain none), ("actor", .variant "kind" [("bot", .mk "bot" []), ("user", user)])]
    let node : Mask := .mk true [("*", .selected), ("name", .selected), ("x", .selected)]
    let mask : Mask := .mk false [("actor", .nested node), ("*", .selected)]
    let data : Json := .obj [("login", .str "a"), ("age", .null)]
    let full : Json := .obj [("id", .null), ("name", .str "a"), ("age", .null)]
    let out : Json := .obj [("name", .str "a"), ("id", .null), ("age", .null)]
    mask.saysAt? [⟨"actor", some "user"⟩] = some (.nested node) ∧ schema.at? [⟨"actor", some "user"⟩] = some user ∧
      ∃ kept, (mask.narrow schema).at? [⟨"actor", some "user"⟩] = some kept ∧ kept.names = ["name"] ∧
        kept.find? "name" = some (.plain (some "login")) ∧ kept = node.withoutWildcard.narrow user ∧
        kept.dump data = .ok (.obj [("name", .str "a")]) ∧ user.dump data = .ok full ∧ node.apply full = .ok out ∧
        out.member? "age" = some .null := by
  intro user schema node mask data full out
  have hn : mask.saysAt? [⟨"actor", some "user"⟩] = some (.nested node) := rfl
  have hm : schema.at? [⟨"actor", some "user"⟩] = some user := rfl
  have hfull : user.dump data = .ok full := rfl
  have hout : node.apply full = .ok out := rfl
  obtain ⟨kept, hk, names, find, without, -, unnamed⟩ := narrow_keeps_only_named hn hm
  obtain rfl := without (by decide)
  obtain ⟨value, hv, ho⟩ := unnamed rfl data full out hfull hout "age" (by decide) (by decide)
  obtain rfl : .null = value := Option.some.inj hv
  exact ⟨hn, hm, _, hk, names, find "name", rfl, rfl, hfull, hout, ho⟩

/-- The mask `*` lets the dump of a user pass, but of the schema of users it leaves no field, so nothing is dumped. -/
theorem narrow_loses_unnamed :
    let schema : Schema := .mk "user" [("id", .plain none), ("name", .plain none)]
    let mask : Mask := .mk false [("*", .selected)]
    let data : Json := .obj [("id", .num ⟨1, 0⟩), ("name", .str "a")]
    mask.hasWildcard = true ∧ schema.dump data = .ok data ∧ mask.apply data = .ok data ∧
      ¬ (∀ name ∈ schema.names, name ∈ (mask.narrow schema).names) ∧ (mask.narrow schema).dump data = .ok (.obj []) := by
  intro schema mask data
  refine ⟨rfl, rfl, rfl, fun all => ?_, rfl⟩
  exact List.not_mem_nil (all "id" (by decide))

end FieldMask
