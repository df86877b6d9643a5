import FieldMask.Schema.Narrow
import FieldMask.Proofs.Dumping
import FieldMask.Proofs.Nodes

/-! Narrowing a schema before the dump agrees with filtering what the schema dumps.

    The one walks the fields of the schema, the other the members that came out, so the two are compared entry
    by entry of the mask (`Mask.narrowFields_agrees`). They differ where a named field is missing: narrowing
    drops a field that the schema lacks, where filtering puts null or, if the mask skips, drops even a member
    that is null. `Agree exact` says whether such members count; a mask that is `Covered` gives no occasion
    for them. -/

namespace FieldMask

namespace Json

mutual

/-- The value without the members that are null, at every depth. -/
def withoutNulls : Json → Json
  | .arr items => .arr (itemsWithoutNulls items)
  | .obj members => .obj (membersWithoutNulls members)
  | value => value

/-- The items, each without the members that are null. -/
def itemsWithoutNulls : List Json → List Json
  | [] => []
  | item :: rest => item.withoutNulls :: itemsWithoutNulls rest

/-- The members that are not null, each without the members that are null. -/
def membersWithoutNulls : List (String × Json) → List (String × Json)
  | [] => []
  | (name, value) :: rest =>
    if value.isNull then membersWithoutNulls rest else (name, value.withoutNulls) :: membersWithoutNulls rest

end

/-- Whether two values agree: exactly, or else but for members that are null. -/
def Agree (exact : Bool) (first second : Json) : Prop :=
  if exact then first = second else first.withoutNulls = second.withoutNulls

/-- Whether two lists of members agree as objects do. -/
def AgreeMembers (exact : Bool) (first second : Fields Json) : Prop := Agree exact (.obj first) (.obj second)

end Json

/-- `LeadsTo field next`: the field is dumped through the schema, or through one of several that it is among. -/
inductive Field.LeadsTo : Field → Schema → Prop
  | related (next : Schema) (many : Bool) : LeadsTo (.related next many) next
  | variant (discriminator : String) {schemas : Fields Schema} {kind : String} {next : Schema} :
      (kind, next) ∈ schemas → LeadsTo (.variant discriminator schemas) next

/-- What holds of a schema whenever it holds of the schemas that its fields lead to holds of every schema. -/
theorem Schema.leadsInduction {motive : Schema → Prop}
    (step : ∀ name fields, (∀ name field next, (name, field) ∈ fields → field.LeadsTo next → motive next) →
      motive (.mk name fields)) : ∀ schema, motive schema
  | .mk name fields => step name fields fun _ field next _ _ => Schema.leadsInduction step next
termination_by schema => sizeOf schema
decreasing_by
  have inside := List.sizeOf_lt_of_mem ‹_ ∈ fields›
  have below : sizeOf next < sizeOf field := by
    cases ‹field.LeadsTo next› with
    | related next many =>
      simp only [Field.related.sizeOf_spec]
      omega
    | variant discriminator hm =>
      have := List.sizeOf_lt_of_mem hm
      simp only [Prod.mk.sizeOf_spec, Field.variant.sizeOf_spec] at this ⊢
      omega
  simp only [Prod.mk.sizeOf_spec, Schema.mk.sizeOf_spec] at inside ⊢
  omega

/-- Whether a nested mask can be put on a field before the dump as after it: the field is not plain, and not
    a raw one with a mask of its own. -/
def Field.takesMask : Field → Bool
  | .plain _ => false
  | .raw _ _ mask => mask.isNone
  | .related _ _ | .variant _ _ => true

/-- `Meets mask schema node met`: when the mask narrows the schema, the node of the mask narrows the schema
    `met`, which a field on the way leads to. -/
inductive Meets (mask : Mask) (schema : Schema) : Mask → Schema → Prop
  | root : Meets mask schema mask schema
  | through {node inner : Mask} {met next : Schema} {name : String} {field : Field} :
      Meets mask schema node met → (name, .nested inner) ∈ node.entries → met.find? name = some field →
      field.LeadsTo next → Meets mask schema inner next

/-- A mask can be put on a schema before the dump as after it: no node that meets a schema has the wildcard,
    and every field that a nested entry meets takes a mask. -/
structure Comparable (mask : Mask) (schema : Schema) : Prop where
  noWildcard : ∀ node met, Meets mask schema node met → node.hasWildcard = false
  takesMask : ∀ node met name inner field, Meets mask schema node met → (name, .nested inner) ∈ node.entries →
    met.find? name = some field → field.takesMask = true

/-- A mask leaves nothing to be filled in: no node skips, and every name of a node that meets a schema is one
    of its fields. -/
structure Covered (mask : Mask) (schema : Schema) : Prop where
  noSkip : ∀ node, mask.HasNode node → node.skip = false
  declared : ∀ node met, Meets mask schema node met → ∀ name ∈ node.names, name ∈ met.names

/-! ### Agreement of values -/

section Agree
variable {exact : Bool} {first second value : Json} {a b : Fields Json} {name : String}

namespace Json

theorem Agree.refl (exact : Bool) (value : Json) : Agree exact value value := by
  cases exact <;> simp [Agree]

theorem Agree.arr {items kept : List Json} (h : List.Forall₂ (Agree exact) items kept) :
    Agree exact (.arr items) (.arr kept) := by
  cases exact
  · suffices itemsWithoutNulls items = itemsWithoutNulls kept by simpa [Agree, withoutNulls] using this
    induction h with
    | nil => rfl
    | cons hf _ ih =>
      rw [itemsWithoutNulls, itemsWithoutNulls, ih]
      exact congrArg (· :: _) hf
  · suffices items = kept from this ▸ Agree.refl true _
    induction h with
    | nil => rfl
    | cons hf _ ih => exact congrArg₂ List.cons hf ih

theorem AgreeMembers.refl (exact : Bool) (members : Fields Json) : AgreeMembers exact members members := Agree.refl _ _

theorem isNull_withoutNulls (value : Json) : value.withoutNulls.isNull = value.isNull := by
  cases value <;> rfl

theorem Agree.isNull_eq (h : Agree exact first second) : first.isNull = second.isNull := by
  cases exact
  · rw [← isNull_withoutNulls first, ← isNull_withoutNulls second]
    exact congrArg isNull h
  · exact congrArg isNull h

theorem AgreeMembers.cons (h : Agree exact first second) (hr : AgreeMembers exact a b) :
    AgreeMembers exact ((name, first) :: a) ((name, second) :: b) := by
  have hn := h.isNull_eq
  cases exact
  · simp_all [AgreeMembers, Agree, withoutNulls, membersWithoutNulls]
  · simp_all [AgreeMembers, Agree]

theorem membersWithoutNulls_append (a b : Fields Json) :
    membersWithoutNulls (a ++ b) = membersWithoutNulls a ++ membersWithoutNulls b := by
  induction a with
  | nil => rfl
  | cons head rest ih =>
    obtain ⟨name, value⟩ := head
    rw [List.cons_append, membersWithoutNulls, membersWithoutNulls, ih]
    split <;> rfl

theorem AgreeMembers.append {a' b' : Fields Json} (h : AgreeMembers exact a b) (h' : AgreeMembers exact a' b') :
    AgreeMembers exact (a ++ a') (b ++ b') := by
  cases exact
  · simp_all [AgreeMembers, Agree, withoutNulls, membersWithoutNulls_append]
  · simp_all [AgreeMembers, Agree]

/-- Unless values are to agree exactly, a field that is missing on one side may be null on the other. -/
theorem AgreeMembers.missing_right (h : AgreeMembers false a b) (skip : Bool) :
    AgreeMembers false a (Mask.missing skip name ++ b) := by
  cases skip
  · simpa [Mask.missing, AgreeMembers, Agree, withoutNulls, membersWithoutNulls, isNull] using h
  · exact h

theorem AgreeMembers.null_left (h : AgreeMembers exact a b) {skip : Bool} (hs : exact = true → skip = false) :
    AgreeMembers exact ((name, .null) :: a) (Mask.missing skip name ++ b) := by
  cases skip
  · exact h.cons (.refl _ _)
  · cases exact
    · simpa [Mask.missing, AgreeMembers, Agree, withoutNulls, membersWithoutNulls, isNull] using h
    · cases hs rfl

end Json
end Agree

/-! ### Meeting -/

section Meets
variable {mask node inner : Mask} {schema met next : Schema}

theorem Meets.trans (h : Meets mask schema node met) (hi : Meets node met inner next) : Meets mask schema inner next := by
  induction hi with
  | root => exact h
  | through _ hm hf hl ih => exact ih.through hm hf hl

theorem Meets.hasNode (h : Meets mask schema node met) : mask.HasNode node := by
  induction h with
  | root => exact .root
  | through _ hm _ _ ih => exact ih.nested hm

/-- A node that meets a schema is the mask itself, or is met below one of its entries. -/
theorem Meets.cases_head (h : Meets mask schema node met) :
    (node = mask ∧ met = schema) ∨
    ∃ name inner field next, (name, .nested inner) ∈ mask.entries ∧ schema.find? name = some field ∧
      field.LeadsTo next ∧ Meets inner next node met := by
  induction h with
  | root => exact Or.inl ⟨rfl, rfl⟩
  | through _ hm hf hl ih =>
    rcases ih with ⟨rfl, rfl⟩ | ⟨name, first, field, next, hm', hf', hl', h⟩
    · exact Or.inr ⟨_, _, _, _, hm, hf, hl, .root⟩
    · exact Or.inr ⟨name, first, field, next, hm', hf', hl', h.through hm hf hl⟩

theorem Comparable.at (h : Comparable mask schema) (hm : Meets mask schema node met) : Comparable node met where
  noWildcard inner next hi := h.noWildcard inner next (hm.trans hi)
  takesMask inner next name below field hi := h.takesMask inner next name below field (hm.trans hi)

theorem Covered.at (h : Covered mask schema) (hm : Meets mask schema node met) : Covered node met where
  noSkip inner hi := h.noSkip inner (hm.hasNode.trans hi)
  declared inner next hi := h.declared inner next (hm.trans hi)

end Meets

/-! ### One field -/

/-- Narrowing a schema by a mask does to every record that it dumps what the mask does to the dump. -/
def Schema.NarrowsAlike (exact : Bool) (mask : Mask) (schema : Schema) : Prop :=
  ∀ record output, schema.dump record = .ok output →
    Alike (Json.Agree exact) ((mask.narrow schema).dump record) (mask.apply output)

section Field
variable {exact skip : Bool} {inner : Mask} {field : Field} {entry : Entry} {record : Fields Json} {name : String}
  {present : Option Json} {value : Json}

theorem Field.source_narrow (entry : Entry) (field : Field) (name : String) :
    (entry.narrow field).source name = field.source name := by
  cases entry <;> cases field <;> rfl

theorem Mask.narrowFields_eq_common (entries : Fields Entry) (fields : Fields Field) :
    Mask.narrowFields entries fields = Fields.common (fun field entry => entry.narrow field) fields entries := by
  induction entries with
  | nil => rfl
  | cons head rest ih =>
    obtain ⟨name, entry⟩ := head
    rw [Mask.narrowFields, Fields.common_cons, ih]
    cases Fields.find? fields name <;> rfl

theorem Schema.NarrowsAlike.items {next : Schema} (h : Schema.NarrowsAlike exact inner next) {items kept : List Json}
    (hi : List.Forall₂ (fun item item' => next.dump item = .ok item') items kept) :
    Alike (List.Forall₂ (Json.Agree exact)) (dumpItems (inner.narrow next).dump items)
      (Json.mapItems inner.filter kept) := by
  rw [Json.mapItems_eq_dumpItems]
  exact dumpItems_alike (hi.imp fun item item' hf => h item item' hf)

/-- A field that is null stays null when it is narrowed; of any other, narrowing makes what the mask does. -/
def Field.NarrowsAlike (exact : Bool) (inner : Mask) (field : Field) (present : Option Json) (value : Json) : Prop :=
  (value = .null ∧ ((Entry.nested inner).narrow field).dump present = .ok .null) ∨
  (value.isNull = false ∧
    Alike (Json.Agree exact) (((Entry.nested inner).narrow field).dump present) (inner.apply value))

theorem Field.narrowsAlike_raw {fallback : Option Json} {source : Option String}
    (hv : (Field.raw fallback source none).dump present = .ok value) :
    Field.NarrowsAlike exact inner (.raw fallback source none) present value := by
  have hv : (present.or fallback).getD .null = value := Except.ok.inj hv
  have hn : ((Entry.nested inner).narrow (.raw fallback source none)).dump present =
      if value.isNull then .ok value else inner.apply value := by
    rw [← hv]
    rfl
  rw [Field.NarrowsAlike, hn]
  cases hz : value.isNull with
  | true =>
    rw [Json.isNull_iff.mp hz]
    exact Or.inl ⟨rfl, rfl⟩
  | false => exact Or.inr ⟨rfl, .refl (Json.Agree.refl exact) _⟩

theorem Field.narrowsAlike_related {next : Schema} {many : Bool} (ih : Schema.NarrowsAlike exact inner next)
    (hv : (Field.related next many).dump present = .ok value) :
    Field.NarrowsAlike exact inner (.related next many) present value := by
  cases present with
  | none =>
    cases hv
    exact Or.inl ⟨rfl, rfl⟩
  | some data =>
    refine Or.inr ?_
    cases many with
    | false => exact ⟨Schema.isNull_dump hv, ih _ _ hv⟩
    | true =>
      obtain ⟨items, kept, rfl, rfl, hi⟩ := Field.dump_many_eq_ok hv
      exact ⟨rfl, (ih.items hi).map fun _ _ h => .arr h⟩

/-- The discriminator picks the same variant of a narrowed field, narrowed. -/
theorem Field.dump_narrow_variant {discriminator kind : String} {schemas : Fields Schema} {next : Schema} {data : Json}
    (hk : (data.member? discriminator).bind Json.text? = some kind) (hs : Fields.find? schemas kind = some next) :
    ((Entry.nested inner).narrow (.variant discriminator schemas)).dump (some data) = (inner.narrow next).dump data := by
  have hs' : Fields.find? (schemas.map fun field => (field.1, inner.narrow field.2)) kind =
      some (inner.narrow next) := by
    rw [Fields.find?_map, hs, Option.map_some]
  exact Field.dump_variant_some hk hs'

theorem Field.narrowsAlike_variant {discriminator : String} {schemas : Fields Schema}
    (ih : ∀ kind next, (kind, next) ∈ schemas → Schema.NarrowsAlike exact inner next)
    (hv : (Field.variant discriminator schemas).dump present = .ok value) :
    Field.NarrowsAlike exact inner (.variant discriminator schemas) present value := by
  cases present with
  | none =>
    cases hv
    exact Or.inl ⟨rfl, rfl⟩
  | some data =>
    obtain ⟨kind, next, hk, hs, hv⟩ := Field.dump_variant_eq_ok hv
    refine Or.inr ⟨Schema.isNull_dump hv, ?_⟩
    rw [Field.dump_narrow_variant hk hs]
    exact ih kind next (Fields.mem_of_find? hs) _ _ hv

theorem Field.narrowsAlike (ht : field.takesMask = true)
    (ih : ∀ next, field.LeadsTo next → Schema.NarrowsAlike exact inner next) (hv : field.dump present = .ok value) :
    Field.NarrowsAlike exact inner field present value := by
  cases field with
  | plain source => cases ht
  | raw fallback source mask =>
    cases mask with
    | none => exact Field.narrowsAlike_raw hv
    | some mask => cases ht
  | related next many => exact Field.narrowsAlike_related (ih next (.related next many)) hv
  | variant discriminator schemas =>
    exact Field.narrowsAlike_variant (fun kind next hm => ih next (.variant discriminator hm)) hv

/-- `Puts exact name kept field`: a member of the name and a list of members, at most one, put alike in front
    of members that agree. -/
def Puts (exact : Bool) (name : String) (kept : Json) (field : Fields Json) : Prop :=
  ∀ a b, Json.AgreeMembers exact a b → Json.AgreeMembers exact ((name, kept) :: a) (field ++ b)

/-- An entry makes of a field of the schema what it makes of the member that the field dumps to. -/
theorem Entry.narrow_agrees {members : Fields Json} (hs : exact = true → skip = false)
    (hf : ∀ inner, entry = .nested inner →
      field.takesMask = true ∧ ∀ next, field.LeadsTo next → Schema.NarrowsAlike exact inner next)
    (hm : Fields.find? members name = some value) (hv : field.dump present = .ok value) :
    Alike (Puts exact name) (atField name ((entry.narrow field).dump present)) (entry.filter skip members name) := by
  cases entry with
  | selected =>
    have hn : Entry.selected.narrow field = field := rfl
    rw [hn, hv, Entry.filter_selected hm]
    exact .ok fun _ _ h => h.cons (.refl _ _)
  | nested inner =>
    obtain ⟨ht, hl⟩ := hf inner rfl
    rcases Field.narrowsAlike ht hl hv with ⟨rfl, hn⟩ | ⟨hz, ha⟩
    · rw [hn, Entry.filter_nested_null hm]
      exact .ok fun _ _ h => h.null_left hs
    · rw [Entry.filter_nested hm hz]
      exact (ha.atField name).map_right fun _ _ hx _ _ h => h.cons hx

/-! ### All fields -/

/-- Narrowing some fields of a schema agrees with filtering the members that they dump to. -/
theorem Mask.narrowFields_agrees {fields : Fields Field} {members : Fields Json} {entries : List (String × Entry)}
    (hm : Schema.dumpFields record fields = .ok members)
    (hw : ∀ name ∈ Fields.names entries, name ≠ wildcard)
    (hs : exact = true → skip = false)
    (hd : exact = true → ∀ name ∈ Fields.names entries, name ∈ Fields.names fields)
    (hf : ∀ name inner field, (name, .nested inner) ∈ entries → Fields.find? fields name = some field →
      field.takesMask = true ∧ ∀ next, field.LeadsTo next → Schema.NarrowsAlike exact inner next) :
    Alike (Json.AgreeMembers exact) (Schema.dumpFields record (Mask.narrowFields entries fields))
      (Mask.filterEntries skip members entries) := by
  induction entries with
  | nil => exact .ok (.refl _ _)
  | cons head rest ih =>
    obtain ⟨name, entry⟩ := head
    have ihr := ih (fun name h => hw name (List.mem_cons_of_mem _ h))
      (fun he name h => hd he name (List.mem_cons_of_mem _ h))
      fun name inner field h => hf name inner field (List.mem_cons_of_mem _ h)
    have found := Schema.find?_dumpFields hm name
    rw [Mask.filterEntries_named (hw name List.mem_cons_self), Mask.narrowFields]
    cases hfd : Fields.find? fields name with
    | none =>
      -- narrowing drops the field, filtering puts null at most
      rw [hfd] at found
      have loose : exact = false := by
        refine Bool.eq_false_iff.mpr fun he => ?_
        have := (Fields.mem_names_iff_find? _ _).mp (hd he name List.mem_cons_self)
        simp [hfd] at this
      subst loose
      rw [Entry.filter_absent found, ok_bind]
      exact ihr.map_right fun _ _ h => h.missing_right skip
    | some field =>
      rw [hfd] at found
      obtain ⟨value, hv, hdump⟩ := found
      have head := Entry.narrow_agrees hs (fun inner he => hf name inner field (he ▸ List.mem_cons_self) hfd) hv hdump
      simp only
      rw [Schema.dumpFields, Field.source_narrow]
      exact head.bind fun _ _ hx => ihr.map fun _ _ h => hx _ _ h

end Field

/-! ### Whole records -/

/-- By induction on the mask: a field that takes a mask leads to schemas that its nested mask meets. -/
theorem Comparable.narrowsAlike {exact : Bool} {mask : Mask} {schema : Schema} (hc : Comparable mask schema)
    (hx : exact = true → Covered mask schema) : Schema.NarrowsAlike exact mask schema := by
  induction mask using Mask.nodeInduction generalizing schema with
  | step skip entries ih =>
    intro data output hdump
    obtain ⟨record, members, rfl, rfl, hm⟩ := Schema.dump_eq_ok hdump
    have hw := hc.noWildcard _ _ .root
    have ha : (Mask.mk skip entries).apply (.obj members) = Json.obj <$> Mask.filterEntries skip members entries :=
      congrArg (Json.obj <$> ·) (Mask.filter_eq_filterEntries hw members)
    have hn : ((Mask.mk skip entries).narrow schema).dump (.obj record) =
        Json.obj <$> Schema.dumpFields record (Mask.narrowFields entries schema.fields) := rfl
    rw [ha, hn]
    refine Alike.map ?_ fun _ _ h => h
    apply Mask.narrowFields_agrees hm
    · intro name h
      exact Mask.ne_wildcard hw h
    · intro he
      exact (hx he).noSkip _ .root
    · intro he
      exact (hx he).declared _ _ .root
    · intro name inner field hi hf
      refine ⟨hc.takesMask _ _ name inner field .root hi hf, fun next hl => ?_⟩
      have meets : Meets (.mk skip entries) schema inner next := .through .root hi hf hl
      exact ih name inner hi (hc.at meets) fun he => (hx he).at meets

/-- Narrowing a schema before the dump agrees with filtering the dump: the two are refused for the same reason,
    or they give values that differ in null members only. They are equal if the mask leaves nothing to be
    filled in. -/
theorem narrow_dump_agrees {mask : Mask} {schema : Schema} {data output : Json} (hc : Comparable mask schema)
    (hdump : schema.dump data = .ok output) :
    Alike (fun narrowed filtered => narrowed.withoutNulls = filtered.withoutNulls)
      ((mask.narrow schema).dump data) (mask.apply output) ∧
    (Covered mask schema → (mask.narrow schema).dump data = mask.apply output) := by
  constructor
  · have h : Schema.NarrowsAlike false mask schema := hc.narrowsAlike (by simp)
    exact h data output hdump
  · intro hx
    have h : Schema.NarrowsAlike true mask schema := hc.narrowsAlike fun _ => hx
    exact Alike.eq (h data output hdump)

/-- The mask `authors{name},id` on books with a list of authors. -/
theorem narrow_dump_agrees_on_list :
    let names : Mask := .mk false [("name", .selected)]
    let mask : Mask := .mk false [("authors", .nested names), ("id", .selected)]
    let author : Schema := .mk "author" [("name", .plain none), ("born", .plain none)]
    let schema : Schema := .mk "book" [("id", .plain (some "key")), ("authors", .related author true)]
    let data : Json := .obj [("key", .str "b"), ("authors", .arr [.obj [("name", .str "x"), ("born", .str "y")]])]
    let output : Json := .obj [("id", .str "b"), ("authors", .arr [.obj [("name", .str "x"), ("born", .str "y")]])]
    Comparable mask schema ∧ Covered mask schema ∧ schema.dump data = .ok output ∧
      (mask.narrow schema).dump data = mask.apply output := by
  intro names mask author schema data output
  have leaf {node : Mask} {met : Schema} (h : Meets names author node met) : node = names ∧ met = author := by
    rcases h.cases_head with h | ⟨name, inner, field, next, hm, _⟩
    · exact h
    · simp [names] at hm
  have meets {node : Mask} {met : Schema} (h : Meets mask schema node met) :
      (node = mask ∧ met = schema) ∨ (node = names ∧ met = author) := by
    rcases h.cases_head with h | ⟨name, inner, field, next, hm, hf, hl, h⟩
    · exact Or.inl h
    · obtain ⟨rfl, rfl⟩ : name = "authors" ∧ inner = names := by simpa [mask] using hm
      cases hf
      cases hl
      exact Or.inr (leaf h)
  have hc : Comparable mask schema := by
    constructor
    · intro node met h
      rcases meets h with ⟨rfl, rfl⟩ | ⟨rfl, rfl⟩ <;> decide
    · intro node met name inner field h hm hf
      rcases meets h with ⟨rfl, rfl⟩ | ⟨rfl, rfl⟩
      · obtain ⟨rfl, rfl⟩ : name = "authors" ∧ inner = names := by simpa [mask] using hm
        cases hf
        rfl
      · simp [names] at hm
  have hx : Covered mask schema := by
    constructor
    · intro node h
      have h : (mask.withSkip false).HasNode node := h
      exact Mask.skip_of_hasNode_withSkip h
    · intro node met h
      rcases meets h with ⟨rfl, rfl⟩ | ⟨rfl, rfl⟩ <;> decide
  have hdump : schema.dump data = .ok output := rfl
  exact ⟨hc, hx, hdump, (narrow_dump_agrees hc hdump).2 hx⟩

end FieldMask
