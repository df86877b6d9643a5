import FieldMask.Proofs.Admission
import FieldMask.Proofs.Agreement

/-! What a narrowed schema exposes. Every field is dumped as before or through less of the schema it leads to,
    so no leaf comes out that the schema itself holds back (`narrow_exposes_no_more`). The masks of raw fields
    are the exception: a nested mask takes the place of the mask that the field has. It has to stay within that
    mask (`Mask.Within`), or else it brings back what the field held back (`raw_exposes_no_more_iff`). -/

namespace FieldMask

/-- Whether every path that a mask admits stays inside another mask. -/
def Mask.Within (inner own : Mask) : Prop := ∀ path, inner.admits path = true → (own.entryAt? path).isSome

/-- Whether every nested mask that takes the place of the mask of a raw field stays within that mask, when the
    mask narrows the schema. -/
def Respects (mask : Mask) (schema : Schema) : Prop :=
  ∀ node met name inner fallback source own, Meets mask schema node met → (name, .nested inner) ∈ node.entries →
    met.find? name = some (.raw fallback source (some own)) → inner.Within own

theorem Respects.at {mask node : Mask} {schema met : Schema} (h : Respects mask schema)
    (hm : Meets mask schema node met) : Respects node met := by
  intro inner next name below fallback source own hi
  exact h inner next name below fallback source own (hm.trans hi)

theorem respects_iff {mask : Mask} {schema : Schema} : Respects mask schema ↔
    ∀ name inner field, (name, .nested inner) ∈ mask.entries → schema.find? name = some field →
      (∀ fallback source own, field = .raw fallback source (some own) → inner.Within own) ∧
      ∀ next, field.LeadsTo next → Respects inner next := by
  constructor
  · intro h name inner field hm hf
    constructor
    · intro fallback source own he
      exact h mask schema name inner fallback source own .root hm (he ▸ hf)
    · intro next hl
      exact h.at (.through .root hm hf hl)
  · intro h node met name inner fallback source own hmeets hm hf
    rcases hmeets.cases_head with ⟨rfl, rfl⟩ | ⟨first, below, field, next, hm', hf', hl, hmeets⟩
    · exact (h name inner _ hm hf).1 fallback source own rfl
    · exact (h first below field hm' hf').2 next hl node met name inner fallback source own hmeets hm hf

/-! ### Leaves -/

namespace Json
variable {value kept : Json}

theorem leaves_subset_iff : kept.leaves ⊆ value.leaves ↔
    ∀ path leaf, leaf.isLeaf → kept.at? path = some leaf → value.at? path = some leaf :=
  ⟨fun h path leaf hl hk => (h (show (path, leaf) ∈ kept.leaves from ⟨hk, hl⟩)).1,
    fun h ⟨path, leaf⟩ ⟨hk, hl⟩ => ⟨h path leaf hl hk, hl⟩⟩

theorem leaves_obj_subset {before after : Fields Json} (h : ∀ name kept, Fields.find? after name = some kept →
    ∃ value, Fields.find? before name = some value ∧ kept.leaves ⊆ value.leaves) :
    (obj after).leaves ⊆ (obj before).leaves := by
  rw [leaves_subset_iff]
  intro path leaf hl ha
  cases path with
  | nil =>
    cases ha
    cases hl
  | cons step path =>
    cases step with
    | index place => cases ha
    | key name =>
      rw [at?_obj_key] at ha ⊢
      obtain ⟨kept, hk, ha⟩ := Option.bind_eq_some_iff.mp ha
      obtain ⟨value, hv, hs⟩ := h name kept hk
      rw [hv, Option.bind_some]
      exact leaves_subset_iff.mp hs path leaf hl ha

theorem leaves_arr_subset {items kept : List Json}
    (h : List.Forall₂ (fun item item' => item'.leaves ⊆ item.leaves) items kept) :
    (arr kept).leaves ⊆ (arr items).leaves := by
  rw [leaves_subset_iff]
  intro path leaf hl ha
  cases path with
  | nil =>
    cases ha
    cases hl
  | cons step path =>
    cases step with
    | key name => cases ha
    | index place =>
      rw [at?_arr_index] at ha ⊢
      obtain ⟨item', hk, ha⟩ := Option.bind_eq_some_iff.mp ha
      obtain ⟨hp, rfl⟩ := List.getElem?_eq_some_iff.mp hk
      obtain ⟨hlen, hg⟩ := List.forall₂_iff_get.mp h
      have hi : place < items.length := hlen ▸ hp
      rw [List.getElem?_eq_getElem hi, Option.bind_some]
      exact leaves_subset_iff.mp (hg place hi hp) path leaf hl ha

end Json

namespace Mask
variable {mask inner own : Mask} {data out : Json} {path : List Step}

theorem leaves_apply_subset (h : mask.apply data = .ok out) : out.leaves ⊆ data.leaves :=
  fun ⟨_, _⟩ hl => ((mem_leaves_apply_iff h).mp hl).1

/-- A leaf is where a mask that fits the value has nothing more to say, so it is admitted if the path to it
    stays inside the mask. -/
theorem admits_of_leaf (h : mask.apply data = .ok out) {leaf : Json} (hl : (path, leaf) ∈ data.leaves)
    (hs : (mask.entryAt? path).isSome) : mask.admits path = true := by
  rw [admits_iff]
  have hc := apply_carries h path
  match he : mask.entryAt? path with
  | none =>
    rw [he] at hs
    cases hs
  | some .selected => rfl
  | some (.nested below) =>
    rw [he] at hc
    exact absurd hl (not_leaf_of_nested hc leaf).1

/-- Of two masks that fit a value, one that stays within the other lets out no more. -/
theorem Within.leaves_subset (hw : inner.Within own) {full : Json} (hf : own.apply data = .ok full)
    (ho : inner.apply data = .ok out) : out.leaves ⊆ full.leaves := by
  rintro ⟨path, leaf⟩ hl
  obtain ⟨hd, ha⟩ := (mem_leaves_apply_iff ho).mp hl
  exact (mem_leaves_apply_iff hf).mpr ⟨hd, admits_of_leaf hf hd (hw path ha)⟩

end Mask

/-! ### One field -/

section Field
variable {inner : Mask} {field : Field} {present : Option Json} {full out : Json}

theorem Field.dump_raw (fallback : Option Json) (source : Option String) (mask : Option Mask) (present : Option Json) :
    (Field.raw fallback source mask).dump present =
      let value := (present.or fallback).getD .null
      if value.isNull then .ok value else
        match mask with
        | some mask => mask.apply value
        | none => .ok value := by
  cases mask with
  | none => exact (ite_self _).symm
  | some mask => rfl

theorem Field.leaves_raw_subset {fallback : Option Json} {source : Option String} {mask : Option Mask}
    (hw : ∀ own, mask = some own → inner.Within own) (hf : (Field.raw fallback source mask).dump present = .ok full)
    (ho : (Field.raw fallback source (some inner)).dump present = .ok out) : out.leaves ⊆ full.leaves := by
  rw [Field.dump_raw] at hf ho
  generalize (present.or fallback).getD .null = value at hf ho
  cases hz : value.isNull with
  | true =>
    simp only [hz, if_true] at hf ho
    cases hf
    cases ho
    exact subset_rfl
  | false =>
    simp only [hz, Bool.false_eq_true, if_false] at hf ho
    cases mask with
    | none =>
      cases hf
      exact Mask.leaves_apply_subset ho
    | some own => exact (hw own rfl).leaves_subset hf ho

/-- Narrowing a schema by a mask lets out no leaf that the schema itself does not. -/
def Schema.NeverWidens (mask : Mask) (schema : Schema) : Prop :=
  ∀ data full out, schema.dump data = .ok full → (mask.narrow schema).dump data = .ok out → out.leaves ⊆ full.leaves

theorem Schema.NeverWidens.items {next : Schema} (h : Schema.NeverWidens inner next) {items before after : List Json}
    (hb : List.Forall₂ (fun item item' => next.dump item = .ok item') items before)
    (ha : List.Forall₂ (fun item item' => (inner.narrow next).dump item = .ok item') items after) :
    List.Forall₂ (fun item item' => item'.leaves ⊆ item.leaves) before after := by
  induction hb generalizing after with
  | nil =>
    cases ha
    exact .nil
  | cons hf _ ih =>
    cases ha with
    | cons hn hr => exact .cons (h _ _ _ hf hn) (ih hr)

theorem Field.leaves_nested_subset
    (hw : ∀ fallback source own, field = .raw fallback source (some own) → inner.Within own)
    (ih : ∀ next, field.LeadsTo next → Schema.NeverWidens inner next) (hf : field.dump present = .ok full)
    (ho : ((Entry.nested inner).narrow field).dump present = .ok out) : out.leaves ⊆ full.leaves := by
  cases field with
  | plain source =>
    rw [show ((Entry.nested inner).narrow (.plain source)).dump present = (Field.plain source).dump present from rfl,
      hf] at ho
    cases ho
    exact subset_rfl
  | raw fallback source mask =>
    exact Field.leaves_raw_subset (fun own he => hw fallback source own (he ▸ rfl)) hf ho
  | related next many =>
    have ho : (Field.related (inner.narrow next) many).dump present = .ok out := ho
    cases present with
    | none =>
      cases hf
      cases ho
      exact subset_rfl
    | some data =>
      cases many with
      | false => exact ih next (.related next false) data full out hf ho
      | true =>
        obtain ⟨items, before, rfl, rfl, hb⟩ := Field.dump_many_eq_ok hf
        obtain ⟨items', after, heq, rfl, ha⟩ := Field.dump_many_eq_ok ho
        cases heq
        exact Json.leaves_arr_subset ((ih next (.related next true)).items hb ha)
  | variant discriminator schemas =>
    cases present with
    | none =>
      cases hf
      cases ho
      exact subset_rfl
    | some data =>
      obtain ⟨kind, next, hk, hs, hd⟩ := Field.dump_variant_eq_ok hf
      rw [Field.dump_narrow_variant hk hs] at ho
      exact ih next (.variant discriminator (Fields.mem_of_find? hs)) data full out hd ho

end Field

/-! ### Whole records -/

/-- A field of a narrowed schema is a field of the schema, narrowed as the entry of its name says. -/
theorem Mask.find?_narrowFields {entries : Fields Entry} {fields : Fields Field} {name : String} {narrowed : Field}
    (h : Fields.find? (Mask.narrowFields entries fields) name = some narrowed) :
    ∃ entry field, Fields.find? entries name = some entry ∧ Fields.find? fields name = some field ∧
      entry.narrow field = narrowed := by
  rw [Mask.narrowFields_eq_common, Fields.find?_common] at h
  obtain ⟨entry, he, h⟩ := Option.bind_eq_some_iff.mp h
  obtain ⟨field, hf, h⟩ := Option.map_eq_some_iff.mp h
  exact ⟨entry, field, he, hf, h⟩

/-- By induction on the mask: a nested entry leads to schemas that its mask meets. -/
theorem Respects.neverWidens {mask : Mask} {schema : Schema} (h : Respects mask schema) :
    Schema.NeverWidens mask schema := by
  induction mask using Mask.nodeInduction generalizing schema with
  | step skip entries ih =>
    intro data full out hfull hout
    obtain ⟨record, before, rfl, rfl, hb⟩ := Schema.dump_eq_ok hfull
    obtain ⟨record', after, heq, rfl, ha⟩ := Schema.dump_eq_ok hout
    cases heq
    refine Json.leaves_obj_subset fun name kept hk => ?_
    obtain ⟨narrowed, hn, hkept⟩ := Schema.dumped_field ha hk
    obtain ⟨entry, field, he, hf, rfl⟩ := Mask.find?_narrowFields hn
    obtain ⟨value, hv, hvalue⟩ := Schema.field_dumped hb hf
    rw [Field.source_narrow] at hkept
    refine ⟨value, hv, ?_⟩
    cases entry with
    | selected =>
      obtain rfl : value = kept := Except.ok.inj (hvalue.symm.trans hkept)
      exact subset_rfl
    | nested inner =>
      have hm : (name, .nested inner) ∈ entries := Fields.mem_of_find? he
      obtain ⟨hw, hr⟩ := respects_iff.mp h name inner field hm hf
      exact Field.leaves_nested_subset hw (fun next hl => ih name inner hm (hr next hl)) hvalue hkept

/-! ### What a replaced mask brings back -/

namespace Json
variable {leaf : Json}

/-- The value that holds nothing but a leaf, at the end of a path. -/
def along : List Step → Json → Json
  | [], leaf => leaf
  | .key name :: path, leaf => .obj [(name, along path leaf)]
  | .index place :: path, leaf => .arr (List.replicate (place + 1) (along path leaf))

theorem at?_along (path : List Step) (leaf : Json) : (along path leaf).at? path = some leaf := by
  induction path with
  | nil => exact at?_nil
  | cons step path ih =>
    cases step with
    | key name => simpa [along, Fields.find?] using ih
    | index place => simpa [along] using ih

theorem isNull_along (h : leaf.isNull = false) (path : List Step) : (along path leaf).isNull = false := by
  cases path with
  | nil => exact h
  | cons step path => cases step <;> rfl

end Json

namespace Mask
variable {mask : Mask} {leaf : Json}

theorem filterEntries_ok {skip : Bool} {record : Fields Json} {entries : List (String × Entry)}
    (h : ∀ name entry, (name, entry) ∈ entries → name ≠ wildcard →
      ∃ field, entry.filter skip record name = .ok field) :
    ∃ output, filterEntries skip record entries = .ok output := by
  induction entries with
  | nil => exact ⟨[], rfl⟩
  | cons head rest ih =>
    obtain ⟨name, entry⟩ := head
    obtain ⟨output, ho⟩ := ih fun name entry hm => h name entry (List.mem_cons_of_mem _ hm)
    by_cases hw : name = wildcard
    · subst hw
      exact ⟨output, by rw [filterEntries_wildcard, ho]⟩
    · obtain ⟨field, hf⟩ := h name entry List.mem_cons_self hw
      exact ⟨field ++ output, by rw [filterEntries_named hw, hf, ho]; rfl⟩

/-- A mask fits a value that holds nothing but a leaf, unless it wants to look inside the leaf. -/
theorem apply_along (hd : mask.Everywhere fun node => node.names.Nodup) (hl : leaf.isNull = false) (path : List Step)
    (hs : ∀ below, mask.entryAt? path ≠ some (.nested below)) : ∃ out, mask.apply (.along path leaf) = .ok out := by
  induction path generalizing mask with
  | nil => exact absurd rfl (hs mask)
  | cons step path ih =>
    cases step with
    | index place =>
      obtain ⟨out, ho⟩ := ih hd hs
      have hi : List.Forall₂ (fun item item' : Json => item.mapRecords mask.filter = .ok item')
          (List.replicate (place + 1) (.along path leaf)) (List.replicate (place + 1) out) := by
        generalize place + 1 = count
        induction count with
        | zero => exact .nil
        | succ count ihc => exact .cons ho ihc
      have ha : mask.apply (.along (.index place :: path) leaf) =
          Json.arr <$> Json.mapItems mask.filter (List.replicate (place + 1) (.along path leaf)) := rfl
      rw [Json.mapItems_eq_dumpItems, dumpItems_eq_ok_iff.mpr hi] at ha
      exact ⟨_, ha⟩
    | key name =>
      obtain ⟨skip, entries⟩ := mask
      obtain ⟨output, ho⟩ : ∃ output, filterEntries skip [(name, .along path leaf)] entries = .ok output := by
        refine filterEntries_ok fun said entry hm hw => ?_
        by_cases same : said = name
        · subst same
          have hv : Fields.find? [(said, Json.along path leaf)] said = some (.along path leaf) := by simp [Fields.find?]
          cases entry with
          | selected => exact ⟨_, Entry.filter_selected hv⟩
          | nested inner =>
            have he : (mk skip entries).entryAt? (.key said :: path) = inner.entryAt? path := by
              have hf : (mk skip entries).find? said = some (.nested inner) := Fields.find?_of_mem hd.root hm
              simp [entryAt?, entryFor?, hw, hf]
            obtain ⟨out, ho⟩ := ih (hd.below hm) (he ▸ hs)
            exact ⟨_, by rw [Entry.filter_nested hv (Json.isNull_along hl path), ho]; rfl⟩
        · have hv : Fields.find? [(name, Json.along path leaf)] said = none := by
            simp [Fields.find?, Ne.symm same]
          exact ⟨_, Entry.filter_absent hv⟩
      have ha : (mk skip entries).apply (.along (.key name :: path) leaf) =
          Json.obj <$> (mk skip entries).filter [(name, .along path leaf)] := rfl
      rw [filter, ho] at ha
      exact ⟨_, ha⟩

end Mask

/-- What a nested mask lets out of a raw field is never more than what the mask of the field let out, exactly
    if the nested mask stays within that mask. -/
theorem raw_exposes_no_more_iff {fallback : Option Json} {source : Option String} {own inner : Mask}
    (ho : own.Everywhere fun node => node.names.Nodup) (hi : inner.Everywhere fun node => node.names.Nodup) :
    (∀ present full out, (Field.raw fallback source (some own)).dump present = .ok full →
      ((Entry.nested inner).narrow (.raw fallback source (some own))).dump present = .ok out →
        out.leaves ⊆ full.leaves) ↔ inner.Within own := by
  constructor
  · intro h path ha
    by_contra hn
    have hn : own.entryAt? path = none := Option.not_isSome_iff_eq_none.mp hn
    -- a value with nothing but a leaf at the end of the path is let out by the one and held back by the other
    let value := Json.along path (.bool true)
    obtain ⟨full, hf⟩ : ∃ full, own.apply value = .ok full := Mask.apply_along ho rfl path fun below => by simp [hn]
    obtain ⟨out, hout⟩ : ∃ out, inner.apply value = .ok out :=
      Mask.apply_along hi rfl path fun below => by simp [Mask.admits_iff.mp ha]
    have hv : (path, Json.bool true) ∈ value.leaves := ⟨Json.at?_along path _, rfl⟩
    have hz : value.isNull = false := Json.isNull_along rfl path
    have dumped (mask : Mask) : (Field.raw fallback source (some mask)).dump (some value) = mask.apply value := by
      rw [Field.dump_raw, Option.some_or, Option.getD_some]
      simp only [hz, Bool.false_eq_true, if_false]
    have hs : out.leaves ⊆ full.leaves := h (some value) full out ((dumped own).trans hf) ((dumped inner).trans hout)
    have hl := hs ((Mask.mem_leaves_apply_iff hout).mpr ⟨hv, ha⟩)
    have hown := Mask.admits_iff.mp ((Mask.mem_leaves_apply_iff hf).mp hl).2
    rw [hn] at hown
    cases hown
  · intro hw present full out hf hout
    exact Field.leaves_raw_subset (fun _ he => Option.some.inj he ▸ hw) hf hout

/-- A schema narrowed by a mask that respects the masks of its raw fields lets out only leaves that the schema
    itself lets out of the same record, at the same places. -/
theorem narrow_exposes_no_more {mask : Mask} {schema : Schema} {data full out : Json} (h : Respects mask schema)
    (hfull : schema.dump data = .ok full) (hout : (mask.narrow schema).dump data = .ok out) :
    out.leaves ⊆ full.leaves :=
  h.neverWidens data full out hfull hout

/-- Events in a list, whose raw field lets out `a` and `b`, narrowed to `a`. -/
theorem narrow_exposes_no_more_in_list :
    let own : Mask := .mk false [("a", .selected), ("b", .selected)]
    let inner : Mask := .mk true [("a", .selected)]
    let event : Schema := .mk "event" [("payload", .raw none (some "data") (some own)), ("at", .plain none)]
    let schema : Schema := .mk "log" [("events", .related event true)]
    let mask : Mask := .mk false [("events", .nested (.mk false [("payload", .nested inner)]))]
    let data : Json := .obj [("events", .arr [.obj [("at", .str "now"),
      ("data", .arr [.obj [("c", .bool true), ("a", .str "x")], .obj [("b", .str "y")]])]])]
    let full : Json := .obj [("events", .arr [.obj [("payload", .arr [.obj [("a", .str "x"), ("b", .null)],
      .obj [("a", .null), ("b", .str "y")]]), ("at", .str "now")]])]
    let out : Json := .obj [("events", .arr [.obj [("payload", .arr [.obj [("a", .str "x")], .obj []])]])]
    Respects mask schema ∧ schema.dump data = .ok full ∧ (mask.narrow schema).dump data = .ok out ∧
      out.leaves ⊆ full.leaves := by
  intro own inner event schema mask data full out
  have within : inner.Within own := by
    intro path ha
    induction path with
    | nil => cases ha
    | cons step path ih =>
      cases step with
      | index place => exact ih ha
      | key name =>
        by_cases hn : name = "a"
        · subst hn
          rfl
        · simp [inner, Mask.admits, Mask.find?, Mask.hasWildcard, Mask.contains, Fields.contains, Fields.find?, wildcard,
            Ne.symm hn] at ha
  have records : Respects (.mk false [("payload", .nested inner)]) event := by
    refine respects_iff.mpr fun name below field hm hf => ?_
    obtain ⟨rfl, rfl⟩ : name = "payload" ∧ below = inner := by simpa using hm
    cases hf
    constructor
    · intro fallback source other he
      cases he
      exact within
    · intro next hl
      cases hl
  have respects : Respects mask schema := by
    refine respects_iff.mpr fun name below field hm hf => ?_
    obtain ⟨rfl, rfl⟩ : name = "events" ∧ below = .mk false [("payload", .nested inner)] := by simpa [mask] using hm
    cases hf
    constructor
    · intro fallback source other he
      cases he
    · intro next hl
      cases hl
      exact records
  have hfull : schema.dump data = .ok full := rfl
  have hout : (mask.narrow schema).dump data = .ok out := rfl
  exact ⟨respects, hfull, hout, narrow_exposes_no_more respects hfull hout⟩

/-- A raw field that holds back all but `a` is narrowed by `payload{a,b}`: now `b` comes out. -/
theorem narrow_brings_back :
    let own : Mask := .mk true [("a", .selected)]
    let schema : Schema := .mk "event" [("payload", .raw none none (some own))]
    let mask : Mask := .mk true [("payload", .nested (.mk true [("a", .selected), ("b", .selected)]))]
    let data : Json := .obj [("payload", .obj [("a", .bool true), ("b", .bool false)])]
    ∃ full out, schema.dump data = .ok full ∧ (mask.narrow schema).dump data = .ok out ∧
      ([.key "payload", .key "b"], .bool false) ∈ out.leaves ∧
      ([.key "payload", .key "b"], .bool false) ∉ full.leaves := by
  intro own schema mask data
  refine ⟨.obj [("payload", .obj [("a", .bool true)])], data, rfl, rfl, ⟨rfl, rfl⟩, ?_⟩
  rintro ⟨held, _⟩
  cases held

end FieldMask
