import FieldMask.Proofs.Meet
import FieldMask.Proofs.Narrowing

/-! One mask after another narrows a schema as their meet does at once, order included (`Mask.narrow_narrow`). Only a
    raw field stands in the way: it bears one mask, so of two that are nested for it the second takes the place of the
    first, where the meet would join them (`Clash`). The same mask twice puts the same mask there, and it is its own
    meet, so the second time changes nothing. -/

namespace FieldMask

/-- `Clash first second schema outer inner`: at one place of the schema, which both masks reach through nested entries,
    the masks nest `outer` and `inner` for the same raw field. -/
inductive Clash : Mask → Mask → Schema → Mask → Mask → Prop
  | here {first second outer inner : Mask} {schema : Schema} {name : String} {fallback : Option Json}
      {source : Option String} {mask : Option Mask} : (name, .nested outer) ∈ first.entries →
      (name, .nested inner) ∈ second.entries → schema.find? name = some (.raw fallback source mask) →
      Clash first second schema outer inner
  | through {first second one two outer inner : Mask} {schema next : Schema} {name : String} {field : Field} :
      (name, .nested one) ∈ first.entries → (name, .nested two) ∈ second.entries → schema.find? name = some field →
      field.LeadsTo next → Clash one two next outer inner → Clash first second schema outer inner

section Compose
variable {mask first second outer inner : Mask} {schema : Schema} {field : Field}

/-! ### A mask and itself -/

/-- By induction on the mask: what an entry nests is its own meet. -/
theorem Mask.meet_self (hd : mask.Everywhere fun node => node.names.Nodup) : mask.meet mask = mask := by
  induction mask using nodeInduction with
  | step skip entries ih =>
    rw [meet, meetEntries_eq_common, entries_mk]
    refine congrArg (mk skip) (Fields.common_eq_self fun name entry hm => ⟨entry, Fields.find?_of_mem hd.root hm, ?_⟩)
    cases entry with
    | selected => rfl
    | nested inner => rw [Entry.meet, ih name inner hm (hd.below hm)]

/-- If no name is given twice, a mask clashes with itself in equal masks only. -/
theorem Clash.meet_of_eq (h : Clash first second schema outer inner) (same : first = second)
    (hd : second.Everywhere fun node => node.names.Nodup) : outer.meet inner = inner := by
  have one {mask left right : Mask} {name : String} (hd : mask.Everywhere fun node => node.names.Nodup)
      (hl : (name, .nested left) ∈ mask.entries) (hr : (name, .nested right) ∈ mask.entries) : left = right := by
    have found := (Fields.find?_of_mem hd.root hl).symm.trans (Fields.find?_of_mem hd.root hr)
    exact Entry.nested.inj (Option.some.inj found)
  induction h with
  | here ho hi _ =>
    subst same
    rw [one hd ho hi, Mask.meet_self (hd.below hi)]
  | through ho hi _ _ _ ih =>
    subst same
    exact ih (one hd ho hi) (hd.below hi)

/-! ### One field and one schema -/

/-- The second mask does to a field what is left of it in the meet, if it does so to the schemas that the field leads
    to and adds nothing to the mask that the first has left on it. -/
theorem Field.narrow_narrow
    (hr : ∀ fallback source mask, field = .raw fallback source mask → outer.meet inner = inner)
    (hl : ∀ next, field.LeadsTo next → inner.narrow (outer.narrow next) = (outer.meet inner).narrow next) :
    (Entry.nested inner).narrow ((Entry.nested outer).narrow field) = (Entry.nested (outer.meet inner)).narrow field := by
  cases field with
  | plain source => rfl
  | raw fallback source mask =>
    rw [hr fallback source mask rfl]
    rfl
  | related next many => exact congrArg (Field.related · many) (hl next (.related next many))
  | variant discriminator schemas =>
    refine congrArg (Field.variant discriminator) ((List.map_map).trans (List.map_congr_left fun head hm => ?_))
    obtain ⟨kind, next⟩ := head
    exact congrArg (Prod.mk kind) (hl next (.variant discriminator hm))

/-- By induction on the second mask: an entry that both nest leads to a mask nested in each, and the schemas of the
    field to where these two clash. -/
theorem Mask.narrow_narrow (h : ∀ outer inner, Clash first second schema outer inner → outer.meet inner = inner) :
    second.narrow (first.narrow schema) = (first.meet second).narrow schema := by
  induction second using nodeInduction generalizing first schema with
  | step skip entries ih =>
    obtain ⟨_, said⟩ := first
    refine congrArg schema.withFields ?_
    rw [narrowFields_eq_common, narrowFields_eq_common, fields_narrow, meetEntries_eq_common]
    refine Fields.common_common fun name field first last hf ho hi => ?_
    cases last with
    | selected =>
      rw [Entry.meet_selected]
      rfl
    | nested inner =>
      cases first with
      | selected => rfl
      | nested outer =>
        refine Field.narrow_narrow (fun fallback source mask hr => ?_) fun next hl => ?_
        · exact h outer inner (.here (Fields.mem_of_find? ho) hi (hr ▸ hf))
        · exact ih name inner hi fun _ _ clash => h _ _ (.through (Fields.mem_of_find? ho) hi hf hl clash)

end Compose

/-- A schema narrowed by a mask is not changed by the same mask again. Narrowed by one mask and then by another, it has
    the fields that both name, in the order of the second, and is what their meet makes of it, unless both nest a mask
    for the same raw field. -/
theorem narrow_composes (first second : Mask) (schema : Schema) :
    ((first.Everywhere fun node => node.names.Nodup) → first.narrow (first.narrow schema) = first.narrow schema) ∧
    (second.narrow (first.narrow schema)).names =
      second.names.filter (fun name => name ∈ first.names ∧ name ∈ schema.names) ∧
    ((∀ outer inner, ¬ Clash first second schema outer inner) →
      second.narrow (first.narrow schema) = (first.meet second).narrow schema) := by
  refine ⟨fun hd => ?_, ?_, fun none => ?_⟩
  · rw [Mask.narrow_narrow fun _ _ clash => clash.meet_of_eq rfl hd, Mask.meet_self hd]
  · rw [Mask.names_narrow, Mask.names_narrow]
    simp only [List.mem_filter, decide_eq_true_eq]
  · exact Mask.narrow_narrow fun outer inner clash => absurd clash (none outer inner)

/-- The masks `payload{a},actor{name,data{b},id},events` and `events{at},actor{data,name},x,payload` on feeds. Each
    nests a mask for a raw field, and there the other takes it whole. -/
theorem narrow_composes_in_variants :
    let user : Schema := .mk "user" [("id", .plain none), ("name", .plain none), ("data", .raw none none none)]
    let bot : Schema := .mk "bot" [("data", .raw none (some "log") none)]
    let event : Schema := .mk "event" [("id", .plain none), ("at", .plain none)]
    let schema : Schema := .mk "feed" [("events", .related event true), ("payload", .raw none none none),
      ("actor", .variant "kind" [("user", user), ("bot", bot)])]
    let deep : Mask := .mk true [("b", .selected)]
    let people : Mask := .mk false [("name", .selected), ("data", .nested deep), ("id", .selected)]
    let first : Mask := .mk false [("payload", .nested (.mk false [("a", .selected)])), ("actor", .nested people),
      ("events", .selected)]
    let second : Mask := .mk true [("events", .nested (.mk true [("at", .selected)])),
      ("actor", .nested (.mk true [("data", .selected), ("name", .selected)])), ("x", .selected), ("payload", .selected)]
    let joint : Mask := .mk true [("events", .nested (.mk true [("at", .selected)])),
      ("actor", .nested (.mk true [("data", .nested deep), ("name", .selected)])),
      ("payload", .nested (.mk false [("a", .selected)]))]
    (first.Everywhere fun node => node.names.Nodup) ∧ (∀ outer inner, ¬ Clash first second schema outer inner) ∧
      first.meet second = joint ∧ first.narrow (first.narrow schema) = first.narrow schema ∧
      (second.narrow (first.narrow schema)).names = ["events", "actor", "payload"] ∧
      second.narrow (first.narrow schema) = joint.narrow schema := by
  intro user bot event schema deep people first second joint
  have hd : first.Everywhere fun node => node.names.Nodup := by decide
  have both {name : String} {one two : Mask} (ho : (name, .nested one) ∈ first.entries)
      (hi : (name, .nested two) ∈ second.entries) :
      name = "actor" ∧ two = .mk true [("data", .selected), ("name", .selected)] := by
    rcases (by simpa [second] using hi : (name = "events" ∧ _) ∨ (name = "actor" ∧ _)) with ⟨rfl, -⟩ | h
    · simp [first] at ho
    · exact h
  have none : ∀ outer inner, ¬ Clash first second schema outer inner := by
    intro outer inner clash
    cases clash with
    | here ho hi hf =>
      obtain ⟨rfl, -⟩ := both ho hi
      cases hf
    | through ho hi hf hl clash =>
      obtain ⟨-, rfl⟩ := both ho hi
      cases clash with
      | here _ hi _ => simp at hi
      | through _ hi _ _ _ => simp at hi
  have joined : first.meet second = joint := rfl
  obtain ⟨same, names, composed⟩ := narrow_composes first second schema
  exact ⟨hd, none, joined, same hd, names, joined ▸ composed none⟩

end FieldMask
