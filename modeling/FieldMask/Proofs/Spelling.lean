import FieldMask.Mask.Definition
import FieldMask.Proofs.Lexing
import FieldMask.Proofs.Reading

/-! Masks that a text can spell: no node names a field twice, and every name is one whole token. All ways to
    build a mask keep to this: reading a text, a definition or tokens, and adding fields by hand. -/

namespace FieldMask

/-- A text can spell the mask: at every node the names are distinct and are field names. -/
def Mask.Spellable (mask : Mask) : Prop :=
  ∀ node, mask.HasNode node → node.names.Nodup ∧ ∀ name ∈ node.names, isFieldName name = true

/-- The masks that can be built: read from text or from a definition, or put together field by field. -/
inductive Mask.Built : Mask → Prop
  | empty (skip : Bool) : Built (.empty skip)
  | parse {text : String} {skip : Bool} {mask : Mask} : Mask.parse text skip = .ok mask → Built mask
  | ofJson {skip : Bool} {value : Json} {mask : Mask} : Mask.ofJson skip value = .ok mask → Built mask
  | select {mask after : Mask} {name : String} : Built mask → mask.select name = .ok after → Built after
  | nest {mask inner after : Mask} {name : String} :
      Built mask → Built inner → mask.nest name inner = .ok after → Built after

/-- What an entry nests can be spelled. -/
def Entry.Spellable (entry : Entry) : Prop := ∀ inner, entry = .nested inner → inner.Spellable

theorem Entry.spellable_selected : Entry.selected.Spellable := fun _ h => nomatch h

namespace Mask
variable {mask : Mask} {name : String} {entry : Entry}

theorem spellable_iff : mask.Spellable ↔ (mask.names.Nodup ∧ ∀ name ∈ mask.names, isFieldName name = true) ∧
    ∀ name inner, (name, .nested inner) ∈ mask.entries → inner.Spellable := everywhere_iff

theorem Spellable.nodup (h : mask.Spellable) : mask.names.Nodup := (h mask .root).1

theorem Spellable.isFieldName (h : mask.Spellable) (hn : name ∈ mask.names) : isFieldName name = true :=
  (h mask .root).2 name hn

theorem Spellable.fieldNames (h : mask.Spellable) :
    mask.Everywhere fun node => ∀ name ∈ node.names, FieldMask.isFieldName name = true := fun node hn => (h node hn).2

theorem Spellable.inner {inner : Mask} (h : mask.Spellable) (hm : (name, .nested inner) ∈ mask.entries) : inner.Spellable :=
  (spellable_iff.mp h).2 name inner hm

theorem spellable_empty (skip : Bool) : (empty skip).Spellable :=
  spellable_iff.mpr ⟨⟨List.nodup_nil, fun _ h => nomatch h⟩, fun _ _ h => nomatch h⟩

theorem Spellable.insert (h : mask.Spellable) (hn : FieldMask.isFieldName name = true) (he : entry.Spellable) :
    (mask.insert name entry).Spellable := by
  refine spellable_iff.mpr ⟨⟨Fields.nodup_names_insert h.nodup name entry, fun other ho => ?_⟩, fun other inner hm => ?_⟩
  · replace ho : other ∈ Fields.names (Fields.insert mask.entries name entry) := ho
    rw [Fields.names_insert] at ho
    split at ho
    · exact h.isFieldName ho
    · rcases List.mem_append.mp ho with ho | ho
      · exact h.isFieldName ho
      · exact List.mem_singleton.mp ho ▸ hn
  · rcases Fields.mem_insert hm with hm | heq
    · exact h.inner hm
    · exact he inner (Prod.mk.inj heq).2.symm

theorem Spellable.add {after : Mask} (h : mask.Spellable) (he : entry.Spellable) (ha : mask.add name entry = .ok after) :
    after.Spellable := by
  unfold Mask.add at ha
  split at ha
  · next hn =>
    obtain rfl := Except.ok.inj ha
    exact h.insert hn he
  · cases ha

end Mask

/-! ### Reading -/

/-- All parts of a half-read mask can be spelled. -/
structure Reading.Spellable (reading : Reading) : Prop where
  group : reading.group.Spellable
  around : ∀ frame ∈ reading.around, frame.group.Spellable ∧ isFieldName frame.field = true
  position : ∀ name, reading.position = .afterName name → isFieldName name = true

section
variable {skip : Bool} {tokens : List Token} {mask : Mask}

theorem Reading.Spellable.step {reading after : Reading} {token : Token} (h : reading.Spellable)
    (ht : ∀ name, token = .name name → isFieldName name = true) (hs : Reading.step skip reading token = .ok after) :
    after.Spellable := by
  rcases Reading.step_cases hs with ⟨name, rfl, rfl⟩ | ⟨name, rfl, hp, rfl⟩ | ⟨frame, outer, rfl, ha, rfl⟩ |
    ⟨rfl, hp, rfl⟩
  · have hn := ht name rfl
    exact ⟨h.group.insert hn Entry.spellable_selected, h.around, fun _ heq => Position.afterName.inj heq ▸ hn⟩
  · refine ⟨Mask.spellable_empty skip, fun frame hf => ?_, fun _ heq => nomatch heq⟩
    rcases List.mem_cons.mp hf with rfl | hf
    · exact ⟨h.group, h.position name hp⟩
    · exact h.around frame hf
  · obtain ⟨hgroup, hfield⟩ := h.around frame (ha ▸ List.mem_cons_self)
    refine ⟨hgroup.insert hfield fun inner heq => Entry.nested.inj heq ▸ h.group, fun other ho => ?_,
      fun _ heq => nomatch heq⟩
    exact h.around other (ha ▸ List.mem_cons_of_mem _ ho)
  · exact ⟨h.group, h.around, fun _ heq => nomatch heq⟩

theorem Reading.Spellable.run {reading after : Reading} (h : reading.Spellable) (ht : SpellableNames tokens)
    (hr : tokens.foldlM (Reading.step skip) reading = .ok after) : after.Spellable := by
  induction tokens generalizing reading with
  | nil =>
    obtain rfl := Except.ok.inj hr
    exact h
  | cons token rest ih =>
    rw [List.foldlM_cons] at hr
    obtain ⟨middle, hs, hrest⟩ := bind_eq_ok_iff.mp hr
    exact ih (h.step (fun name heq => ht name (heq ▸ List.mem_cons_self)) hs)
      (fun name hm => ht name (List.mem_cons_of_mem _ hm)) hrest

theorem Mask.spellable_ofTokens (ht : SpellableNames tokens) (h : Mask.ofTokens skip tokens = .ok mask) :
    mask.Spellable := by
  obtain ⟨reading, hr, hf⟩ := bind_eq_ok_iff.mp h
  have hstart : (Reading.start skip).Spellable :=
    ⟨Mask.spellable_empty skip, by simp [Reading.start], fun _ heq => nomatch heq⟩
  have hreading := hstart.run ht hr
  unfold Reading.finish at hf
  split at hf
  · exact Except.ok.inj hf ▸ hreading.group
  · cases hf

theorem Mask.spellable_parse {text : String} (h : Mask.parse text skip = .ok mask) : mask.Spellable := by
  obtain ⟨cleaned, -, ht⟩ := bind_eq_ok_iff.mp h
  exact spellable_ofTokens (spellableNames_tokenize cleaned) ht

end

/-! ### Definitions -/

namespace Mask

mutual

theorem spellable_addMembers {skip : Bool} {mask after : Mask} (h : mask.Spellable) :
    ∀ {members : List (String × Json)}, addMembers skip mask members = .ok after → after.Spellable
  | [], ha => Except.ok.inj ha ▸ h
  | (name, value) :: rest, ha => by
    obtain ⟨entry, he, ha⟩ := bind_eq_ok_iff.mp ha
    obtain ⟨middle, hm, ha⟩ := bind_eq_ok_iff.mp ha
    exact spellable_addMembers (h.add (spellable_memberEntry he) hm) ha

theorem spellable_memberEntry {skip : Bool} {name : String} {entry : Entry} :
    ∀ {value : Json}, memberEntry skip name value = .ok entry → entry.Spellable
  | .bool true, he => Except.ok.inj he ▸ Entry.spellable_selected
  | .obj members, he => by
    obtain ⟨inner, hi, hp⟩ := bind_eq_ok_iff.mp he
    obtain rfl := Except.ok.inj hp
    have := spellable_addMembers (spellable_empty skip) hi
    exact fun _ heq => Entry.nested.inj heq ▸ this
  | .bool false, he | .null, he | .num _, he | .str _, he | .arr _, he => by cases he

end

theorem spellable_ofJson {skip : Bool} {value : Json} {mask : Mask} (h : ofJson skip value = .ok mask) :
    mask.Spellable := by
  cases value with
  | obj members => exact spellable_addMembers (spellable_empty skip) h
  | null | bool _ | num _ | str _ | arr _ => cases h

/-- However a mask was built, a text can spell it. -/
theorem Built.spellable {mask : Mask} (h : mask.Built) : mask.Spellable := by
  induction h with
  | empty skip => exact spellable_empty skip
  | parse h => exact spellable_parse h
  | ofJson h => exact spellable_ofJson h
  | select _ ha ih => exact ih.add Entry.spellable_selected ha
  | nest _ _ ha ih ihi => exact ih.add (fun _ heq => Entry.nested.inj heq ▸ ihi) ha

/-- However a mask was built, no node of it names a field twice. -/
theorem Built.distinct {mask : Mask} (h : mask.Built) : mask.Everywhere fun node => node.names.Nodup :=
  fun node hn => (h.spellable node hn).1

end Mask
end FieldMask
