import Mathlib.Data.List.Forall2
import FieldMask.Proofs.Outcome
import FieldMask.Proofs.Paths

/-! What becomes of the fields of a record that a mask filters. A mask says one thing about each name
    (`Mask.entryFor?`): its own entry, or else to take the field whole if the mask has the wildcard.
    `Mask.filter_carries` is all a filtered record needs to be known by: under every name, the value before
    and the value after agree as that entry says. A null value counts as absent on both sides, so the skip
    flags do not show. -/

namespace FieldMask

/-- What a mask says about a name: its entry for it, or else to take the field whole if it has the
    wildcard. The wildcard itself is no field. -/
def Mask.entryFor? (mask : Mask) (name : String) : Option Entry :=
  (if name = wildcard then none else mask.find? name).or (if mask.hasWildcard then some .selected else none)

/-- `Carries entry before after`: the entry takes the value before to the value after. -/
def Entry.Carries : Option Entry → Option Json → Option Json → Prop
  | none, _, after => after = none
  | some .selected, before, after => solid after = solid before
  | some (.nested inner), before, after =>
    Option.Rel (fun value kept => inner.apply value = .ok kept) (solid before) (solid after)

/-! ### The records of a value -/

/-- What holds of a value whenever it holds of its items holds of every value. -/
theorem Json.itemInduction {motive : Json → Prop}
    (step : ∀ value, (∀ items, value = .arr items → ∀ item ∈ items, motive item) → motive value) (value : Json) :
    motive value :=
  step value fun _ _ item _ => Json.itemInduction step item
termination_by sizeOf value
decreasing_by
  subst value
  have := List.sizeOf_lt_of_mem ‹_ ∈ _›
  simp only [Json.arr.sizeOf_spec]
  omega

theorem dumpItems_eq_ok_iff {dump : Json → Except Refusal Json} {items kept : List Json} :
    dumpItems dump items = .ok kept ↔ List.Forall₂ (fun item item' => dump item = .ok item') items kept := by
  induction items generalizing kept with
  | nil => simp [dumpItems, eq_comm]
  | cons item rest ih =>
    simp only [dumpItems, bind_eq_ok_iff, pure_eq_ok, Except.ok.injEq, List.forall₂_cons_left_iff]
    constructor
    · rintro ⟨first, hf, others, ho, rfl⟩
      exact ⟨first, others, hf, ih.mp ho, rfl⟩
    · rintro ⟨first, others, hf, ho, rfl⟩
      exact ⟨first, hf, others, ih.mpr ho, rfl⟩

theorem dumpItems_eq_mapM (dump : Json → Except Refusal Json) (items : List Json) :
    dumpItems dump items = items.mapM dump := by
  induction items with
  | nil => rfl
  | cons item rest ih => rw [dumpItems, ih, List.mapM_cons]

/-- Two runs over items that match one by one end alike if they do so for each match. -/
theorem dumpItems_alike {R : Json → Json → Prop} {dump other : Json → Except Refusal Json} {items kept : List Json}
    (h : List.Forall₂ (fun item item' => Alike R (dump item) (other item')) items kept) :
    Alike (List.Forall₂ R) (dumpItems dump items) (dumpItems other kept) := by
  induction h with
  | nil => exact .ok .nil
  | cons hf _ ih =>
    rw [dumpItems, dumpItems]
    exact hf.bind fun _ _ ha => ih.bind fun _ _ hr => .ok (.cons ha hr)

section Records
variable {transform : Fields Json → Except Refusal (Fields Json)} {value out : Json}

theorem Json.mapItems_eq_dumpItems (items : List Json) :
    Json.mapItems transform items = dumpItems (Json.mapRecords transform) items := by
  induction items with
  | nil => rfl
  | cons item rest ih => rw [Json.mapItems, dumpItems, ih]

/-- A value whose records were transformed is an object or an array, and so is what comes out. -/
theorem Json.mapRecords_cases (h : value.mapRecords transform = .ok out) :
    (∃ members kept, value = .obj members ∧ out = .obj kept ∧ transform members = .ok kept) ∨
    ∃ items kept, value = .arr items ∧ out = .arr kept ∧
      List.Forall₂ (fun item item' => item.mapRecords transform = .ok item') items kept := by
  cases value with
  | obj members =>
    obtain ⟨kept, hk, rfl⟩ := map_eq_ok_iff.mp (show Json.obj <$> transform members = .ok out from h)
    exact Or.inl ⟨members, kept, rfl, rfl, hk⟩
  | arr items =>
    obtain ⟨kept, hk, rfl⟩ := map_eq_ok_iff.mp (show Json.arr <$> Json.mapItems transform items = .ok out from h)
    rw [Json.mapItems_eq_dumpItems] at hk
    exact Or.inr ⟨items, kept, rfl, rfl, dumpItems_eq_ok_iff.mp hk⟩
  | null => cases h
  | bool _ => cases h
  | num _ => cases h
  | str _ => cases h

end Records

theorem Mask.solid_of_apply {mask : Mask} {value out : Json} (h : mask.apply value = .ok out) :
    solid (some value) = some value ∧ solid (some out) = some out := by
  rcases Json.mapRecords_cases h with ⟨_, _, rfl, rfl, _⟩ | ⟨_, _, rfl, rfl, _⟩ <;> exact ⟨rfl, rfl⟩

/-! ### One entry -/

section Carries
variable {said : Option Entry} {entry : Entry} {before after : Option Json}

theorem Entry.carries_nested_iff {inner : Mask} :
    Entry.Carries (some (.nested inner)) before after ↔
      (solid before = none ∧ solid after = none) ∨
      ∃ value kept, before = some value ∧ after = some kept ∧ inner.apply value = .ok kept := by
  constructor
  · intro h
    rw [Entry.Carries] at h
    cases hb : solid before with
    | none =>
      cases ha : solid after with
      | none => exact Or.inl ⟨rfl, rfl⟩
      | some kept => simp [hb, ha] at h
    | some value =>
      cases ha : solid after with
      | none => simp [hb, ha] at h
      | some kept =>
        rw [hb, ha, Option.rel_some_some] at h
        exact Or.inr ⟨value, kept, (solid_eq_some_iff.mp hb).1, (solid_eq_some_iff.mp ha).1, h⟩
  · rintro (⟨hb, ha⟩ | ⟨value, kept, rfl, rfl, h⟩)
    · rw [Entry.Carries, hb, ha]
      exact .none
    · obtain ⟨hv, hk⟩ := Mask.solid_of_apply h
      rw [Entry.Carries, hv, hk]
      exact .some h

theorem Entry.Carries.solid_eq_none (h : Entry.Carries said before after) (hb : solid before = none) :
    solid after = none := by
  cases said with
  | none => exact (congrArg solid h).trans solid_none
  | some entry =>
    cases entry with
    | selected => exact Eq.trans h hb
    | nested inner =>
      rcases Entry.carries_nested_iff.mp h with ⟨_, ha⟩ | ⟨value, kept, rfl, _, hk⟩
      · exact ha
      · rw [(Mask.solid_of_apply hk).1] at hb
        cases hb

theorem Entry.Carries.absent (h : Entry.Carries (some entry) before none) : solid before = none := by
  cases entry with
  | selected => exact Eq.symm h
  | nested inner =>
    rcases Entry.carries_nested_iff.mp h with ⟨hb, _⟩ | ⟨_, _, _, hk, _⟩
    · exact hb
    · cases hk

theorem Entry.Carries.of_solid_eq_none (hb : solid before = none) (ha : solid after = none) :
    Entry.Carries (some entry) before after := by
  cases entry with
  | selected => exact ha.trans hb.symm
  | nested inner => exact Entry.carries_nested_iff.mpr (Or.inl ⟨hb, ha⟩)

end Carries

section Filter
variable {mask : Mask} {entry : Entry} {entries : List (String × Entry)} {skip : Bool} {record output : Fields Json}
  {name other : String}

theorem Entry.filter_absent (h : Fields.find? record name = none) :
    entry.filter skip record name = .ok (Mask.missing skip name) := by
  cases entry <;> simp [Entry.filter, Mask.whole, h]

theorem Entry.filter_selected {value : Json} (h : Fields.find? record name = some value) :
    Entry.selected.filter skip record name = .ok [(name, value)] := by
  simp [Entry.filter, Mask.whole, h]

theorem Entry.filter_nested_null {inner : Mask} (h : Fields.find? record name = some .null) :
    (Entry.nested inner).filter skip record name = .ok (Mask.missing skip name) := by
  simp [Entry.filter, h]

/-- A nested mask treats an absent field and null alike. -/
theorem Entry.filter_nested_absent {inner : Mask} (h : solid (Fields.find? record name) = none) :
    (Entry.nested inner).filter skip record name = .ok (Mask.missing skip name) := by
  rcases solid_eq_none_iff.mp h with hv | hv
  · exact Entry.filter_absent hv
  · exact Entry.filter_nested_null hv

theorem Entry.filter_nested {inner : Mask} {value : Json} (h : Fields.find? record name = some value)
    (hn : value.isNull = false) : (Entry.nested inner).filter skip record name =
      (fun kept => [(name, kept)]) <$> atField name (inner.apply value) := by
  cases value with
  | null => cases hn
  | _ =>
    simp only [Entry.filter, h]
    rfl

theorem Mask.missing_cases {before : Option Json} (hs : solid before = none) (skip : Bool) (name : String) :
    (Mask.missing skip name = [] ∧ solid before = none) ∨
    ∃ kept, Mask.missing skip name = [(name, kept)] ∧ Entry.Carries (some entry) before (some kept) := by
  cases skip
  · exact Or.inr ⟨.null, rfl, .of_solid_eq_none hs solid_null⟩
  · exact Or.inl ⟨rfl, hs⟩

/-- An entry lets out nothing, for a field that is absent, or what it makes of the value there. -/
theorem Entry.filter_cases {field : Fields Json} (h : entry.filter skip record name = .ok field) :
    (field = [] ∧ solid (Fields.find? record name) = none) ∨
    ∃ kept, field = [(name, kept)] ∧ Entry.Carries (some entry) (Fields.find? record name) (some kept) := by
  cases hv : Fields.find? record name with
  | none =>
    rw [Entry.filter_absent hv] at h
    cases h
    exact Mask.missing_cases solid_none skip name
  | some value =>
    cases entry with
    | selected =>
      rw [Entry.filter_selected hv] at h
      cases h
      exact Or.inr ⟨value, rfl, rfl⟩
    | nested inner =>
      cases hz : value.isNull with
      | true =>
        obtain rfl := Json.isNull_iff.mp hz
        rw [Entry.filter_nested_null hv] at h
        cases h
        exact Mask.missing_cases solid_null skip name
      | false =>
        rw [Entry.filter_nested hv hz] at h
        obtain ⟨kept, hk, rfl⟩ := map_eq_ok_iff.mp h
        have hk := atField_eq_ok_iff.mp hk
        exact Or.inr ⟨kept, rfl, Entry.carries_nested_iff.mpr (Or.inr ⟨value, kept, rfl, rfl, hk⟩)⟩

/-! ### All entries -/

namespace Mask

theorem filterEntries_wildcard {rest : List (String × Entry)} :
    filterEntries skip record ((wildcard, entry) :: rest) = filterEntries skip record rest := by
  rw [filterEntries, if_pos rfl, ok_bind]
  cases filterEntries skip record rest <;> rfl

theorem filterEntries_named {rest : List (String × Entry)} (hw : name ≠ wildcard) :
    filterEntries skip record ((name, entry) :: rest) =
      entry.filter skip record name >>= fun field => (field ++ ·) <$> filterEntries skip record rest := by
  rw [filterEntries, if_neg hw]
  rfl

theorem filterEntries_named_eq_ok {rest : List (String × Entry)} (hw : name ≠ wildcard)
    (h : filterEntries skip record ((name, entry) :: rest) = .ok output) :
    ∃ field more, output = field ++ more ∧ entry.filter skip record name = .ok field ∧
      filterEntries skip record rest = .ok more := by
  rw [filterEntries_named hw] at h
  obtain ⟨field, hf, h⟩ := bind_eq_ok_iff.mp h
  obtain ⟨more, hm, rfl⟩ := map_eq_ok_iff.mp h
  exact ⟨field, more, rfl, hf, hm⟩

/-- What the first entry lets out stands first. It is under the name of the entry, it is what the entry
    makes of the value there, and for the wildcard it is nothing. -/
theorem filterEntries_cons {rest : List (String × Entry)}
    (h : filterEntries skip record ((name, entry) :: rest) = .ok output) :
    ∃ field more, output = field ++ more ∧ filterEntries skip record rest = .ok more ∧
      (∀ other, other ≠ name ∨ other = wildcard → Fields.find? field other = none) ∧
      (name ≠ wildcard → Entry.Carries (some entry) (Fields.find? record name) (Fields.find? field name)) := by
  by_cases hw : name = wildcard
  · subst hw
    rw [filterEntries_wildcard] at h
    exact ⟨[], output, rfl, h, fun _ _ => rfl, fun hn => absurd rfl hn⟩
  · obtain ⟨field, more, rfl, hf, hm⟩ := filterEntries_named_eq_ok hw h
    refine ⟨field, more, rfl, hm, ?_⟩
    rcases Entry.filter_cases hf with ⟨rfl, hs⟩ | ⟨kept, rfl, hc⟩
    · exact ⟨fun _ _ => rfl, fun _ => .of_solid_eq_none hs solid_none⟩
    · constructor
      · intro other ho
        have hn : name ≠ other := ho.elim Ne.symm fun h => h ▸ hw
        simp [Fields.find?, hn]
      · intro _
        simpa [Fields.find?] using hc

theorem solid_filterEntries (h : filterEntries skip record entries = .ok output)
    (hs : solid (Fields.find? record name) = none) : solid (Fields.find? output name) = none := by
  induction entries generalizing output with
  | nil =>
    cases h
    rfl
  | cons head rest ih =>
    obtain ⟨first, entry⟩ := head
    obtain ⟨field, more, rfl, hm, ho, hc⟩ := filterEntries_cons h
    rw [Fields.find?_append, solid_or, ih hm]
    have hf : solid (Fields.find? field name) = none := by
      by_cases hn : name ≠ first ∨ name = wildcard
      · rw [ho name hn, solid_none]
      · obtain ⟨rfl, hw⟩ : name = first ∧ name ≠ wildcard := by simpa using hn
        exact (hc hw).solid_eq_none hs
    rw [hf, ite_self]

/-- Nothing comes out under a name that no entry has, nor under the wildcard. -/
theorem find?_filterEntries_unnamed (h : filterEntries skip record entries = .ok output)
    (hu : name = wildcard ∨ Fields.find? entries name = none) : Fields.find? output name = none := by
  induction entries generalizing output with
  | nil =>
    cases h
    rfl
  | cons head rest ih =>
    obtain ⟨first, entry⟩ := head
    obtain ⟨field, more, rfl, hm, ho, -⟩ := filterEntries_cons h
    have hn : name ≠ first ∨ name = wildcard := by
      rcases hu with hw | hf
      · exact Or.inr hw
      · refine Or.inl fun same => ?_
        simp [Fields.find?, same] at hf
    have hr : name = wildcard ∨ Fields.find? rest name = none := by
      refine hu.imp_right fun hf => ?_
      by_cases same : first = name <;> simp_all [Fields.find?]
    rw [Fields.find?_append, ho name hn, ih hm hr, Option.or_none]

/-- What comes out under a name is what the first entry of that name makes of the value there. -/
theorem filterEntries_carries (h : filterEntries skip record entries = .ok output) (hw : name ≠ wildcard)
    (he : Fields.find? entries name = some entry) :
    Entry.Carries (some entry) (Fields.find? record name) (Fields.find? output name) := by
  induction entries generalizing output with
  | nil => cases he
  | cons head rest ih =>
    obtain ⟨first, said⟩ := head
    obtain ⟨field, more, rfl, hm, ho, hc⟩ := filterEntries_cons h
    rw [Fields.find?_append]
    by_cases same : first = name
    · subst same
      obtain rfl : said = entry := by simpa [Fields.find?] using he
      cases hf : Fields.find? field first with
      | some kept => simpa [hf] using hc hw
      | none =>
        -- the entry let nothing out, so the value is absent and no later entry brings it back
        have hs : solid (Fields.find? record first) = none := by
          have := hc hw
          rw [hf] at this
          exact this.absent
        rw [Option.none_or]
        exact .of_solid_eq_none hs (solid_filterEntries hm hs)
    · rw [ho name (Or.inl (Ne.symm same)), Option.none_or]
      refine ih hm ?_
      simpa [Fields.find?, same] using he

/-! ### A record -/

theorem filter_eq_filterEntries (h : mask.hasWildcard = false) (record : Fields Json) :
    mask.filter record = filterEntries mask.skip record mask.entries := by
  obtain ⟨skip, entries⟩ := mask
  have hw : Fields.contains entries wildcard = false := h
  rw [filter, hw, skip_mk, entries_mk]
  cases filterEntries skip record entries <;> simp

theorem ne_wildcard (h : mask.hasWildcard = false) (hn : name ∈ mask.names) :
    name ≠ wildcard := by
  rintro rfl
  have : mask.hasWildcard = true := (Fields.mem_names_iff_find? _ _).mp hn
  rw [h] at this
  cases this

theorem find?_remaining (record output : Fields Json) (name : String) :
    Fields.find? (remaining record output) name =
      if Fields.contains output name then none else Fields.find? record name := by
  induction record with
  | nil => simp [remaining, Fields.find?]
  | cons head rest ih =>
    obtain ⟨first, value⟩ := head
    simp only [remaining] at ih
    by_cases same : first = name
    · subst same
      by_cases hc : Fields.contains output first <;> simp [remaining, Fields.find?, hc, ih]
    · by_cases hc : Fields.contains output first <;> simp [remaining, Fields.find?, hc, same, ih]

theorem filter_carries_unnamed {named : Fields Json} (hn : Fields.find? named name = none) (wild : Bool) :
    Entry.Carries (if wild then some .selected else none) (Fields.find? record name)
      (Fields.find? (named ++ if wild then remaining record named else []) name) := by
  cases wild
  · simpa [Entry.Carries] using hn
  · simp [Entry.Carries, Fields.find?_append, find?_remaining, Fields.contains, hn]

/-- Under every name, filtering a record takes the value before to the value after as the mask says. -/
theorem filter_carries (h : mask.filter record = .ok output) (name : String) :
    Entry.Carries (mask.entryFor? name) (Fields.find? record name) (Fields.find? output name) := by
  obtain ⟨skip, entries⟩ := mask
  rw [filter] at h
  obtain ⟨named, hn, h⟩ := bind_eq_ok_iff.mp h
  cases h
  by_cases hu : name = wildcard ∨ Fields.find? entries name = none
  · have said : (mk skip entries).entryFor? name =
        if Fields.contains entries wildcard then some .selected else none := by
      rcases hu with hw | he
      · rw [entryFor?, if_pos hw, Option.none_or]
        rfl
      · rw [entryFor?, find?, entries_mk, he, ite_self, Option.none_or]
        rfl
    rw [said]
    exact filter_carries_unnamed (find?_filterEntries_unnamed hn hu) _
  · obtain ⟨hw, he⟩ := not_or.mp hu
    obtain ⟨entry, he⟩ := Option.ne_none_iff_exists'.mp he
    have said : (mk skip entries).entryFor? name = some entry := by simp [entryFor?, hw, find?, he]
    have hc := filterEntries_carries hn hw he
    rw [said, Fields.find?_append]
    cases hf : Fields.find? named name with
    | some kept => simpa [hf] using hc
    | none =>
      -- the entry let nothing out, so the value is absent and the wildcard brings back null at most
      rw [hf] at hc
      refine .of_solid_eq_none hc.absent ?_
      rw [Option.none_or]
      split
      · simpa [find?_remaining, Fields.contains, hf] using hc.absent
      · rfl

end Mask
end Filter
end FieldMask
