import FieldMask.Proofs.Agreement

/-! Masks applied one after the other. The second reads what the first let out, so the two are compared
    with one run over the same data, record by record (`Json.mapRecords_after`) and name by name: in a
    mask that names no field twice, what stands under a name is what its entry let out
    (`Mask.find?_filterEntries`). Here the second is the mask itself, which changes nothing more. -/

namespace FieldMask

/-! ### Records -/

section Records
variable {exact : Bool} {first second joint : Fields Json → Except Refusal (Fields Json)} {data middle : Json}

/-- Two transformations one after the other end as one does if they do so for every record. -/
theorem Json.mapRecords_after
    (step : ∀ record kept, first record = .ok kept → Alike (AgreeMembers exact) (joint record) (second kept))
    (h : data.mapRecords first = .ok middle) :
    Alike (Agree exact) (data.mapRecords joint) (middle.mapRecords second) := by
  induction data using Json.itemInduction generalizing middle with
  | step data ih =>
    rcases Json.mapRecords_cases h with ⟨members, kept, rfl, rfl, hk⟩ | ⟨items, kept, rfl, rfl, hi⟩
    · exact (step members kept hk).map fun _ _ ha => ha
    · have hi : List.Forall₂ (fun item item' =>
          Alike (Agree exact) (item.mapRecords joint) (item'.mapRecords second)) items kept :=
        ((List.forall₂_and_left items kept).mpr ⟨ih items rfl, hi⟩).imp fun _ _ ⟨ih, hf⟩ => ih hf
      have ha := dumpItems_alike hi
      rw [← Json.mapItems_eq_dumpItems, ← Json.mapItems_eq_dumpItems] at ha
      exact ha.map fun _ _ hr => .arr hr

end Records

/-! ### One entry -/

section Entry
variable {entry : Entry} {entries : List (String × Entry)} {skip : Bool} {record other field output : Fields Json}
  {name : String}

/-- `Lets skip record name entry field`: the field is what the entry lets out under the name. -/
inductive Entry.Lets (skip : Bool) (record : Fields Json) (name : String) : Entry → Fields Json → Prop
  | absent (entry : Entry) : Fields.find? record name = none → Lets skip record name entry (Mask.missing skip name)
  | null (inner : Mask) : Fields.find? record name = some .null →
      Lets skip record name (.nested inner) (Mask.missing skip name)
  | whole {value : Json} : Fields.find? record name = some value → Lets skip record name .selected [(name, value)]
  | through {inner : Mask} {value kept : Json} : Fields.find? record name = some value →
      inner.apply value = .ok kept → Lets skip record name (.nested inner) [(name, kept)]

theorem Entry.lets_of_filter (h : entry.filter skip record name = .ok field) : entry.Lets skip record name field := by
  cases hv : Fields.find? record name with
  | none =>
    rw [Entry.filter_absent hv] at h
    cases h
    exact .absent entry hv
  | some value =>
    cases entry with
    | selected =>
      rw [Entry.filter_selected hv] at h
      cases h
      exact .whole hv
    | nested inner =>
      cases hz : value.isNull with
      | true =>
        obtain rfl := Json.isNull_iff.mp hz
        rw [Entry.filter_nested_null hv] at h
        cases h
        exact .null inner hv
      | false =>
        rw [Entry.filter_nested hv hz] at h
        obtain ⟨kept, hk, rfl⟩ := map_eq_ok_iff.mp h
        exact .through hv (atField_eq_ok_iff.mp hk)

theorem Entry.filter_congr (h : Fields.find? record name = Fields.find? other name) :
    entry.filter skip record name = entry.filter skip other name := by
  cases entry <;> simp [Entry.filter, Mask.whole, h]

theorem Entry.find?_filter_of_ne {said : String} (h : entry.filter skip record said = .ok field) (hn : said ≠ name) :
    Fields.find? field name = none := by
  cases Entry.lets_of_filter h with
  | absent | null => cases skip <;> simp [Mask.missing, Fields.find?, hn]
  | whole | through => simp [Fields.find?, hn]

/-! ### All entries -/

namespace Mask

/-- Under a name stands what its entry let out, if no other entry has the name. -/
theorem find?_filterEntries (hd : (Fields.names entries).Nodup) (h : filterEntries skip record entries = .ok output)
    (he : (name, entry) ∈ entries) (hw : name ≠ wildcard) :
    ∃ field, entry.filter skip record name = .ok field ∧ Fields.find? output name = Fields.find? field name := by
  induction entries generalizing output with
  | nil => cases he
  | cons head rest ih =>
    obtain ⟨first, said⟩ := head
    obtain ⟨hfresh, hrest⟩ := List.nodup_cons.mp hd
    by_cases hf : first = wildcard
    · subst hf
      rw [filterEntries_wildcard] at h
      rcases List.mem_cons.mp he with heq | he
      · exact absurd (Prod.mk.inj heq).1 hw
      · exact ih hrest h he
    · obtain ⟨field, more, rfl, hs, hm⟩ := filterEntries_named_eq_ok hf h
      rw [Fields.find?_append]
      rcases List.mem_cons.mp he with heq | he
      · obtain ⟨rfl, rfl⟩ := Prod.mk.inj heq
        have hr : Fields.find? rest name = none := by
          rw [← Option.not_isSome_iff_eq_none, ← Fields.mem_names_iff_find?]
          exact hfresh
        exact ⟨field, hs, by rw [find?_filterEntries_unnamed hm (Or.inr hr), Option.or_none]⟩
      · have hn : first ≠ name := by
          rintro rfl
          exact hfresh (List.mem_map.mpr ⟨_, he, rfl⟩)
        rw [Entry.find?_filter_of_ne hs hn, Option.none_or]
        exact ih hrest hm he

theorem filterEntries_congr (h : ∀ name entry, (name, entry) ∈ entries → name ≠ wildcard →
    entry.filter skip record name = entry.filter skip other name) :
    filterEntries skip record entries = filterEntries skip other entries := by
  induction entries with
  | nil => rfl
  | cons head rest ih =>
    obtain ⟨name, entry⟩ := head
    have ih := ih fun name entry he => h name entry (List.mem_cons_of_mem _ he)
    by_cases hw : name = wildcard
    · subst hw
      rw [filterEntries_wildcard, filterEntries_wildcard, ih]
    · rw [filterEntries_named hw, filterEntries_named hw, h name entry List.mem_cons_self hw, ih]

/-! ### The same mask again -/

/-- The members that did not come out, after members that did, are again those that did not come out. -/
theorem remaining_append (record output : Fields Json) :
    remaining (output ++ remaining record output) output = remaining record output := by
  have gone : output.filter (fun member => !Fields.contains output member.1) = [] := by
    rw [List.filter_eq_nil_iff]
    intro member hm
    have : Fields.contains output member.1 = true :=
      (Fields.mem_names_iff_find? output member.1).mp (List.mem_map.mpr ⟨member, hm, rfl⟩)
    simp [this]
  simp only [remaining, List.filter_append, gone, List.nil_append, List.filter_filter, Bool.and_self]

end Mask

/-- An entry lets out again what it let out, if that stands there now, or if it let out nothing and nothing was
    put there but null. -/
theorem Entry.filter_again (h : entry.filter skip record name = .ok field)
    (hi : ∀ inner, entry = .nested inner → ∀ value kept, inner.apply value = .ok kept → inner.apply kept = .ok kept)
    (ho : Fields.find? other name = (Fields.find? field name).or (Fields.find? record name) ∨
      Fields.find? other name = Fields.find? field name) :
    entry.filter skip other name = .ok field := by
  cases Entry.lets_of_filter h with
  | absent _ hv =>
    rw [hv, Option.or_none, or_self] at ho
    cases skip
    · have ho : Fields.find? other name = some .null := by simpa [Mask.missing, Fields.find?] using ho
      cases entry with
      | selected => exact Entry.filter_selected ho
      | nested inner => exact Entry.filter_nested_null ho
    · exact Entry.filter_absent ho
  | null inner hv =>
    refine Entry.filter_nested_absent (solid_eq_none_iff.mpr ?_)
    rw [hv] at ho
    cases skip
    · exact Or.inr (by simpa [Mask.missing, Fields.find?] using ho)
    · exact Or.comm.mp (by simpa [Mask.missing, Fields.find?] using ho)
  | whole hv =>
    refine Entry.filter_selected ?_
    simpa [Fields.find?] using ho
  | @through inner value kept hv hk =>
    have ho : Fields.find? other name = some kept := by simpa [Fields.find?] using ho
    obtain ⟨-, hs⟩ := Mask.solid_of_apply hk
    rw [Entry.filter_nested ho (solid_eq_some_iff.mp hs).2, hi inner rfl value kept hk]
    rfl

namespace Mask
variable {mask : Mask}

theorem filter_again (hd : mask.names.Nodup)
    (hi : ∀ name inner, (name, .nested inner) ∈ mask.entries → ∀ value kept, inner.apply value = .ok kept →
      inner.apply kept = .ok kept)
    (h : mask.filter record = .ok output) : mask.filter output = .ok output := by
  obtain ⟨skip, entries⟩ := mask
  rw [filter] at h ⊢
  obtain ⟨named, hn, h⟩ := bind_eq_ok_iff.mp h
  obtain rfl : named ++ (if Fields.contains entries wildcard then remaining record named else []) = output :=
    Except.ok.inj h
  have same : filterEntries skip record entries =
      filterEntries skip (named ++ if Fields.contains entries wildcard then remaining record named else []) entries := by
    refine filterEntries_congr fun name entry he hw => ?_
    obtain ⟨field, hf, hl⟩ := find?_filterEntries hd hn he hw
    rw [hf]
    refine (Entry.filter_again hf (fun inner heq => hi name inner (heq ▸ he)) ?_).symm
    rw [Fields.find?_append, ← hl]
    cases hz : Fields.find? named name with
    | some kept => exact Or.inr rfl
    | none =>
      -- only the wildcard puts something there, and that is what was there before
      cases Fields.contains entries wildcard
      · exact Or.inr rfl
      · exact Or.inl (by simp [find?_remaining, Fields.contains, hz])
  rw [← same, hn, ok_bind, pure_eq_ok]
  cases Fields.contains entries wildcard
  · rfl
  · simp only [if_true, remaining_append]

end Mask
end Entry

/-- Applying a mask to what it let out changes nothing, not even the order of members. A mask names no field twice
    at a node, however it was built (`Mask.Built.distinct`). -/
theorem apply_again {mask : Mask} {data out : Json} (hd : mask.Everywhere fun node => node.names.Nodup)
    (h : mask.apply data = .ok out) : mask.apply out = .ok out := by
  induction mask using Mask.nodeInduction generalizing data out with
  | step skip entries ih =>
    have hi : ∀ name inner, (name, .nested inner) ∈ entries → ∀ value kept, inner.apply value = .ok kept →
        inner.apply kept = .ok kept := fun name inner hm value kept hk => ih name inner hm (hd.below hm) hk
    have ha : Alike (Json.Agree true) ((Mask.mk skip entries).apply data) ((Mask.mk skip entries).apply out) := by
      refine Json.mapRecords_after (fun record kept hk => ?_) h
      rw [hk, Mask.filter_again hd.root hi hk]
      exact .ok (.refl true kept)
    rw [← h]
    exact (Alike.eq ha).symm

/-- The mask `*,a{b,c},d{b,c}` with different flags at its nodes: `a` is null and skipped, but the wildcard lets it
    out behind the named fields, where it is found the second time. -/
theorem apply_again_null_behind :
    let inner : Mask := .mk false [("b", .selected), ("c", .selected)]
    let mask : Mask := .mk true [("*", .selected), ("a", .nested inner), ("d", .nested inner)]
    let data : Json := .obj [("a", .null), ("x", .bool true), ("d", .arr [.obj [("c", .str "y"), ("e", .null)]])]
    let out : Json := .obj [("d", .arr [.obj [("b", .null), ("c", .str "y")]]), ("a", .null), ("x", .bool true)]
    (mask.Everywhere fun node => node.names.Nodup) ∧ mask.apply data = .ok out ∧ mask.apply out = .ok out := by
  intro inner mask data out
  have hd : mask.Everywhere fun node => node.names.Nodup := by decide
  have h : mask.apply data = .ok out := rfl
  exact ⟨hd, h, apply_again hd h⟩

end FieldMask
