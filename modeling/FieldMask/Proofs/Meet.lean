import FieldMask.Proofs.Succession

/-! The meet of two masks: the fields that both name, in the order of the second, each taken through whatever
    masks the two nest for it. One mask after another lets out what their meet lets out at once.

    The two are compared entry by entry of the second mask (`Mask.meetEntries_agrees`). A field that only the
    second names is gone after the first, so only null can stand for it; and where the first fills in null for
    a missing field, the second takes over a null that the meet may leave out. If both masks skip throughout,
    no null is filled in and nothing differs. -/

namespace FieldMask

mutual

/-- The fields that both masks name, in the order of the second and with its flags. Below a field that only
    the first has a mask for, the flags are those of the first. -/
def Mask.meet : Mask → Mask → Mask
  | first, .mk skip entries => .mk skip (Mask.meetEntries first.entries entries)

/-- The entries of the second list whose names are in the first, each in its meet with the entry there. -/
def Mask.meetEntries (first : Fields Entry) : List (String × Entry) → List (String × Entry)
  | [] => []
  | (name, entry) :: rest =>
    match Fields.find? first name with
    | some said => (name, said.meet entry) :: Mask.meetEntries first rest
    | none => Mask.meetEntries first rest

/-- What two entries let through one after the other. -/
def Entry.meet : Entry → Entry → Entry
  | said, .selected => said
  | .selected, .nested inner => .nested inner
  | .nested outer, .nested inner => .nested (outer.meet inner)

end

/-! ### Names -/

section Names
variable {first second : Mask} {entries said : Fields Entry} {entry : Entry} {name : String}

@[simp] theorem Entry.selected_meet (entry : Entry) : Entry.selected.meet entry = entry := by
  cases entry <;> rfl

@[simp] theorem Entry.meet_selected (entry : Entry) : entry.meet .selected = entry := by
  cases entry <;> rfl

theorem Mask.skip_meet (first second : Mask) : (first.meet second).skip = second.skip := by
  cases second
  rfl

theorem Mask.entries_meet (first second : Mask) :
    (first.meet second).entries = Mask.meetEntries first.entries second.entries := by
  cases second
  rfl

theorem Mask.meetEntries_eq_common (said entries : Fields Entry) :
    Mask.meetEntries said entries = Fields.common Entry.meet said entries := by
  induction entries with
  | nil => rfl
  | cons head rest ih =>
    obtain ⟨name, entry⟩ := head
    rw [Mask.meetEntries, Fields.common_cons, ih]
    cases Fields.find? said name <;> rfl

theorem Mask.hasWildcard_meet (h : second.hasWildcard = false) : (first.meet second).hasWildcard = false := by
  have h : Fields.find? second.entries wildcard = none := Option.not_isSome_iff_eq_none.mp (Bool.eq_false_iff.mp h)
  rw [hasWildcard, contains, Fields.contains, entries_meet, meetEntries_eq_common, Fields.find?_common, h]
  rfl

end Names

/-! ### One entry -/

section Meet
variable {exact skip next : Bool} {said entry : Entry} {record members field : Fields Json} {name : String}

namespace Json

theorem AgreeMembers.missing (skip other : Bool) :
    AgreeMembers false (Mask.missing skip name) (Mask.missing other name) := by
  cases skip <;> cases other <;> rfl

end Json

/-- After a field was found missing, the second entry finds it missing too, or finds the null that the first
    mask put there. -/
theorem Entry.filter_after_missing (entry : Entry) (next : Bool) (hs : exact = true → skip = true)
    (hl : Fields.find? members name = Fields.find? (Mask.missing skip name) name) :
    ∃ field, entry.filter next members name = .ok field ∧ Json.AgreeMembers exact (Mask.missing next name) field := by
  cases skip with
  | true => exact ⟨_, Entry.filter_absent hl, .refl exact _⟩
  | false =>
    obtain rfl : exact = false := Bool.eq_false_iff.mpr fun he => nomatch hs he
    have hl : Fields.find? members name = some .null := by simpa [Mask.missing, Fields.find?] using hl
    cases entry with
    | selected => exact ⟨_, Entry.filter_selected hl, .missing next false⟩
    | nested inner => exact ⟨_, Entry.filter_nested_null hl, .refl false _⟩

/-- An entry makes of what another let out what their meet makes of the whole. -/
theorem Entry.meet_agrees (hs : exact = true → skip = true) (hf : said.filter skip record name = .ok field)
    (hl : Fields.find? members name = Fields.find? field name)
    (hi : ∀ outer inner, said = .nested outer → entry = .nested inner → ∀ value kept,
      outer.apply value = .ok kept → Alike (Json.Agree exact) ((outer.meet inner).apply value) (inner.apply kept)) :
    Alike (Json.AgreeMembers exact) ((said.meet entry).filter next record name) (entry.filter next members name) := by
  cases Entry.lets_of_filter hf with
  | absent _ hv =>
    obtain ⟨after, ha, hm⟩ := Entry.filter_after_missing entry next hs hl
    rw [Entry.filter_absent hv, ha]
    exact .ok hm
  | null outer hv =>
    obtain ⟨after, ha, hm⟩ := Entry.filter_after_missing entry next hs hl
    obtain ⟨below, hb⟩ : ∃ below, (Entry.nested outer).meet entry = .nested below := by
      cases entry <;> exact ⟨_, rfl⟩
    rw [hb, Entry.filter_nested_null hv, ha]
    exact .ok hm
  | @whole value hv =>
    have hl : Fields.find? members name = some value := by simpa [Fields.find?] using hl
    rw [Entry.selected_meet, Entry.filter_congr (hv.trans hl.symm)]
    exact .refl (Json.AgreeMembers.refl exact) _
  | @through outer value kept hv hk =>
    have hl : Fields.find? members name = some kept := by simpa [Fields.find?] using hl
    obtain ⟨sv, sk⟩ := Mask.solid_of_apply hk
    have hzv := (solid_eq_some_iff.mp sv).2
    have hzk := (solid_eq_some_iff.mp sk).2
    cases entry with
    | selected =>
      rw [Entry.meet_selected, Entry.filter_nested hv hzv, hk, Entry.filter_selected hl]
      exact .ok (.refl exact _)
    | nested inner =>
      have hm : (Entry.nested outer).meet (.nested inner) = .nested (outer.meet inner) := rfl
      rw [hm, Entry.filter_nested hv hzv, Entry.filter_nested hl hzk]
      exact ((hi outer inner rfl rfl value kept hk).atField name).map fun _ _ ha => .cons ha (.refl exact [])

/-! ### All entries -/

theorem Mask.meetEntries_agrees {first entries : Fields Entry} (hd : (Fields.names first).Nodup)
    (hw : ∀ name ∈ Fields.names entries, name ≠ wildcard)
    (hm : Mask.filterEntries skip record first = .ok members) (hs : exact = true → skip = true ∧ next = true)
    (hi : ∀ name outer inner, (name, .nested outer) ∈ first → (name, .nested inner) ∈ entries → ∀ value kept,
      outer.apply value = .ok kept → Alike (Json.Agree exact) ((outer.meet inner).apply value) (inner.apply kept)) :
    Alike (Json.AgreeMembers exact) (Mask.filterEntries next record (Mask.meetEntries first entries))
      (Mask.filterEntries next members entries) := by
  induction entries with
  | nil => exact .ok (.refl exact _)
  | cons head rest ih =>
    obtain ⟨name, entry⟩ := head
    have ihr := ih (fun name h => hw name (List.mem_cons_of_mem _ h))
      fun name outer inner ho h => hi name outer inner ho (List.mem_cons_of_mem _ h)
    have hn : name ≠ wildcard := hw name List.mem_cons_self
    rw [Mask.filterEntries_named hn, Mask.meetEntries]
    cases hf : Fields.find? first name with
    | none =>
      -- the field is gone after the first mask
      rw [Entry.filter_absent (Mask.find?_filterEntries_unnamed hm (Or.inr hf)), ok_bind]
      refine ihr.map_right fun a b h => ?_
      cases exact with
      | false => exact h.missing_right next
      | true =>
        obtain rfl : next = true := (hs rfl).2
        exact h
    | some said =>
      have he : (name, said) ∈ first := Fields.mem_of_find? hf
      obtain ⟨field, hsaid, hl⟩ := Mask.find?_filterEntries hd hm he hn
      have here : Alike (Json.AgreeMembers exact) ((said.meet entry).filter next record name)
          (entry.filter next members name) :=
        Entry.meet_agrees (fun he => (hs he).1) hsaid hl fun outer inner ho hi' =>
          hi name outer inner (ho ▸ he) (hi' ▸ List.mem_cons_self)
      simp only
      rw [Mask.filterEntries_named hn]
      exact here.bind fun _ _ hx => ihr.map fun _ _ h => hx.append h

/-! ### Whole values -/

/-- By induction on the second mask: an entry that both nest leads to a mask nested in each. -/
theorem Mask.meet_agrees {first second : Mask} {data middle : Json}
    (hd : first.Everywhere fun node => node.names.Nodup) (hf : first.Everywhere fun node => node.hasWildcard = false)
    (hn : second.Everywhere fun node => node.hasWildcard = false)
    (hx : exact = true → (first.Everywhere fun node => node.skip = true) ∧ second.Everywhere fun node => node.skip = true)
    (h : first.apply data = .ok middle) :
    Alike (Json.Agree exact) ((first.meet second).apply data) (second.apply middle) := by
  induction second using Mask.nodeInduction generalizing first data middle with
  | step next entries ih =>
    refine Json.mapRecords_after (fun record members hm => ?_) h
    have hw : (Mask.mk next entries).hasWildcard = false := hn.root
    rw [filter_eq_filterEntries hf.root] at hm
    rw [filter_eq_filterEntries hw, filter_eq_filterEntries (hasWildcard_meet hw), skip_meet, entries_meet]
    refine meetEntries_agrees hd.root (fun name hm => ne_wildcard hw hm) hm ?_ ?_
    · exact fun he => ⟨(hx he).1.root, (hx he).2.root⟩
    · intro name outer inner ho hi value kept hk
      exact ih name inner hi (hd.below ho) (hf.below ho) (hn.below hi)
        (fun he => ⟨(hx he).1.below ho, (hx he).2.below hi⟩) hk

end Meet

/-- A mask after another agrees with their meet: the two are refused for the same reason, or they let out values
    that differ in null members only. If both masks skip throughout, they let out the same. -/
theorem apply_meet {first second : Mask} {data middle : Json}
    (hd : first.Everywhere fun node => node.names.Nodup) (hf : first.Everywhere fun node => node.hasWildcard = false)
    (hn : second.Everywhere fun node => node.hasWildcard = false) (h : first.apply data = .ok middle) :
    Alike (fun joint chained => joint.withoutNulls = chained.withoutNulls)
      ((first.meet second).apply data) (second.apply middle) ∧
    ((first.Everywhere fun node => node.skip = true) → (second.Everywhere fun node => node.skip = true) →
      (first.meet second).apply data = second.apply middle) := by
  constructor
  · have ha : Alike (Json.Agree false) ((first.meet second).apply data) (second.apply middle) :=
      Mask.meet_agrees hd hf hn (by simp) h
    exact ha
  · intro hs ht
    have ha : Alike (Json.Agree true) ((first.meet second).apply data) (second.apply middle) :=
      Mask.meet_agrees hd hf hn (fun _ => ⟨hs, ht⟩) h
    exact Alike.eq ha

/-- The masks `a{b,c},d,e` and `d{y},a{c,x},z`, both skipping: their meet is `d{y},a{c}`. -/
theorem apply_meet_on_list :
    let first : Mask := .mk true [("a", .nested (.mk true [("b", .selected), ("c", .selected)])), ("d", .selected),
      ("e", .selected)]
    let second : Mask := .mk true [("d", .nested (.mk true [("y", .selected)])),
      ("a", .nested (.mk true [("c", .selected), ("x", .selected)])), ("z", .selected)]
    let data : Json := .obj [("a", .arr [.obj [("b", .str "b"), ("c", .str "c"), ("x", .str "x")], .obj [("x", .null)]]),
      ("z", .bool true), ("d", .obj [("w", .bool true), ("y", .null)])]
    let middle : Json := .obj [("a", .arr [.obj [("b", .str "b"), ("c", .str "c")], .obj []]),
      ("d", .obj [("w", .bool true), ("y", .null)])]
    (first.Everywhere fun node => node.names.Nodup) ∧ (first.Everywhere fun node => node.hasWildcard = false) ∧
      (second.Everywhere fun node => node.hasWildcard = false) ∧ first.apply data = .ok middle ∧
      Alike (fun joint chained => joint.withoutNulls = chained.withoutNulls)
        ((first.meet second).apply data) (second.apply middle) ∧
      (first.meet second).apply data = second.apply middle := by
  intro first second data middle
  have hd : first.Everywhere fun node => node.names.Nodup := by decide
  have hf : first.Everywhere fun node => node.hasWildcard = false := by decide
  have hn : second.Everywhere fun node => node.hasWildcard = false := by decide
  have h : first.apply data = .ok middle := rfl
  obtain ⟨loose, strict⟩ := apply_meet hd hf hn h
  exact ⟨hd, hf, hn, h, loose, strict (by decide) (by decide)⟩

end FieldMask
