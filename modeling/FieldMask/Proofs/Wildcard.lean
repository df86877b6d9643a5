import FieldMask.Proofs.Succession

/-! What the wildcard adds. A mask with the wildcard lets out what the mask without it lets out, and behind that, in
    the order of the record, the members that are left over. These are the members that no other entry names, but not
    only these: what counts is what came out before, so null under a nested entry, which a mask that skips leaves out,
    is left over too (`Mask.passesOver`) and comes out after all. -/

namespace FieldMask

/-- Whether the field is taken through a mask of its own. -/
def Entry.isNested : Entry → Bool
  | .selected => false
  | .nested _ => true

namespace Mask

/-- The mask without the wildcard. -/
def withoutWildcard : Mask → Mask
  | .mk skip entries => .mk skip (entries.filter fun field => field.1 ≠ wildcard)

/-- Whether the mask leaves out a name because its entry is nested and finds null there. -/
def passesOver (mask : Mask) (record : Fields Json) (name : String) : Bool :=
  mask.skip && (mask.find? name).any Entry.isNested && (Fields.find? record name).any Json.isNull

section
variable {mask : Mask} {skip : Bool} {entries : List (String × Entry)} {record output : Fields Json} {name : String}

/-! ### The mask without the wildcard -/

theorem entries_withoutWildcard (mask : Mask) :
    mask.withoutWildcard.entries = mask.entries.filter fun field => field.1 ≠ wildcard := by
  cases mask
  rfl

theorem hasWildcard_withoutWildcard (mask : Mask) : mask.withoutWildcard.hasWildcard = false := by
  have unnamed : wildcard ∉ mask.withoutWildcard.names := by
    rw [names, Fields.names, entries_withoutWildcard]
    intro hm
    obtain ⟨field, hf, hw⟩ := List.mem_map.mp hm
    exact of_decide_eq_true (List.mem_filter.mp hf).2 hw
  exact Bool.eq_false_iff.mpr fun h => unnamed ((Fields.mem_names_iff_find? _ _).mpr h)

theorem nodup_names_withoutWildcard (h : mask.names.Nodup) : mask.withoutWildcard.names.Nodup := by
  rw [names, Fields.names, entries_withoutWildcard]
  exact (List.filter_sublist.map _).nodup h

theorem filterEntries_withoutWildcard (skip : Bool) (record : Fields Json) (entries : Fields Entry) :
    filterEntries skip record (entries.filter fun field => field.1 ≠ wildcard) = filterEntries skip record entries := by
  induction entries with
  | nil => rfl
  | cons head rest ih =>
    obtain ⟨name, entry⟩ := head
    by_cases hw : name = wildcard
    · subst hw
      rw [List.filter_cons_of_neg (by simp), filterEntries_wildcard, ih]
    · rw [List.filter_cons_of_pos (by simp [hw]), filterEntries_named hw, filterEntries_named hw, ih]

/-- The wildcard adds the members that did not come out without it. -/
theorem filter_eq_withoutWildcard (h : mask.hasWildcard = true) (record : Fields Json) :
    mask.filter record = (fun named => named ++ remaining record named) <$> mask.withoutWildcard.filter record := by
  rw [filter_eq_filterEntries (hasWildcard_withoutWildcard mask)]
  obtain ⟨skip, entries⟩ := mask
  have hc : Fields.contains entries wildcard = true := h
  rw [withoutWildcard, skip_mk, entries_mk, filterEntries_withoutWildcard, filter, hc, bind_pure_comp]
  rfl

/-! ### What is left over -/

/-- Of the names in a record come out those that the mask has an entry for, unless it passes over null there. -/
theorem contains_filter (hd : mask.names.Nodup) (hw : mask.hasWildcard = false) (h : mask.filter record = .ok output)
    (hr : name ∈ Fields.names record) :
    Fields.contains output name = (mask.contains name && !mask.passesOver record name) := by
  rw [filter_eq_filterEntries hw] at h
  cases he : mask.find? name with
  | none =>
    have named : mask.contains name = false := congrArg Option.isSome he
    rw [named, Fields.contains, find?_filterEntries_unnamed h (Or.inr he)]
    rfl
  | some entry =>
    have hm : (name, entry) ∈ mask.entries := Fields.mem_of_find? he
    have named : mask.contains name = true := congrArg Option.isSome he
    have hn : name ≠ wildcard := ne_wildcard hw (List.mem_map.mpr ⟨_, hm, rfl⟩)
    obtain ⟨field, hf, hl⟩ := find?_filterEntries hd h hm hn
    rw [named, Fields.contains, hl, passesOver, he]
    cases Entry.lets_of_filter hf with
    | absent _ hv =>
      rw [Fields.mem_names_iff_find?, hv] at hr
      cases hr
    | null inner hv => cases hs : mask.skip <;> simp [hv, missing, Fields.find?, Entry.isNested, Json.isNull]
    | whole hv => simp [Fields.find?, Entry.isNested]
    | through hv hk =>
      have hz := (solid_eq_some_iff.mp (solid_of_apply hk).1).2
      simp [hv, hz, Fields.find?]

/-- Left over are the members that the mask has no entry for, and those that it passes over. -/
theorem remaining_filter (hd : mask.names.Nodup) (hw : mask.hasWildcard = false) (h : mask.filter record = .ok output) :
    remaining record output =
      record.filter fun member => !mask.contains member.1 || mask.passesOver record member.1 := by
  refine List.filter_congr fun member hm => ?_
  rw [contains_filter hd hw h (List.mem_map.mpr ⟨member, hm, rfl⟩), Bool.not_and, Bool.not_not]

theorem passesOver_iff : mask.passesOver record name = true ↔ mask.skip = true ∧
    (∃ inner, mask.find? name = some (.nested inner)) ∧ Fields.find? record name = some .null := by
  have nested : (mask.find? name).any Entry.isNested = true ↔ ∃ inner, mask.find? name = some (.nested inner) := by
    cases mask.find? name with
    | none => simp
    | some entry => cases entry <;> simp [Entry.isNested]
  have null : (Fields.find? record name).any Json.isNull = true ↔ Fields.find? record name = some .null := by
    cases Fields.find? record name <;> simp [Json.isNull_iff]
  rw [passesOver, Bool.and_eq_true, Bool.and_eq_true, nested, null, and_assoc]

/-- No member is passed over exactly if the members that are left over have no entry. -/
theorem passesOver_eq_false_iff :
    (∀ name, mask.passesOver record name = false) ↔
      (record.filter fun member => !mask.contains member.1 || mask.passesOver record member.1) =
        record.filter fun member => !mask.contains member.1 := by
  constructor
  · intro h
    exact List.filter_congr fun member _ => by rw [h, Bool.or_false]
  · intro h name
    refine Bool.eq_false_iff.mpr fun hp => ?_
    obtain ⟨-, ⟨inner, he⟩, hv⟩ := passesOver_iff.mp hp
    have named : mask.contains name = true := congrArg Option.isSome he
    have hm : (name, .null) ∈ record.filter fun member => !mask.contains member.1 := by
      rw [← h]
      exact List.mem_filter.mpr ⟨Fields.mem_of_find? hv, by simp [hp]⟩
    simp [named] at hm

end
end Mask

/-- A mask with the wildcard is refused as the mask without it is. Else it lets out the same and behind that, in the
    order of the record, the members that no other entry names and those that the mask passes over; so only the
    former exactly if it passes over none. -/
theorem filter_adds_unnamed {mask : Mask} (hd : mask.names.Nodup) (hw : mask.hasWildcard = true) (record : Fields Json) :
    mask.filter record = (fun named => named ++ record.filter fun member =>
      !mask.withoutWildcard.contains member.1 || mask.withoutWildcard.passesOver record member.1) <$>
        mask.withoutWildcard.filter record ∧
    ∀ named, mask.withoutWildcard.filter record = .ok named →
      (mask.filter record = .ok (named ++ record.filter fun member => !mask.withoutWildcard.contains member.1) ↔
        ∀ name, mask.withoutWildcard.passesOver record name = false) := by
  have left {named : Fields Json} (h : mask.withoutWildcard.filter record = .ok named) :=
    Mask.remaining_filter (Mask.nodup_names_withoutWildcard hd) (Mask.hasWildcard_withoutWildcard mask) h
  rw [Mask.filter_eq_withoutWildcard hw]
  constructor
  · cases h : mask.withoutWildcard.filter record with
    | error refusal => rfl
    | ok named => rw [map_ok, map_ok, left h]
  · intro named h
    rw [h, map_ok, left h, Except.ok.injEq, List.append_cancel_left_eq, Mask.passesOver_eq_false_iff]

/-- The mask `*,c,a{b},d{b}`, whose outer node skips: `c` is absent, `a` is there but null, and `d` is a list. -/
theorem filter_adds_unnamed_with_null :
    let inner : Mask := .mk false [("b", .selected)]
    let mask : Mask := .mk true [("*", .selected), ("c", .selected), ("a", .nested inner), ("d", .nested inner)]
    let record : Fields Json := [("x", .null), ("a", .null), ("d", .arr [.obj [("e", .null)]]), ("y", .bool true)]
    let named : Fields Json := [("d", .arr [.obj [("b", .null)]])]
    mask.names.Nodup ∧ mask.hasWildcard = true ∧ mask.withoutWildcard.filter record = .ok named ∧
      mask.filter record = .ok (named ++ [("x", .null), ("a", .null), ("y", .bool true)]) ∧
      ¬ ∀ name, mask.withoutWildcard.passesOver record name = false := by
  intro inner mask record named
  have hd : mask.names.Nodup := by decide
  have hw : mask.hasWildcard = true := rfl
  have h : mask.withoutWildcard.filter record = .ok named := rfl
  obtain ⟨added, unnamed⟩ := filter_adds_unnamed hd hw record
  rw [h, map_ok] at added
  refine ⟨hd, hw, h, added, fun never => ?_⟩
  have only := added.symm.trans ((unnamed named h).mpr never)
  revert only
  decide

/-- The mask `*,author{name}` names `author` and skips it when it is null, so without the wildcard nothing comes out
    under that name; with the wildcard null does. -/
theorem filter_adds_named_null :
    let mask : Mask := .mk true [("*", .selected), ("author", .nested (.mk true [("name", .selected)]))]
    let record : Fields Json := [("author", .null), ("id", .num ⟨1, 0⟩)]
    mask.names.Nodup ∧ mask.hasWildcard = true ∧ mask.withoutWildcard.filter record = .ok [] ∧
      (record.filter fun member => !mask.withoutWildcard.contains member.1) = [("id", .num ⟨1, 0⟩)] ∧
      mask.filter record = .ok [("author", .null), ("id", .num ⟨1, 0⟩)] := by
  intro mask record
  exact ⟨by decide, rfl, rfl, by decide, rfl⟩

end FieldMask
