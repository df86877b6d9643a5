import FieldMask.Proofs.Filtering

/-! Which leaves of a value a mask admits, and that applying the mask keeps exactly those.

    A path into a value is also a path into a mask (`Mask.entryAt?`): a step to an item stays at the mask,
    and a step to a member goes on as the mask says about its name. `Mask.apply_carries` follows a path
    through the value before and the value after; all that is known of the leaves, the arrays and the
    objects that come out are cases of it. -/

namespace FieldMask
namespace Mask

/-- What a mask says about the value that a path leads to: nothing if the path leaves the mask, to take it
    whole if it is below a field taken whole, and else the mask that is left for it. -/
def entryAt? : Mask → List Step → Option Entry
  | mask, [] => some (.nested mask)
  | mask, .index _ :: path => mask.entryAt? path
  | mask, .key name :: path =>
    match mask.entryFor? name with
    | none => none
    | some .selected => some .selected
    | some (.nested inner) => inner.entryAt? path

/-- Whether a mask admits a path. The places of items do not matter. Below a field taken whole everything is
    admitted, below a field with a mask of its own what that mask admits, and a field that no entry but the
    wildcard names is taken whole if the mask has the wildcard. -/
def admits : Mask → List Step → Bool
  | _, [] => false
  | mask, .index _ :: path => mask.admits path
  | mask, .key name :: path =>
    match if name = wildcard then none else mask.find? name with
    | some .selected => true
    | some (.nested inner) => inner.admits path
    | none => mask.hasWildcard

variable {mask inner : Mask} {entry : Entry} {data out : Json} {path : List Step} {name : String}

theorem admits_iff : mask.admits path = true ↔ mask.entryAt? path = some .selected := by
  induction path generalizing mask with
  | nil => simp [admits, entryAt?]
  | cons step path ih =>
    cases step with
    | index place => exact ih
    | key name =>
      simp only [admits, entryAt?, entryFor?]
      cases (if name = wildcard then none else mask.find? name) with
      | none => cases mask.hasWildcard <;> simp
      | some entry =>
        cases entry with
        | selected => simp
        | nested inner => simpa using ih

/-! ### Following a path -/

theorem carries_none (said : Option Entry) : Entry.Carries said none none := by
  cases said with
  | none => rfl
  | some entry => exact .of_solid_eq_none solid_none solid_none

/-- Behind members that are absent or null, a mask finds nothing but null. -/
theorem carries_behind_absent {before after : Option Json} (hb : solid before = none) (ha : solid after = none) :
    Entry.Carries (mask.entryAt? path) (before.bind (·.at? path)) (after.bind (·.at? path)) := by
  have behind {value : Option Json} (h : solid value = none) : solid (value.bind (·.at? path)) = none := by
    rw [Json.solid_bind_at?, h, Option.bind_none]
  cases path with
  | nil => exact .of_solid_eq_none (behind hb) (behind ha)
  | cons step path =>
    have gone : after.bind (·.at? (step :: path)) = none := by
      rcases solid_eq_none_iff.mp ha with rfl | rfl <;> simp
    rw [gone]
    cases mask.entryAt? (step :: path) with
    | none => rfl
    | some entry => exact .of_solid_eq_none (behind hb) solid_none

/-- Along every path, applying a mask takes the value before to the value after as the mask says. -/
theorem apply_carries (h : mask.apply data = .ok out) (path : List Step) :
    Entry.Carries (mask.entryAt? path) (data.at? path) (out.at? path) := by
  induction path generalizing mask data out with
  | nil =>
    rw [Json.at?_nil, Json.at?_nil, entryAt?]
    exact Entry.carries_nested_iff.mpr (Or.inr ⟨data, out, rfl, rfl, h⟩)
  | cons step path ih =>
    rcases Json.mapRecords_cases h with ⟨members, kept, rfl, rfl, hm⟩ | ⟨items, kept, rfl, rfl, hi⟩
    · cases step with
      | index place => exact carries_none _
      | key name =>
        have hc := filter_carries hm name
        rw [Json.at?_obj_key, Json.at?_obj_key, entryAt?]
        generalize mask.entryFor? name = said at hc ⊢
        match said with
        | none =>
          rw [Entry.Carries] at hc ⊢
          rw [hc, Option.bind_none]
        | some .selected =>
          rw [Entry.Carries] at hc ⊢
          rw [Json.solid_bind_at?, Json.solid_bind_at?, hc]
        | some (.nested inner) =>
          rcases Entry.carries_nested_iff.mp hc with ⟨hb, ha⟩ | ⟨value, kept', hb, ha, hk⟩
          · exact carries_behind_absent hb ha
          · rw [hb, ha]
            exact ih hk
    · cases step with
      | key name => exact carries_none _
      | index place =>
        rw [Json.at?_arr_index, Json.at?_arr_index]
        obtain ⟨hl, hg⟩ := List.forall₂_iff_get.mp hi
        by_cases hp : place < items.length
        · have hk : place < kept.length := hl ▸ hp
          rw [List.getElem?_eq_getElem hp, List.getElem?_eq_getElem hk]
          exact ih (hg place hp hk)
        · rw [List.getElem?_eq_none (not_lt.mp hp), List.getElem?_eq_none (hl ▸ not_lt.mp hp)]
          exact carries_none _

/-! ### Leaves, arrays and objects -/

theorem not_isLeaf_of_apply (h : mask.apply data = .ok out) : data.isLeaf = false ∧ out.isLeaf = false := by
  rcases Json.mapRecords_cases h with ⟨_, _, rfl, rfl, _⟩ | ⟨_, _, rfl, rfl, _⟩ <;> exact ⟨rfl, rfl⟩

theorem sameShape_of_apply (h : mask.apply data = .ok out) : data.SameShape out := by
  rcases Json.mapRecords_cases h with ⟨_, _, rfl, rfl, _⟩ | ⟨_, _, rfl, rfl, hi⟩
  · exact .obj _ _
  · exact .arr hi.length_eq

theorem not_leaf_of_nested (h : Entry.Carries (some (.nested inner)) (data.at? path) (out.at? path))
    (leaf : Json) :
    (path, leaf) ∉ data.leaves ∧ (path, leaf) ∉ out.leaves := by
  rw [Json.mem_leaves_iff_solid, Json.mem_leaves_iff_solid]
  rcases Entry.carries_nested_iff.mp h with ⟨hb, ha⟩ | ⟨value, kept, hb, ha, hk⟩
  · simp [hb, ha]
  · obtain ⟨hv, hk'⟩ := not_isLeaf_of_apply hk
    obtain ⟨sv, sk⟩ := solid_of_apply hk
    rw [hb, ha, sv, sk]
    constructor
    · rintro ⟨h, hl⟩
      cases h
      simp [hv] at hl
    · rintro ⟨h, hl⟩
      cases h
      simp [hk'] at hl

theorem mem_leaves_apply_iff (h : mask.apply data = .ok out) {leaf : Json} :
    (path, leaf) ∈ out.leaves ↔ (path, leaf) ∈ data.leaves ∧ mask.admits path = true := by
  have hc := apply_carries h path
  rw [admits_iff]
  match hs : mask.entryAt? path with
  | none =>
    rw [hs, Entry.Carries] at hc
    simp [Json.mem_leaves_iff, hc]
  | some .selected =>
    rw [hs, Entry.Carries] at hc
    simp [Json.mem_leaves_iff_solid, hc]
  | some (.nested inner) =>
    rw [hs] at hc
    obtain ⟨hb, ha⟩ := not_leaf_of_nested hc leaf
    simp [hb, ha]

/-- An array that a path through nested masks leads to stays there, with the mask that is left applied to
    each of its items in turn. -/
theorem items_apply (h : mask.apply data = .ok out) (hs : mask.entryAt? path = some (.nested inner))
    {items : List Json} (hd : data.at? path = some (.arr items)) :
    ∃ kept, out.at? path = some (.arr kept) ∧
      List.Forall₂ (fun item item' => inner.apply item = .ok item') items kept := by
  have hc := apply_carries h path
  rw [hs, hd] at hc
  rcases Entry.carries_nested_iff.mp hc with ⟨hb, _⟩ | ⟨value, kept, hb, ha, hk⟩
  · cases hb
  · cases hb
    rcases Json.mapRecords_cases hk with ⟨_, _, he, _⟩ | ⟨_, kept', he, rfl, hi⟩
    · cases he
    · cases he
      exact ⟨kept', ha, hi⟩

theorem sameShape_at (h : mask.apply data = .ok out) {value kept : Json} (hd : data.at? path = some value)
    (ho : out.at? path = some kept) : value.SameShape kept := by
  have hc := apply_carries h path
  rw [hd, ho] at hc
  have of_solid (hs : solid (some value) = solid (some kept)) : value.SameShape kept :=
    eq_of_solid_eq hs ▸ .same value
  match mask.entryAt? path, hc with
  | some .selected, hc => exact of_solid (Eq.symm hc)
  | some (.nested inner), hc =>
    rcases Entry.carries_nested_iff.mp hc with ⟨hb, ha⟩ | ⟨_, _, hb, ha, hk⟩
    · exact of_solid (hb.trans ha.symm)
    · cases hb
      cases ha
      exact sameShape_of_apply hk

/-- A value that the mask has something to say about is still there afterwards, unless it was null. -/
theorem present_apply (h : mask.apply data = .ok out) {value : Json} (hd : data.at? path = some value)
    (hv : value.isNull = false) (hs : (mask.entryAt? path).isSome) : ∃ kept, out.at? path = some kept := by
  have hc := apply_carries h path
  obtain ⟨entry, hs⟩ := Option.isSome_iff_exists.mp hs
  rw [hs] at hc
  cases ho : out.at? path with
  | some kept => exact ⟨kept, rfl⟩
  | none =>
    rw [ho] at hc
    have : solid (data.at? path) = some value := solid_eq_some_iff.mpr ⟨hd, hv⟩
    rw [hc.absent] at this
    cases this

theorem null_of_absent (h : mask.apply data = .ok out) {kept : Json} (hd : data.at? path = none)
    (ho : out.at? path = some kept) : kept = .null := by
  have hc := apply_carries h path
  rw [hd, ho] at hc
  exact eq_of_solid_eq (hc.solid_eq_none solid_none)

end Mask

/-- A mask that fits a value lets out the leaves it admits, no other and no more. The arrays that it reaches
    through nested masks keep their items, each masked on its own. Arrays and objects that it has something
    to say about are still there, and whatever is found along the same path before and after has the same
    shape. Along a path that led nowhere only null is found. -/
theorem apply_selects_admitted {mask : Mask} {data out : Json} (h : mask.apply data = .ok out) :
    out.leaves = {leaf ∈ data.leaves | mask.admits leaf.1 = true} ∧
    (∀ path inner items, mask.entryAt? path = some (.nested inner) → data.at? path = some (.arr items) →
      ∃ kept, out.at? path = some (.arr kept) ∧
        List.Forall₂ (fun item item' => inner.apply item = .ok item') items kept) ∧
    (∀ path value, data.at? path = some value → value.isNull = false → (mask.entryAt? path).isSome →
      ∃ kept, out.at? path = some kept) ∧
    (∀ path value kept, data.at? path = some value → out.at? path = some kept → value.SameShape kept) ∧
    ∀ path kept, data.at? path = none → out.at? path = some kept → kept = .null := by
  refine ⟨?_, ?_, ?_, ?_, ?_⟩
  · ext ⟨path, leaf⟩
    exact Mask.mem_leaves_apply_iff h
  · intro path inner items hs hd
    exact Mask.items_apply h hs hd
  · intro path value hd hv hs
    exact Mask.present_apply h hd hv hs
  · intro path value kept hd ho
    exact Mask.sameShape_at h hd ho
  · intro path kept hd ho
    exact Mask.null_of_absent h hd ho

/-- The mask `a{b},*` on a record with a list: `c` is no leaf of what comes out, `d` and all below it is. -/
theorem apply_selects_admitted_below_list :
    let mask : Mask := .mk true [("a", .nested (.mk false [("b", .selected)])), ("*", .selected)]
    let data : Json := .obj [("d", .obj [("e", .bool true)]),
      ("a", .arr [.obj [("b", .str "x"), ("c", .str "y")], .obj [("c", .str "z")]])]
    let out : Json := .obj [("a", .arr [.obj [("b", .str "x")], .obj [("b", .null)]]), ("d", .obj [("e", .bool true)])]
    mask.apply data = .ok out ∧ out.leaves = {leaf ∈ data.leaves | mask.admits leaf.1 = true} := by
  intro mask data out
  have h : mask.apply data = .ok out := by rfl
  exact ⟨h, (apply_selects_admitted h).1⟩

end FieldMask
