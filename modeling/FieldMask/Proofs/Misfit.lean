import FieldMask.Proofs.Filtering
import FieldMask.Proofs.Nodes

/-! When a mask refuses data, and whom it blames. Only nested entries look into the data, so a value fits a mask
    unless they lead to a scalar or to null in a list (`Mask.Misfit`). The first such value in the order of the
    entries and of the items decides, and the last nested entry on the way to it takes the blame
    (`Mask.FirstMisfit`). Everything else in the mask and in the data is beside the point: a mask is refused as the
    mask with nothing but its nested entries is (`Mask.nestedOnly`), on any data that look the same to these
    (`Mask.SeesAlike`). -/

namespace FieldMask

/-- Whether the value has neither items nor members. -/
def Json.isScalar : Json → Bool
  | .arr _ | .obj _ => false
  | .null | .bool _ | .num _ | .str _ => true

/-- `Misfit mask value`: the value does not fit the mask. A scalar or null never does. An array does not if an item
    does not, and an object does not if a nested entry finds a value there, other than null, that does not fit
    its mask. -/
inductive Mask.Misfit : Mask → Json → Prop
  | scalar (mask : Mask) {value : Json} : value.isScalar = true → Misfit mask value
  | item {mask : Mask} {items : List Json} {item : Json} : item ∈ items → Misfit mask item → Misfit mask (.arr items)
  | member {mask inner : Mask} {members : Fields Json} {name : String} {value : Json} :
      (name, .nested inner) ∈ mask.entries → name ≠ wildcard → solid (Fields.find? members name) = some value →
      Misfit inner value → Misfit mask (.obj members)

/-- `MisfitAt field members`: the entry of that name leads to a value that does not fit its mask. -/
def Mask.MisfitAt (field : String × Entry) (members : Fields Json) : Prop :=
  field.1 ≠ wildcard ∧ ∃ inner value, field.2 = .nested inner ∧ solid (Fields.find? members field.1) = some value ∧
    inner.Misfit value

/-- `FirstMisfit mask value path`: the path leads to the first scalar in the value that does not fit. Everything
    before it does: the items that stand before, and what the entries that come before lead to. -/
inductive Mask.FirstMisfit : Mask → Json → List Step → Prop
  | scalar (mask : Mask) {value : Json} : value.isScalar = true → FirstMisfit mask value []
  | item {mask : Mask} {before after : List Json} {item : Json} {path : List Step} :
      (∀ other ∈ before, ¬ mask.Misfit other) → FirstMisfit mask item path →
      FirstMisfit mask (.arr (before ++ item :: after)) (.index before.length :: path)
  | member {mask inner : Mask} {before after : List (String × Entry)} {members : Fields Json} {name : String}
      {value : Json} {path : List Step} :
      mask.entries = before ++ (name, .nested inner) :: after → name ≠ wildcard →
      (∀ other ∈ before, ¬ MisfitAt other members) → solid (Fields.find? members name) = some value →
      FirstMisfit inner value path → FirstMisfit mask (.obj members) (.key name :: path)

mutual

/-- The mask with nothing but its nested entries, the wildcard's apart, and with no flag set. -/
def Mask.nestedOnly : Mask → Mask
  | .mk _ entries => .mk false (Mask.nestedEntries entries)

/-- The nested entries among some entries, each with nothing but nested entries. -/
def Mask.nestedEntries : List (String × Entry) → List (String × Entry)
  | [] => []
  | (name, entry) :: rest => (if name = wildcard then [] else entry.nestedOnly name) ++ Mask.nestedEntries rest

/-- The entry under a name, if it is nested, with nothing but nested entries. -/
def Entry.nestedOnly (name : String) : Entry → List (String × Entry)
  | .selected => []
  | .nested mask => [(name, .nested mask.nestedOnly)]

end

mutual

/-- `SeesAlike mask first second`: two values look the same to the nested entries of a mask. Both are scalars, or
    arrays whose items look the same one by one, or objects in which the value of every nested entry does. -/
inductive Mask.SeesAlike : Mask → Json → Json → Prop
  | scalar (mask : Mask) {first second : Json} : first.isScalar = true → second.isScalar = true →
      SeesAlike mask first second
  | arr {mask : Mask} {items others : List Json} : Mask.SeesItemsAlike mask items others →
      SeesAlike mask (.arr items) (.arr others)
  | obj {mask : Mask} {members others : Fields Json} :
      (∀ name inner, (name, .nested inner) ∈ mask.entries → name ≠ wildcard →
        Mask.SeesMemberAlike inner (solid (Fields.find? members name)) (solid (Fields.find? others name))) →
      SeesAlike mask (.obj members) (.obj others)

/-- Two lists of items look the same to a mask, item by item. -/
inductive Mask.SeesItemsAlike : Mask → List Json → List Json → Prop
  | nil (mask : Mask) : SeesItemsAlike mask [] []
  | cons {mask : Mask} {item other : Json} {items others : List Json} : Mask.SeesAlike mask item other →
      SeesItemsAlike mask items others → SeesItemsAlike mask (item :: items) (other :: others)

/-- A member is absent from both sides, or there on both with values that look the same to a mask. -/
inductive Mask.SeesMemberAlike : Mask → Option Json → Option Json → Prop
  | absent (mask : Mask) : SeesMemberAlike mask none none
  | present {mask : Mask} {value other : Json} : Mask.SeesAlike mask value other →
      SeesMemberAlike mask (some value) (some other)

end

/-- The name that a step goes to, if it goes to a member. -/
def Step.name? : Step → Option String
  | .key name => some name
  | .index _ => none

/-- The last name on a path. -/
def lastName? (path : List Step) : Option String := (path.filterMap Step.name?).getLast?

/-! ### The first misfit -/

theorem lastName?_key (name : String) (path : List Step) :
    lastName? (.key name :: path) = some ((lastName? path).getD name) :=
  List.getLast?_cons

theorem lastName?_eq_none_iff {path : List Step} : lastName? path = none ↔ ∀ name, .key name ∉ path := by
  rw [lastName?, List.getLast?_eq_none_iff, List.filterMap_eq_nil_iff]
  constructor
  · intro h name hm
    cases h _ hm
  · intro h step hm
    cases step with
    | key name => exact absurd hm (h name)
    | index place => rfl

/-- The innermost field keeps the blame on the way out. -/
theorem atField_lastName? (name : String) (path : List Step) :
    (Refusal.inconsistent (lastName? path)).atField name = .inconsistent (lastName? (.key name :: path)) := by
  rw [lastName?_key]
  cases lastName? path <;> rfl

namespace Mask
variable {mask : Mask} {entries : List (String × Entry)} {skip : Bool} {record members : Fields Json}
  {field : String × Entry} {data : Json} {items : List Json} {path : List Step} {refusal : Refusal}

theorem FirstMisfit.misfit (h : mask.FirstMisfit data path) : mask.Misfit data := by
  induction h with
  | scalar mask hs => exact .scalar mask hs
  | item _ _ ih => exact .item (List.mem_append_right _ List.mem_cons_self) ih
  | member he hw _ hv _ ih => exact .member (he ▸ List.mem_append_right _ List.mem_cons_self) hw hv ih

/-! ### One entry -/

/-- What a field of a mask lets out of a record. -/
def letOut (skip : Bool) (record : Fields Json) (field : String × Entry) : Except Refusal (Fields Json) :=
  if field.1 = wildcard then .ok [] else field.2.filter skip record field.1

theorem filterEntries_cons_eq {rest : List (String × Entry)} : filterEntries skip record (field :: rest) =
    letOut skip record field >>= fun output => (output ++ ·) <$> filterEntries skip record rest := by
  obtain ⟨name, entry⟩ := field
  by_cases hw : name = wildcard
  · subst hw
    rw [filterEntries_wildcard, letOut, if_pos rfl, ok_bind]
    cases filterEntries skip record rest <;> rfl
  · rw [filterEntries_named hw, letOut, if_neg hw]

theorem filterEntries_eq_mapM : filterEntries skip record entries = List.flatten <$> entries.mapM (letOut skip record) := by
  induction entries with
  | nil => rfl
  | cons field rest ih =>
    rw [filterEntries_cons_eq, ih, List.mapM_cons]
    cases letOut skip record field with
    | error cause => rfl
    | ok output => cases rest.mapM (letOut skip record) <;> rfl

/-- Only a nested entry is refused, and for what its mask is refused for. -/
theorem letOut_eq_error_iff : letOut skip record field = .error refusal ↔
    field.1 ≠ wildcard ∧ ∃ inner value cause, field.2 = .nested inner ∧
      solid (Fields.find? record field.1) = some value ∧ inner.apply value = .error cause ∧
      refusal = cause.atField field.1 := by
  obtain ⟨name, entry⟩ := field
  rw [letOut]
  by_cases hw : name = wildcard
  · simp [hw]
  rw [if_neg hw]
  cases entry with
  | selected =>
    cases hv : Fields.find? record name with
    | none => simp [Entry.filter_absent hv]
    | some value => simp [Entry.filter_selected hv]
  | nested inner =>
    cases hs : solid (Fields.find? record name) with
    | none => simp [Entry.filter_nested_absent hs]
    | some value =>
      obtain ⟨hv, hz⟩ := solid_eq_some_iff.mp hs
      rw [Entry.filter_nested hv hz, map_eq_error_iff]
      cases hc : inner.apply value <;> simp [hw, hc, eq_comm]

/-! ### Whole values -/

theorem apply_scalar (h : data.isScalar = true) : mask.apply data = .error (.inconsistent none) := by
  cases data with
  | null | bool _ | num _ | str _ => rfl
  | arr _ | obj _ => cases h

theorem apply_arr (items : List Json) : mask.apply (.arr items) = Json.arr <$> dumpItems mask.apply items :=
  congrArg (Json.arr <$> ·) (Json.mapItems_eq_dumpItems items)

theorem apply_arr_eq_error_iff : mask.apply (.arr items) = .error refusal ↔ items.mapM mask.apply = .error refusal := by
  rw [apply_arr, map_eq_error_iff, dumpItems_eq_mapM]

theorem apply_obj_eq_error_iff :
    mask.apply (.obj members) = .error refusal ↔ mask.entries.mapM (letOut mask.skip members) = .error refusal := by
  obtain ⟨skip, entries⟩ := mask
  have h : (mk skip entries).apply (.obj members) = Json.obj <$> (mk skip entries).filter members := rfl
  rw [h, map_eq_error_iff, filter, bind_pure_comp, map_eq_error_iff, filterEntries_eq_mapM, map_eq_error_iff,
    skip_mk, entries_mk]

/-- What does not fit is refused. -/
theorem Misfit.refused (h : mask.Misfit data) : ∃ refusal, mask.apply data = .error refusal := by
  induction h with
  | scalar mask hs => exact ⟨_, apply_scalar hs⟩
  | item hm _ ih =>
    obtain ⟨cause, hc⟩ := ih
    exact (exists_error_of_mapM hm hc).imp fun _ => apply_arr_eq_error_iff.mpr
  | @member mask inner members name value hm hw hv _ ih =>
    obtain ⟨cause, hc⟩ := ih
    have refused : letOut mask.skip members (name, .nested inner) = .error (cause.atField name) :=
      letOut_eq_error_iff.mpr ⟨hw, inner, value, cause, rfl, hv, hc, rfl⟩
    exact (exists_error_of_mapM hm refused).imp fun _ => apply_obj_eq_error_iff.mpr

theorem not_misfit_of_ok {out : Json} (h : mask.apply data = .ok out) : ¬ mask.Misfit data := by
  intro hm
  obtain ⟨refusal, hr⟩ := hm.refused
  cases h.symm.trans hr

theorem not_misfitAt_of_ok {out : Fields Json} (h : letOut skip members field = .ok out) : ¬ MisfitAt field members := by
  rintro ⟨hw, inner, value, he, hv, hm⟩
  obtain ⟨cause, hc⟩ := hm.refused
  have refused : letOut skip members field = .error (cause.atField field.1) :=
    letOut_eq_error_iff.mpr ⟨hw, inner, value, cause, he, hv, hc, rfl⟩
  cases h.symm.trans refused

/-- A refused value holds a first misfit, and the last name on the way to it takes the blame. -/
theorem exists_firstMisfit (h : mask.apply data = .error refusal) :
    ∃ path, mask.FirstMisfit data path ∧ refusal = .inconsistent (lastName? path) := by
  induction mask using nodeInduction generalizing data refusal with
  | step skip entries ihm =>
    induction data using Json.itemInduction generalizing refusal with
    | step data ihd =>
      cases data with
      | arr items =>
        obtain ⟨before, item, after, rfl, hb, hi⟩ := mapM_eq_error_iff.mp (apply_arr_eq_error_iff.mp h)
        obtain ⟨path, hp, rfl⟩ := ihd _ rfl item (List.mem_append_right _ List.mem_cons_self) hi
        refine ⟨.index before.length :: path, .item (fun other ho => ?_) hp, rfl⟩
        obtain ⟨out, hout⟩ := hb other ho
        exact not_misfit_of_ok hout
      | obj members =>
        obtain ⟨before, ⟨name, entry⟩, after, he, hb, hf⟩ := mapM_eq_error_iff.mp (apply_obj_eq_error_iff.mp h)
        obtain ⟨hw, inner, value, cause, rfl, hv, hc, rfl⟩ := letOut_eq_error_iff.mp hf
        have hm : (name, .nested inner) ∈ (mk skip entries).entries := he ▸ List.mem_append_right _ List.mem_cons_self
        obtain ⟨path, hp, rfl⟩ := ihm name inner hm hc
        refine ⟨.key name :: path, .member he hw (fun other ho => ?_) hv hp, atField_lastName? name path⟩
        obtain ⟨out, hout⟩ := hb other ho
        exact not_misfitAt_of_ok hout
      | null | bool _ | num _ | str _ =>
        cases h
        exact ⟨[], .scalar _ rfl, rfl⟩

theorem misfit_iff : (∃ refusal, mask.apply data = .error refusal) ↔ mask.Misfit data := by
  constructor
  · rintro ⟨refusal, h⟩
    obtain ⟨path, hp, -⟩ := exists_firstMisfit h
    exact hp.misfit
  · exact Misfit.refused

theorem ok_of_not_misfit (h : ¬ mask.Misfit data) : ∃ out, mask.apply data = .ok out := by
  cases ha : mask.apply data with
  | ok out => exact ⟨out, rfl⟩
  | error refusal => exact absurd (misfit_iff.mp ⟨refusal, ha⟩) h

theorem ok_of_not_misfitAt (h : ¬ MisfitAt field members) (skip : Bool) : ∃ out, letOut skip members field = .ok out := by
  cases ha : letOut skip members field with
  | ok out => exact ⟨out, rfl⟩
  | error refusal =>
    obtain ⟨hw, inner, value, cause, he, hv, hc, -⟩ := letOut_eq_error_iff.mp ha
    exact absurd ⟨hw, inner, value, he, hv, misfit_iff.mp ⟨cause, hc⟩⟩ h

theorem FirstMisfit.blamed (h : mask.FirstMisfit data path) : mask.apply data = .error (.inconsistent (lastName? path)) := by
  induction h with
  | scalar mask hs => exact apply_scalar hs
  | @item mask before after item path hb _ ih =>
    refine apply_arr_eq_error_iff.mpr (mapM_eq_error_iff.mpr ⟨before, item, after, rfl, fun other ho => ?_, ih⟩)
    exact ok_of_not_misfit (hb other ho)
  | @member mask inner before after members name value path he hw hb hv _ ih =>
    refine apply_obj_eq_error_iff.mpr (mapM_eq_error_iff.mpr ⟨before, (name, .nested inner), after, he, fun other ho => ?_, ?_⟩)
    · exact ok_of_not_misfitAt (hb other ho) mask.skip
    · exact letOut_eq_error_iff.mpr ⟨hw, inner, value, _, rfl, hv, ih, (atField_lastName? name path).symm⟩

/-! ### What is beside the point -/

section Alike
variable {mask other inner below : Mask} {entries : List (String × Entry)} {skip flag : Bool}
  {entry : Entry} {first second : Fields Json} {name : String}

/-- What is taken whole is never refused, nor is the wildcard. -/
theorem letOut_ok (h : name = wildcard ∨ entry = .selected) (skip : Bool) (record : Fields Json) :
    ∃ out, letOut skip record (name, entry) = .ok out := by
  refine ok_of_not_misfitAt ?_ skip
  rintro ⟨hw, inner, value, he, -⟩
  rcases h with h | h
  · exact hw h
  · cases h.symm.trans he

theorem letOut_nested_alike (h : Option.Rel (fun value other => RefusedAlike (inner.apply value) (below.apply other))
    (solid (Fields.find? first name)) (solid (Fields.find? second name))) :
    RefusedAlike (letOut skip first (name, .nested inner)) (letOut flag second (name, .nested below)) := by
  by_cases hw : name = wildcard
  · simp only [letOut, hw, if_true]
    exact .ok trivial
  · simp only [letOut, hw, if_false]
    generalize ha : solid (Fields.find? first name) = a at h
    generalize hb : solid (Fields.find? second name) = b at h
    cases h with
    | none =>
      rw [Entry.filter_nested_absent ha, Entry.filter_nested_absent hb]
      exact .ok trivial
    | some h =>
      obtain ⟨hfa, hza⟩ := solid_eq_some_iff.mp ha
      obtain ⟨hfb, hzb⟩ := solid_eq_some_iff.mp hb
      rw [Entry.filter_nested hfa hza, Entry.filter_nested hfb hzb]
      exact (h.atField name).map fun _ _ _ => trivial

theorem apply_obj_alike (h : RefusedAlike (filterEntries mask.skip first mask.entries)
      (filterEntries other.skip second other.entries)) :
    RefusedAlike (mask.apply (.obj first)) (other.apply (.obj second)) := by
  obtain ⟨skip, entries⟩ := mask
  obtain ⟨flag, others⟩ := other
  have hf : RefusedAlike ((mk skip entries).filter first) ((mk flag others).filter second) :=
    h.bind fun _ _ _ => .ok trivial
  exact hf.map fun _ _ _ => trivial

theorem apply_arr_alike {items kept : List Json}
    (h : List.Forall₂ (fun item item' => RefusedAlike (mask.apply item) (other.apply item')) items kept) :
    RefusedAlike (mask.apply (.arr items)) (other.apply (.arr kept)) := by
  rw [apply_arr, apply_arr]
  exact (dumpItems_alike h).map fun _ _ _ => trivial

/-- Of the entries only the nested ones can be refused. -/
theorem nestedEntries_alike (h : ∀ name inner, (name, .nested inner) ∈ entries → ∀ value,
      RefusedAlike (inner.nestedOnly.apply value) (inner.apply value)) :
    RefusedAlike (filterEntries false first (nestedEntries entries)) (filterEntries skip first entries) := by
  induction entries with
  | nil => exact .ok trivial
  | cons head rest ih =>
    obtain ⟨name, entry⟩ := head
    have ih := ih fun name inner hm => h name inner (List.mem_cons_of_mem _ hm)
    rw [nestedEntries, filterEntries_cons_eq]
    by_cases free : name = wildcard ∨ entry = .selected
    · obtain ⟨out, ho⟩ := letOut_ok free skip first
      have gone : (if name = wildcard then [] else entry.nestedOnly name) = [] := by
        rcases free with hw | rfl
        · exact if_pos hw
        · exact ite_self _
      rw [gone, ho, ok_bind]
      exact ih.map_right fun _ _ _ => trivial
    · obtain ⟨hw, he⟩ := not_or.mp free
      rw [if_neg hw]
      cases entry with
      | selected => exact absurd rfl he
      | nested inner =>
        rw [Entry.nestedOnly, List.singleton_append, filterEntries_cons_eq]
        have here : RefusedAlike (letOut false first (name, .nested inner.nestedOnly))
            (letOut skip first (name, .nested inner)) := by
          refine letOut_nested_alike ?_
          cases solid (Fields.find? first name) with
          | none => exact .none
          | some value => exact .some (h name inner List.mem_cons_self value)
        exact here.bind fun _ _ _ => ih.map fun _ _ _ => trivial

theorem nestedOnly_alike (mask : Mask) (data : Json) :
    RefusedAlike (mask.nestedOnly.apply data) (mask.apply data) := by
  induction mask using nodeInduction generalizing data with
  | step skip entries ihm =>
    induction data using Json.itemInduction with
    | step data ihd =>
      cases data with
      | arr items => exact apply_arr_alike (List.forall₂_same.mpr (ihd items rfl))
      | obj members => exact apply_obj_alike (nestedEntries_alike ihm)
      | null | bool _ | num _ | str _ => exact .error _

theorem filterEntries_alike (h : ∀ field ∈ entries, RefusedAlike (letOut skip first field) (letOut skip second field)) :
    RefusedAlike (filterEntries skip first entries) (filterEntries skip second entries) := by
  induction entries with
  | nil => exact .ok trivial
  | cons field rest ih =>
    rw [filterEntries_cons_eq, filterEntries_cons_eq]
    have ih := ih fun other hm => h other (List.mem_cons_of_mem _ hm)
    exact (h field List.mem_cons_self).bind fun _ _ _ => ih.map fun _ _ _ => trivial

mutual

theorem SeesAlike.alike {mask : Mask} {first second : Json} :
    SeesAlike mask first second → RefusedAlike (mask.apply first) (mask.apply second)
  | .scalar _ hf hs => by
    rw [apply_scalar hf, apply_scalar hs]
    exact .error _
  | .arr h => apply_arr_alike h.alike
  | .obj h => by
    refine apply_obj_alike (filterEntries_alike fun (name, entry) hm => ?_)
    by_cases free : name = wildcard ∨ entry = .selected
    · obtain ⟨out, ho⟩ := letOut_ok free mask.skip _
      obtain ⟨kept, hk⟩ := letOut_ok free mask.skip _
      rw [ho, hk]
      exact .ok trivial
    · obtain ⟨hw, he⟩ := not_or.mp free
      cases entry with
      | selected => exact absurd rfl he
      | nested inner => exact letOut_nested_alike (h name inner hm hw).alike

theorem SeesItemsAlike.alike {mask : Mask} {items others : List Json} : SeesItemsAlike mask items others →
    List.Forall₂ (fun item other => RefusedAlike (mask.apply item) (mask.apply other)) items others
  | .nil _ => .nil
  | .cons h hr => .cons h.alike hr.alike

theorem SeesMemberAlike.alike {mask : Mask} {value other : Option Json} : SeesMemberAlike mask value other →
    Option.Rel (fun value other => RefusedAlike (mask.apply value) (mask.apply other)) value other
  | .absent _ => .none
  | .present h => .some h.alike

end

end Alike
end Mask

/-- A mask is refused exactly on data that do not fit it, as inconsistent at the last field on the way to the first
    scalar that it wants to look into, or at no field if it comes to none. Only its nested entries count, and only
    what they look at: another mask with the same nested entries, put on data that look the same to them, is
    refused alike. -/
theorem apply_refused_iff (mask : Mask) (data : Json) :
    ((∃ refusal, mask.apply data = .error refusal) ↔ mask.Misfit data) ∧
    (∀ refusal, mask.apply data = .error refusal ↔ ∃ path, mask.FirstMisfit data path ∧
      refusal = .inconsistent (lastName? path) ∧ (refusal.field? = none ↔ ∀ name, .key name ∉ path)) ∧
    ∀ (other : Mask) (data' : Json), mask.nestedOnly = other.nestedOnly → mask.SeesAlike data data' →
      ∀ refusal, mask.apply data = .error refusal ↔ other.apply data' = .error refusal := by
  refine ⟨Mask.misfit_iff, fun refusal => ⟨fun h => ?_, ?_⟩, fun other data' hm hd refusal => ?_⟩
  · obtain ⟨path, hp, rfl⟩ := Mask.exists_firstMisfit h
    exact ⟨path, hp, rfl, lastName?_eq_none_iff⟩
  · rintro ⟨path, hp, rfl, -⟩
    exact hp.blamed
  · have first := (mask.nestedOnly_alike data').error_iff refusal
    have second := (other.nestedOnly_alike data').error_iff refusal
    rw [hd.alike.error_iff, ← first, hm, second]

/-- The masks `x,a{b{}},*{z{}}` and `a{b{},y}`. Of the second item of `a` the member `b` is an array of a scalar. -/
theorem apply_refused_iff_in_list :
    let below : Mask := .mk false [("b", .nested (.mk true []))]
    let mask : Mask := .mk true [("x", .selected), ("a", .nested below), ("*", .nested (.mk true [("z", .nested below)]))]
    let other : Mask := .mk false [("a", .nested (.mk true [("b", .nested (.mk false [])), ("y", .selected)]))]
    let data : Json := .obj [("x", .null), ("a", .arr [.obj [("b", .null)], .obj [("b", .arr [.null])]])]
    let data' : Json := .obj [("a", .arr [.obj [], .obj [("y", .null), ("b", .arr [.str "d"])]]), ("z", .str "e")]
    mask.nestedOnly = other.nestedOnly ∧ mask.SeesAlike data data' ∧
      mask.FirstMisfit data [.key "a", .index 1, .key "b", .index 0] ∧
      mask.apply data = .error (.inconsistent (some "b")) ∧ other.apply data' = .error (.inconsistent (some "b")) := by
  intro below mask other data data'
  have same : mask.nestedOnly = other.nestedOnly := by decide
  have items {first second : Fields Json} (h : Mask.SeesMemberAlike (.mk true []) (solid (Fields.find? first "b"))
      (solid (Fields.find? second "b"))) : below.SeesAlike (.obj first) (.obj second) := by
    refine .obj fun name inner hm _ => ?_
    obtain ⟨rfl, rfl⟩ : name = "b" ∧ inner = .mk true [] := by simpa [below] using hm
    exact h
  have sees : mask.SeesAlike data data' := by
    refine .obj fun name inner hm hw => ?_
    obtain ⟨rfl, rfl⟩ : name = "a" ∧ inner = below := by
      simp only [mask, Mask.entries_mk, List.mem_cons, Prod.mk.injEq, reduceCtorEq, and_false, Entry.nested.injEq,
        List.not_mem_nil, or_false, false_or] at hm
      exact hm.resolve_right fun h => hw h.1
    have null : Mask.SeesAlike (.mk true []) (.arr [.null]) (.arr [.str "d"]) := .arr (.cons (.scalar _ rfl rfl) (.nil _))
    exact .present (.arr (.cons (items (.absent _)) (.cons (items (.present null)) (.nil _))))
  have first : mask.FirstMisfit data [.key "a", .index 1, .key "b", .index 0] := by
    have null : Mask.FirstMisfit (.mk true []) (.arr [.null]) [.index 0] :=
      @Mask.FirstMisfit.item _ [] [] _ _ nofun (.scalar _ rfl)
    have item : below.FirstMisfit (.obj [("b", .arr [.null])]) [.key "b", .index 0] :=
      @Mask.FirstMisfit.member _ _ [] [] _ _ _ _ rfl (by decide) nofun rfl null
    have list : below.FirstMisfit (.arr [.obj [("b", .null)], .obj [("b", .arr [.null])]]) [.index 1, .key "b", .index 0] :=
      @Mask.FirstMisfit.item _ [_] [] _ _ (List.forall_mem_singleton.mpr (Mask.not_misfit_of_ok rfl)) item
    refine @Mask.FirstMisfit.member _ _ [("x", .selected)] _ _ _ _ _ rfl (by decide) ?_ rfl list
    refine List.forall_mem_singleton.mpr ?_
    rintro ⟨-, inner, value, he, -⟩
    cases he
  obtain ⟨-, refused, alike⟩ := apply_refused_iff mask data
  have h : mask.apply data = .error (.inconsistent (some "b")) :=
    (refused _).mpr ⟨_, first, rfl, iff_of_false nofun fun none => none "a" List.mem_cons_self⟩
  exact ⟨same, sees, first, h, (alike other data' same sees _).mp h⟩

end FieldMask
