import FieldMask.Proofs.SkipPolicy
import Mathlib.Data.List.Perm.Subperm

/-! Data that are the same but for the order of members (`Json.SameData`). The test compares objects by their number of
    members and looks each member up, so it means what it says only where no name is repeated. There it comes down to a
    comparison name by name (`Json.SameRecord`), at every depth.

    A run over members that keeps their order, such as over the entries of a mask or the fields of a schema, gives
    records that are in step (`Json.InStep`). -/

namespace FieldMask

section Rel
variable {α β : Type _} {R : α → β → Prop} {x : Option α} {y : Option β}

theorem rel_iff : Option.Rel R x y ↔ (x = none ∧ y = none) ∨ ∃ a b, x = some a ∧ y = some b ∧ R a b := by
  constructor
  · rintro (h | -)
    · exact Or.inr ⟨_, _, rfl, rfl, h⟩
    · exact Or.inl ⟨rfl, rfl⟩
  · rintro (⟨rfl, rfl⟩ | ⟨a, b, rfl, rfl, h⟩)
    · exact .none
    · exact .some h

theorem isSome_eq_of_rel (h : Option.Rel R x y) : x.isSome = y.isSome := by
  cases h <;> rfl

end Rel

/-! ### Lists with the same names -/

namespace Fields
variable {α β : Type _} {R : α → β → Prop} {fields : Fields α} {others : Fields β} {name : String}

theorem exists_find?_of_perm (perm : (names fields).Perm (names others)) {value : α} (hm : (name, value) ∈ fields) :
    ∃ other, find? others name = some other := by
  have hn : name ∈ names fields := List.mem_map_of_mem hm
  rw [perm.mem_iff, mem_names_iff_find?, Option.isSome_iff_exists] at hn
  exact hn

theorem rel_find? (perm : (names fields).Perm (names others))
    (h : ∀ value other, (name, value) ∈ fields → (name, other) ∈ others → R value other) :
    Option.Rel R (find? fields name) (find? others name) := by
  cases hf : find? fields name with
  | none =>
    have absent : name ∉ names others := fun hn => find?_eq_none_iff.mp hf (perm.mem_iff.mpr hn)
    rw [find?_eq_none_iff.mpr absent]
    exact .none
  | some value =>
    obtain ⟨other, ho⟩ := exists_find?_of_perm perm (mem_of_find? hf)
    rw [ho]
    exact .some (h value other (mem_of_find? hf) (mem_of_find? ho))

/-- If a list is as long as another and every value has a related one of its name there, these are all: the names are
    the same but for order, and so are the values. -/
theorem perm_of_lookups (hf : (names fields).Nodup) (ho : (names others).Nodup) (size : fields.length = others.length)
    (h : ∀ field ∈ fields, ∃ other, find? others field.1 = some other ∧ R field.2 other) :
    (names fields).Perm (names others) ∧
      ∀ name value other, (name, value) ∈ fields → (name, other) ∈ others → R value other := by
  constructor
  · have named : names fields ⊆ names others := by
      intro name hn
      obtain ⟨field, hm, rfl⟩ := List.mem_map.mp hn
      obtain ⟨other, hv, -⟩ := h field hm
      exact (mem_names_iff_find? others field.1).mpr (Option.isSome_iff_exists.mpr ⟨other, hv⟩)
    refine (List.subperm_of_subset hf named).perm_of_length_le ?_
    rw [names, names, List.length_map, List.length_map, size]
  · intro name value other hm hmo
    obtain ⟨other', hv, hr⟩ := h (name, value) hm
    obtain rfl : other' = other := Option.some.inj (hv.symm.trans (find?_of_mem ho hmo))
    exact hr

end Fields

namespace Json

/-- Two values that repeat no name in an object are the same but for the order of members, at every depth. -/
@[mk_iff] structure SameData (first second : Json) : Prop where
  distinctFirst : first.distinct = true
  distinctSecond : second.distinct = true
  same : first.same second = true

/-- Two records that repeat no name have the same under every name: nothing both, or the same data. -/
structure SameRecord (first second : Fields Json) : Prop where
  nodupFirst : (Fields.names first).Nodup
  nodupSecond : (Fields.names second).Nodup
  find? : ∀ name, Option.Rel SameData (Fields.find? first name) (Fields.find? second name)

/-- Two records have the same data under the same names in the same order, and these are among the given names, in
    their order. -/
structure InStep (names : List String) (first second : Fields Json) : Prop where
  sublist : (Fields.names first).Sublist names
  pairs : List.Forall₂ (fun member other => member.1 = other.1 ∧ SameData member.2 other.2) first second

/-! ### Lists of items and members -/

section Lists
variable {items : List Json} {members others : Fields Json}

theorem sameItems_iff {others : List Json} :
    sameItems items others = true ↔ List.Forall₂ (fun item other => item.same other = true) items others := by
  induction items generalizing others with
  | nil => cases others <;> simp [sameItems]
  | cons item rest ih =>
    cases others with
    | nil => simp [sameItems]
    | cons other more => rw [sameItems, Bool.and_eq_true, ih, List.forall₂_cons]

theorem sameMembers_iff : sameMembers members others = true ↔
    ∀ member ∈ members, ∃ other, Fields.find? others member.1 = some other ∧ member.2.same other = true := by
  induction members with
  | nil => simp [sameMembers]
  | cons head rest ih =>
    rw [sameMembers, Bool.and_eq_true, ih, List.forall_mem_cons]
    cases Fields.find? others head.1 <;> simp

end Lists

/-! ### Same data -/

section Same
variable {first second : Json} {members others : Fields Json} {items : List Json} {name : String}

theorem same_self : ∀ value : Json, value.distinct = true → value.same value = true
  | .null, _ | .bool _, _ | .num _, _ | .str _, _ => (beq_iff _ _).mpr rfl
  | .arr items, h => by
    rw [same, sameItems_iff, List.forall₂_same]
    exact fun item hm => same_self item (distinct_item h hm)
  | .obj members, h => by
    rw [same, beq_self_eq_true, Bool.true_and, sameMembers_iff]
    exact fun (name, value) hm =>
      ⟨value, Fields.find?_of_mem (nodup_of_distinct h) hm, same_self value (distinct_member h hm)⟩
termination_by value => sizeOf value
decreasing_by
  · have := List.sizeOf_lt_of_mem hm
    simp only [arr.sizeOf_spec]
    omega
  · have := List.sizeOf_lt_of_mem hm
    simp only [Prod.mk.sizeOf_spec, obj.sizeOf_spec] at this ⊢
    omega

theorem SameData.refl (h : first.distinct = true) : SameData first first := ⟨h, h, same_self first h⟩

theorem SameData.rel_refl {value : Option Json} (h : ∀ found, value = some found → found.distinct = true) :
    Option.Rel SameData value value := by
  cases value with
  | none => exact .none
  | some found => exact .some (.refl (h found rfl))

theorem SameData.null : SameData .null .null := .refl rfl

theorem sameData_arr_cons {item other : Json} {rest more : List Json} :
    SameData (.arr (item :: rest)) (.arr (other :: more)) ↔ SameData item other ∧ SameData (.arr rest) (.arr more) := by
  simp only [sameData_iff, distinct, distinctItems, same, sameItems, Bool.and_eq_true]
  tauto

theorem sameData_arr_iff {others : List Json} :
    SameData (.arr items) (.arr others) ↔ List.Forall₂ SameData items others := by
  induction items generalizing others with
  | nil => cases others <;> simp [sameData_iff, distinct, distinctItems, same, sameItems]
  | cons item rest ih =>
    cases others with
    | nil => simp [sameData_iff, same, sameItems]
    | cons other more => rw [sameData_arr_cons, List.forall₂_cons, ih]

theorem SameRecord.names_perm (h : SameRecord members others) : (Fields.names members).Perm (Fields.names others) := by
  refine (List.perm_ext_iff_of_nodup h.nodupFirst h.nodupSecond).mpr fun name => ?_
  rw [Fields.mem_names_iff_find?, Fields.mem_names_iff_find?, isSome_eq_of_rel (h.find? name)]

theorem SameData.sameRecord (h : SameData (.obj members) (.obj others)) : SameRecord members others := by
  have hf := nodup_of_distinct h.distinctFirst
  have hs := nodup_of_distinct h.distinctSecond
  have same := h.same
  rw [Json.same, Bool.and_eq_true, beq_iff_eq, sameMembers_iff] at same
  obtain ⟨perm, same⟩ := Fields.perm_of_lookups (R := fun value other => value.same other = true) hf hs same.1 same.2
  refine ⟨hf, hs, fun name => Fields.rel_find? perm fun value other hm ho => ?_⟩
  exact ⟨distinct_member h.distinctFirst hm, distinct_member h.distinctSecond ho, same name value other hm ho⟩

theorem SameRecord.sameData (h : SameRecord members others) : SameData (.obj members) (.obj others) := by
  have perm := h.names_perm
  have values {name : String} {value other : Json} (hv : Fields.find? members name = some value)
      (ho : Fields.find? others name = some other) : SameData value other := by
    have hd := h.find? name
    rw [hv, ho] at hd
    cases hd with
    | some hd => exact hd
  refine ⟨distinct_obj_iff.mpr ⟨h.nodupFirst, fun (name, value) hm => ?_⟩,
    distinct_obj_iff.mpr ⟨h.nodupSecond, fun (name, other) hm => ?_⟩, ?_⟩
  · obtain ⟨other, ho⟩ := Fields.exists_find?_of_perm perm hm
    exact (values (Fields.find?_of_mem h.nodupFirst hm) ho).distinctFirst
  · obtain ⟨value, hv⟩ := Fields.exists_find?_of_perm perm.symm hm
    exact (values hv (Fields.find?_of_mem h.nodupSecond hm)).distinctSecond
  · rw [same, Bool.and_eq_true, beq_iff_eq, sameMembers_iff]
    refine ⟨by simpa [Fields.names] using perm.length_eq, fun (name, value) hm => ?_⟩
    obtain ⟨other, ho⟩ := Fields.exists_find?_of_perm perm hm
    exact ⟨other, ho, (values (Fields.find?_of_mem h.nodupFirst hm) ho).same⟩

/-- Same data are two arrays, two objects, or one value that is neither. -/
theorem SameData.cases (h : SameData first second) :
    (∃ items others, first = .arr items ∧ second = .arr others ∧ List.Forall₂ SameData items others) ∨
    (∃ members others, first = .obj members ∧ second = .obj others ∧ SameRecord members others) ∨
    first = second ∧ first.isScalar = true := by
  cases first with
  | arr items =>
    cases second with
    | arr others => exact Or.inl ⟨items, others, rfl, rfl, sameData_arr_iff.mp h⟩
    | null | bool _ | num _ | str _ | obj _ => exact absurd h.same (by simp [Json.same, beq])
  | obj members =>
    cases second with
    | obj others => exact Or.inr (Or.inl ⟨members, others, rfl, rfl, h.sameRecord⟩)
    | null | bool _ | num _ | str _ | arr _ => exact absurd h.same (by simp [Json.same, beq])
  | null | bool _ | num _ | str _ => exact Or.inr (Or.inr ⟨(beq_iff _ _).mp (by simpa [Json.same] using h.same), rfl⟩)

theorem SameData.isNull_eq (h : SameData first second) : first.isNull = second.isNull := by
  rcases h.cases with ⟨_, _, rfl, rfl, -⟩ | ⟨_, _, rfl, rfl, -⟩ | ⟨rfl, -⟩ <;> rfl

theorem SameData.text?_eq (h : SameData first second) : first.text? = second.text? := by
  rcases h.cases with ⟨_, _, rfl, rfl, -⟩ | ⟨_, _, rfl, rfl, -⟩ | ⟨rfl, -⟩ <;> rfl

theorem SameData.member? (h : SameData first second) (name : String) :
    Option.Rel SameData (first.member? name) (second.member? name) := by
  rcases h.cases with ⟨_, _, rfl, rfl, -⟩ | ⟨_, _, rfl, rfl, hr⟩ | ⟨rfl, hs⟩
  · exact .none
  · exact hr.find? name
  · cases first with
    | arr _ | obj _ => cases hs
    | null | bool _ | num _ | str _ => exact .none

end Same

/-! ### Records in step -/

namespace InStep
variable {names more : List String} {first second third fourth : Fields Json} {name : String} {value other : Json}

theorem empty (names : List String) : InStep names [] [] := ⟨List.nil_sublist names, .nil⟩

theorem single (name : String) (h : SameData value other) : InStep [name] [(name, value)] [(name, other)] :=
  ⟨.refl _, .cons ⟨rfl, h⟩ .nil⟩

theorem skip (h : InStep names first second) (name : String) : InStep (name :: names) first second :=
  ⟨h.sublist.cons name, h.pairs⟩

theorem append (h : InStep names first second) (hm : InStep more third fourth) :
    InStep (names ++ more) (first ++ third) (second ++ fourth) where
  sublist := by
    rw [Fields.names, List.map_append]
    exact h.sublist.append hm.sublist
  pairs := List.rel_append h.pairs hm.pairs

theorem names_eq (h : InStep names first second) : Fields.names first = Fields.names second :=
  List.forall₂_eq_eq_eq ▸ List.rel_map (fun _ _ hp => hp.1) h.pairs

theorem find? (h : InStep names first second) (name : String) :
    Option.Rel SameData (Fields.find? first name) (Fields.find? second name) := by
  obtain ⟨-, pairs⟩ := h
  induction pairs with
  | nil => exact .none
  | @cons head other _ _ hp _ ih =>
    obtain ⟨same, hd⟩ := hp
    rw [Fields.find?, Fields.find?, same]
    split
    · exact .some hd
    · exact ih

theorem contains_eq (h : InStep names first second) (name : String) :
    Fields.contains first name = Fields.contains second name := isSome_eq_of_rel (h.find? name)

theorem sameRecord (h : InStep names first second) (hn : names.Nodup) : SameRecord first second :=
  ⟨h.sublist.nodup hn, h.names_eq ▸ h.sublist.nodup hn, h.find?⟩

end InStep
end Json
end FieldMask
