import Mathlib.Data.List.Forall2
import FieldMask.Request
import FieldMask.Proofs.Outcome

/-! A mask on a mixture of data and fields, against the mask on the data alone. Data that came in as records, as
    serialized values or in lists of them ends as the plain value does, at the same refusal
    (`Mask.applyTarget_alike`). A field has no value, neither before the mask is put on it nor after
    (`Target.HasField.applyTarget`). -/

namespace FieldMask

/-- A field of a schema stands in the target, at any depth. -/
inductive Target.HasField : Target → Prop
  | here (field : Field) : HasField (.field field)
  | inside {items : List Target} {item : Target} : item ∈ items → HasField item → HasField (.list items)

/-- The target stands for the value. -/
def Target.Holds (target : Target) (value : Json) : Prop := target.toJson? = some value

namespace Target

theorem itemsToJson?_eq_some_iff {items : List Target} {values : List Json} :
    itemsToJson? items = some values ↔ List.Forall₂ Holds items values := by
  induction items generalizing values with
  | nil => simp [itemsToJson?, eq_comm]
  | cons item rest ih =>
    simp only [itemsToJson?, Option.bind_eq_bind, Option.bind_eq_some_iff, Option.pure_def, Option.some.injEq,
      List.forall₂_cons_left_iff]
    constructor
    · rintro ⟨first, hf, others, ho, rfl⟩
      exact ⟨first, others, hf, ih.mp ho, rfl⟩
    · rintro ⟨first, others, hf, ho, rfl⟩
      exact ⟨first, hf, others, ih.mpr ho, rfl⟩

theorem holds_list {items : List Target} {values : List Json} (h : List.Forall₂ Holds items values) :
    (list items).Holds (.arr values) := by
  rw [Holds, toJson?, itemsToJson?_eq_some_iff.mpr h]
  rfl

theorem holds_list_iff {items : List Target} {value : Json} :
    (list items).Holds value ↔ ∃ values, value = .arr values ∧ List.Forall₂ Holds items values := by
  constructor
  · intro h
    obtain ⟨values, hv, rfl⟩ := Option.map_eq_some_iff.mp (show Json.arr <$> itemsToJson? items = some value from h)
    exact ⟨values, rfl, itemsToJson?_eq_some_iff.mp hv⟩
  · rintro ⟨values, rfl, h⟩
    exact holds_list h

theorem hasField_list_iff {items : List Target} : (list items).HasField ↔ ∃ item ∈ items, item.HasField := by
  constructor
  · rintro (_ | ⟨hm, h⟩)
    exact ⟨_, hm, h⟩
  · rintro ⟨item, hm, h⟩
    exact .inside hm h

mutual

/-- A target has no value exactly if a field stands in it. -/
theorem toJson?_eq_none_iff : ∀ target : Target, target.toJson? = none ↔ target.HasField
  | .list items => by
    rw [toJson?, hasField_list_iff, ← itemsToJson?_eq_none_iff items]
    exact Option.map_eq_none_iff
  | .field kind => iff_of_true rfl (.here kind)
  | .json value => iff_of_false (by simp [toJson?]) nofun
  | .record members => iff_of_false (by simp [toJson?]) nofun

theorem itemsToJson?_eq_none_iff : ∀ items : List Target, itemsToJson? items = none ↔ ∃ item ∈ items, item.HasField
  | [] => by simp [itemsToJson?]
  | item :: rest => by
    rw [List.exists_mem_cons_iff, ← toJson?_eq_none_iff item, ← itemsToJson?_eq_none_iff rest, itemsToJson?]
    cases item.toJson? with
    | none => simp
    | some first => cases itemsToJson? rest <;> simp

end

mutual

theorem holds_ofJson : ∀ value : Json, (ofJson value).Holds value
  | .arr items => holds_list (holds_ofItems items)
  | .null | .bool _ | .num _ | .str _ | .obj _ => rfl

theorem holds_ofItems : ∀ items : List Json, List.Forall₂ Holds (ofItems items) items
  | [] => .nil
  | item :: rest => .cons (holds_ofJson item) (holds_ofItems rest)

end
end Target

/-! ### Data -/

namespace Mask
variable (mask : Mask)

theorem record_alike (members : Fields Json) :
    Alike Target.Holds (Target.record <$> mask.filter members) (mask.apply (.obj members)) :=
  (Alike.refl (fun _ => rfl) (mask.filter members)).map fun _ _ h => congrArg (some ∘ Json.obj) h

mutual

theorem applyValue_alike : ∀ value : Json, Alike Target.Holds (mask.applyValue value) (mask.apply value)
  | .obj members => record_alike mask members
  | .arr items => (applyItems_alike items).map fun _ _ h => Target.holds_list h
  | .null | .bool _ | .num _ | .str _ => .error _

theorem applyItems_alike : ∀ items : List Json,
    Alike (List.Forall₂ Target.Holds) (applyItems mask items) (Json.mapItems mask.filter items)
  | [] => .ok .nil
  | item :: rest => (applyValue_alike item).bind fun _ _ h => (applyItems_alike rest).map fun _ _ hr => .cons h hr

end

mutual

/-- A mask ends alike on a target and on the value that it stands for. -/
theorem applyTarget_alike : ∀ {target : Target} {value : Json}, target.Holds value →
    Alike Target.Holds (mask.applyTarget target) (mask.apply value)
  | .list items, value, h => by
    obtain ⟨values, rfl, hv⟩ := Target.holds_list_iff.mp h
    exact (applyTargets_alike hv).map fun _ _ hr => Target.holds_list hr
  | .field field, value, h => nomatch h
  | .json given, value, h => by
    obtain rfl : given = value := Option.some.inj h
    exact applyValue_alike mask given
  | .record members, value, h => by
    obtain rfl : Json.obj members = value := Option.some.inj h
    exact record_alike mask members

theorem applyTargets_alike : ∀ {targets : List Target} {values : List Json}, List.Forall₂ Target.Holds targets values →
    Alike (List.Forall₂ Target.Holds) (applyTargets mask targets) (Json.mapItems mask.filter values)
  | [], _, .nil => .ok .nil
  | _ :: _, _, .cons h hr =>
    (applyTarget_alike h).bind fun _ _ h => (applyTargets_alike hr).map fun _ _ hr => .cons h hr

end

/-! ### Fields -/

variable {mask}

theorem exists_of_applyTargets {targets results : List Target} (h : applyTargets mask targets = .ok results)
    {target : Target} (hm : target ∈ targets) : ∃ result ∈ results, mask.applyTarget target = .ok result := by
  induction targets generalizing results with
  | nil => cases hm
  | cons head rest ih =>
    rw [applyTargets] at h
    obtain ⟨first, hf, h⟩ := bind_eq_ok_iff.mp h
    obtain ⟨others, ho, h⟩ := bind_eq_ok_iff.mp h
    cases h
    rcases List.mem_cons.mp hm with rfl | hm
    · exact ⟨first, List.mem_cons_self, hf⟩
    · obtain ⟨result, hr, ht⟩ := ih ho hm
      exact ⟨result, List.mem_cons_of_mem _ hr, ht⟩

end Mask

/-- A field stays a field when a mask is put on it. -/
theorem Target.HasField.applyTarget {mask : Mask} {target result : Target} (h : target.HasField)
    (hr : mask.applyTarget target = .ok result) : result.HasField := by
  induction h generalizing result with
  | here field =>
    obtain ⟨narrowed, -, rfl⟩ := map_eq_ok_iff.mp (show Target.field <$> field.applyMask mask = .ok result from hr)
    exact .here narrowed
  | @inside items item hm _ ih =>
    obtain ⟨results, ha, rfl⟩ := map_eq_ok_iff.mp (show Target.list <$> Mask.applyTargets mask items = .ok result from hr)
    obtain ⟨kept, hk, ht⟩ := Mask.exists_of_applyTargets ha hm
    exact .inside hk (ih ht)

/-- On a target that stands for a value a mask ends as it does on the value, and what comes out stands for what
    comes out there. A target in which a field stands has no value, nor has what a mask makes of it. Every value
    has targets that stand for it: the one it makes, the value as it was serialized, and the one that a record
    of this form makes. -/
theorem apply_target_agrees (mask : Mask) (target : Target) :
    (∀ value, target.Holds value → Alike Target.Holds (mask.applyTarget target) (mask.apply value)) ∧
    (target.HasField → target.toJson? = none ∧
      ∀ result, mask.applyTarget target = .ok result → result.toJson? = none) ∧
    ∀ value, (Target.ofJson value).Holds value ∧
      Alike Target.Holds (mask.applyTarget (.ofJson value)) (mask.apply value) ∧
      Alike Target.Holds (mask.applyTarget (.json value)) (mask.apply value) ∧
      ∀ record : Record, record.toJson = .ok value →
        Alike Target.Holds (Target.ofRecord record >>= mask.applyTarget) (mask.apply value) := by
  refine ⟨fun value h => mask.applyTarget_alike h, fun h => ⟨?_, fun result hr => ?_⟩, fun value => ?_⟩
  · exact target.toJson?_eq_none_iff.mpr h
  · exact result.toJson?_eq_none_iff.mpr (h.applyTarget hr)
  · have made := Target.holds_ofJson value
    have given : (Target.json value).Holds value := rfl
    refine ⟨made, mask.applyTarget_alike made, mask.applyTarget_alike given, fun record h => ?_⟩
    rw [Target.ofRecord, h, map_ok, ok_bind]
    exact mask.applyTarget_alike given

/-- The mask `a{b}` on a list of an array as it was serialized and a record: the first item has nothing to
    filter, the second is refused. -/
theorem apply_target_agrees_on_mixture :
    let mask : Mask := .mk true [("a", .nested (.mk false [("b", .selected)]))]
    let target : Target := .list [.json (.arr [.obj [("a", .null)]]), .record [("a", .arr [.str "x"])]]
    let value : Json := .arr [.arr [.obj [("a", .null)]], .obj [("a", .arr [.str "x"])]]
    target.Holds value ∧ mask.apply value = .error (.inconsistent (some "a")) ∧
      Alike Target.Holds (mask.applyTarget target) (mask.apply value) := by
  intro mask target value
  have h : target.Holds value := rfl
  exact ⟨h, rfl, (apply_target_agrees mask target).1 value h⟩

end FieldMask
