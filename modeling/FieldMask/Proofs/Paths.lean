import Mathlib.Data.Set.Basic
import FieldMask.Schema.Dump

/-! Paths into a value and the leaves they lead to. A value that is null counts as absent where only data
    matters: `solid` reads it so, as the dump of a schema does (`Fields.present?`). -/

namespace FieldMask

/-- One step into a value: to the member of a name, or to the item at a place. -/
inductive Step where
  | key (name : String)
  | index (place : Nat)
deriving DecidableEq, Inhabited, Repr

/-- The value, where null counts as absent. -/
def solid (value : Option Json) : Option Json := value.filter fun value => !value.isNull

namespace Json

/-- The value that a path leads to. -/
def at? : Json → List Step → Option Json
  | value, [] => some value
  | .obj members, .key name :: path => (Fields.find? members name).bind (·.at? path)
  | .arr items, .index place :: path => items[place]?.bind (·.at? path)
  | _, _ :: _ => none

/-- Whether the value is a scalar other than null. -/
def isLeaf : Json → Bool
  | .null | .arr _ | .obj _ => false
  | .bool _ | .num _ | .str _ => true

/-- The leaves of a value: the scalars other than null, each with the path that leads to it. -/
def leaves (value : Json) : Set (List Step × Json) := {leaf | value.at? leaf.1 = some leaf.2 ∧ leaf.2.isLeaf}

/-- `SameShape before after`: an array stays an array of the same length, an object stays an object, and
    anything else stays as it is. -/
inductive SameShape : Json → Json → Prop
  | same (value : Json) : SameShape value value
  | arr {items kept : List Json} : items.length = kept.length → SameShape (.arr items) (.arr kept)
  | obj (members kept : Fields Json) : SameShape (.obj members) (.obj kept)

end Json

theorem Json.isNull_iff {value : Json} : value.isNull = true ↔ value = .null := by
  cases value <;> simp [Json.isNull]

section Solid
variable {value : Json} {x y : Option Json}

@[simp] theorem solid_none : solid none = none := rfl

@[simp] theorem solid_null : solid (some .null) = none := rfl

theorem solid_eq_some_iff : solid x = some value ↔ x = some value ∧ value.isNull = false := by
  simp [solid, Option.filter_eq_some_iff]

theorem solid_eq_none_iff : solid x = none ↔ x = none ∨ x = some .null := by
  cases x with
  | none => simp
  | some value => cases value <;> simp [solid, Json.isNull]

/-- A value that is there is known by what is solid of it. -/
theorem eq_of_solid_eq {other : Json} (h : solid (some value) = solid (some other)) : value = other := by
  cases hv : solid (some value) with
  | none =>
    have null {value : Json} (h : solid (some value) = none) : value = .null := by
      rcases solid_eq_none_iff.mp h with h | h <;> cases h
      rfl
    rw [null hv, null (h.symm.trans hv)]
  | some found =>
    obtain ⟨hf, _⟩ := solid_eq_some_iff.mp hv
    obtain ⟨ho, _⟩ := solid_eq_some_iff.mp (h.symm.trans hv)
    exact Option.some.inj (hf.trans ho.symm)

theorem solid_or : solid (x.or y) = if x.isSome then solid x else solid y := by
  cases x <;> rfl

end Solid

/-! ### Paths -/

namespace Json
variable {value : Json} {x y : Option Json} {path : List Step}

@[simp] theorem at?_nil : value.at? [] = some value := by
  cases value <;> rfl

theorem mem_leaves_iff {leaf : Json} : (path, leaf) ∈ value.leaves ↔ value.at? path = some leaf ∧ leaf.isLeaf := Iff.rfl

theorem not_null_of_isLeaf (h : value.isLeaf) : value.isNull = false := by
  cases value <;> simp_all [isLeaf, isNull]

theorem mem_leaves_iff_solid {leaf : Json} :
    (path, leaf) ∈ value.leaves ↔ solid (value.at? path) = some leaf ∧ leaf.isLeaf := by
  rw [mem_leaves_iff, solid_eq_some_iff]
  constructor
  · rintro ⟨hv, hl⟩
    exact ⟨⟨hv, not_null_of_isLeaf hl⟩, hl⟩
  · rintro ⟨⟨hv, _⟩, hl⟩
    exact ⟨hv, hl⟩

@[simp] theorem at?_null_cons (step : Step) : Json.null.at? (step :: path) = none := by
  cases step <;> rfl

@[simp] theorem at?_obj_key (members : Fields Json) (name : String) :
    (obj members).at? (.key name :: path) = (Fields.find? members name).bind (·.at? path) := rfl

@[simp] theorem at?_obj_index (members : Fields Json) (place : Nat) :
    (obj members).at? (.index place :: path) = none := rfl

@[simp] theorem at?_arr_index (items : List Json) (place : Nat) :
    (arr items).at? (.index place :: path) = items[place]?.bind (·.at? path) := rfl

@[simp] theorem at?_arr_key (items : List Json) (name : String) : (arr items).at? (.key name :: path) = none := rfl

/-- Nothing solid lies behind null. -/
theorem solid_at?_null : solid (Json.null.at? path) = none := by
  cases path <;> simp

/-- What lies solid behind an absent value or null is nothing, so only solid values lead on. -/
theorem solid_bind_at? : solid (x.bind (·.at? path)) = (solid x).bind fun value => solid (value.at? path) := by
  cases x with
  | none => rfl
  | some value =>
    cases value with
    | null => simpa using solid_at?_null
    | bool _ => rfl
    | num _ => rfl
    | str _ => rfl
    | arr _ => rfl
    | obj _ => rfl

end Json
end FieldMask
