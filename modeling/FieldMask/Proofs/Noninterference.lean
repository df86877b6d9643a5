import FieldMask.Proofs.Misfit
import FieldMask.Proofs.Succession

/-! What of a value a mask without the wildcard reads. Two values that agree on it (`Mask.ReadsAlike`) come out of the
    mask the same, be it as the same value or as the same refusal: members that no entry names have no say in what
    comes out, nor has the order of members, and to a nested entry an absent member and null are one thing. -/

namespace FieldMask

mutual

/-- `ReadsAlike mask first second`: two values agree on what a mask reads. Both are scalars or null, or both are arrays
    that agree item by item, or both are objects that agree on what each entry of the mask reads. -/
inductive Mask.ReadsAlike : Mask → Json → Json → Prop
  | scalar (mask : Mask) {first second : Json} : first.isScalar = true → second.isScalar = true →
      Mask.ReadsAlike mask first second
  | arr {mask : Mask} {items others : List Json} : Mask.ReadsItemsAlike mask items others →
      Mask.ReadsAlike mask (.arr items) (.arr others)
  | obj {mask : Mask} {members others : Fields Json} :
      (∀ name entry, (name, entry) ∈ mask.entries →
        Entry.ReadsAlike entry (Fields.find? members name) (Fields.find? others name)) →
      Mask.ReadsAlike mask (.obj members) (.obj others)

/-- Two lists are as long as each other and agree item by item on what a mask reads. -/
inductive Mask.ReadsItemsAlike : Mask → List Json → List Json → Prop
  | nil (mask : Mask) : Mask.ReadsItemsAlike mask [] []
  | cons {mask : Mask} {item other : Json} {items others : List Json} : Mask.ReadsAlike mask item other →
      Mask.ReadsItemsAlike mask items others → Mask.ReadsItemsAlike mask (item :: items) (other :: others)

/-- Two members agree on what an entry reads. A member taken whole is the same on both sides, or absent from both. A
    member that a nested mask filters is absent or null on both sides, or neither, with values that agree for that
    mask. -/
inductive Entry.ReadsAlike : Entry → Option Json → Option Json → Prop
  | selected (member : Option Json) : Entry.ReadsAlike .selected member member
  | absent (inner : Mask) {first second : Option Json} : solid first = none → solid second = none →
      Entry.ReadsAlike (.nested inner) first second
  | present {inner : Mask} {value other : Json} : value.isNull = false → other.isNull = false →
      Mask.ReadsAlike inner value other → Entry.ReadsAlike (.nested inner) (some value) (some other)

end

section
variable {mask : Mask} {first second : Fields Json}

/-- Without the wildcard only the entries of a mask look into a record. -/
theorem Mask.apply_obj_congr (hw : mask.hasWildcard = false)
    (h : ∀ name entry, (name, entry) ∈ mask.entries →
      entry.filter mask.skip first name = entry.filter mask.skip second name) :
    mask.apply (.obj first) = mask.apply (.obj second) := by
  have same : mask.filter first = mask.filter second := by
    rw [Mask.filter_eq_filterEntries hw, Mask.filter_eq_filterEntries hw]
    exact Mask.filterEntries_congr fun name entry hm _ => h name entry hm
  exact congrArg (Json.obj <$> ·) same

end

/-! By induction on the agreement, which goes where the mask goes. -/

mutual

theorem Mask.ReadsAlike.apply_eq {mask : Mask} {first second : Json}
    (hw : mask.Everywhere fun node => node.hasWildcard = false) :
    mask.ReadsAlike first second → mask.apply first = mask.apply second
  | .scalar _ hf hs => by rw [Mask.apply_scalar hf, Mask.apply_scalar hs]
  | .arr h => by rw [Mask.apply_arr, Mask.apply_arr, h.apply_eq hw]
  | .obj h => Mask.apply_obj_congr hw.root fun name entry hm =>
      (h name entry hm).filter_eq (fun _ heq => hw.below (heq ▸ hm)) mask.skip rfl rfl

theorem Mask.ReadsItemsAlike.apply_eq {mask : Mask} {items others : List Json}
    (hw : mask.Everywhere fun node => node.hasWildcard = false) :
    mask.ReadsItemsAlike items others → dumpItems mask.apply items = dumpItems mask.apply others
  | .nil _ => rfl
  | .cons h hr => by rw [dumpItems, dumpItems, h.apply_eq hw, hr.apply_eq hw]

theorem Entry.ReadsAlike.filter_eq {entry : Entry} {members others : Fields Json} {name : String}
    {first second : Option Json} (hw : ∀ inner, entry = .nested inner → inner.Everywhere fun node => node.hasWildcard = false)
    (h : entry.ReadsAlike first second) (skip : Bool) (hf : Fields.find? members name = first)
    (hs : Fields.find? others name = second) : entry.filter skip members name = entry.filter skip others name :=
  match h with
  | .selected _ => Entry.filter_congr (hf.trans hs.symm)
  | .absent inner na nb => by
    rw [Entry.filter_nested_absent (hf ▸ na), Entry.filter_nested_absent (hs ▸ nb)]
  | .present na nb h => by
    rw [Entry.filter_nested hf na, Entry.filter_nested hs nb, h.apply_eq (hw _ rfl)]

end

/-! ### Agreement with oneself -/

theorem Mask.ReadsItemsAlike.refl {mask : Mask} {items : List Json} (h : ∀ item ∈ items, mask.ReadsAlike item item) :
    mask.ReadsItemsAlike items items := by
  induction items with
  | nil => exact .nil mask
  | cons item rest ih =>
    obtain ⟨hi, hr⟩ := List.forall_mem_cons.mp h
    exact .cons hi (ih hr)

theorem Entry.ReadsAlike.refl {entry : Entry} (h : ∀ inner, entry = .nested inner → ∀ value, inner.ReadsAlike value value)
    (member : Option Json) : entry.ReadsAlike member member := by
  cases entry with
  | selected => exact .selected member
  | nested inner =>
    cases hs : solid member with
    | none => exact .absent inner hs hs
    | some value =>
      obtain ⟨rfl, hz⟩ := solid_eq_some_iff.mp hs
      exact .present hz hz (h inner rfl value)

theorem Mask.ReadsAlike.refl (mask : Mask) (value : Json) : mask.ReadsAlike value value := by
  induction mask using Mask.nodeInduction generalizing value with
  | step skip entries ihm =>
    induction value using Json.itemInduction with
    | step value ihv =>
      cases value with
      | arr items => exact .arr (.refl (ihv items rfl))
      | obj members => exact .obj fun name entry hm => .refl (fun inner heq => ihm name inner (heq ▸ hm)) _
      | null | bool _ | num _ | str _ => exact .scalar _ rfl rfl

/-- To an entry that does not take its member whole, a member that is absent is as good as one that is null. -/
theorem Mask.ReadsAlike.insert_null {mask : Mask} {members : Fields Json} {name : String}
    (hn : (name, .selected) ∉ mask.entries) (hf : Fields.find? members name = none) :
    mask.ReadsAlike (.obj (Fields.insert members name .null)) (.obj members) := by
  refine .obj fun other entry hm => ?_
  rw [Fields.find?_insert]
  by_cases same : name = other
  · subst same
    rw [if_pos rfl, hf]
    cases entry with
    | selected => exact absurd hm hn
    | nested inner => exact .absent inner rfl rfl
  · rw [if_neg same]
    exact .refl (fun inner _ => .refl inner) _

/-- Data outside a mask without the wildcard have no say in what comes out. On two values that agree on what the mask
    reads, the mask is refused for the same reason, or lets out the same value with its members in the same order.
    So a member that is not taken whole may as well be null as absent. -/
theorem apply_congr {mask : Mask} (hw : mask.Everywhere fun node => node.hasWildcard = false) :
    (∀ first second, mask.ReadsAlike first second → mask.apply first = mask.apply second) ∧
    ∀ members name, (name, .selected) ∉ mask.entries → Fields.find? members name = none →
      mask.apply (.obj (Fields.insert members name .null)) = mask.apply (.obj members) :=
  ⟨fun _ _ h => h.apply_eq hw, fun _ _ hn hf => (Mask.ReadsAlike.insert_null hn hf).apply_eq hw⟩

/-- The mask `id,author{name},books{title}`, whose nodes have different flags, on two records that have little in common
    but their `id`: other members, in another order, and `author` null in the one and absent from the other. -/
theorem apply_congr_on_records :
    let author : Mask := .mk false [("name", .selected)]
    let book : Mask := .mk false [("title", .selected)]
    let mask : Mask := .mk true [("id", .selected), ("author", .nested author), ("books", .nested book)]
    let first : Json := .obj [("author", .null), ("id", .obj [("a", .null), ("b", .null)]),
      ("books", .arr [.obj [("title", .str "x"), ("isbn", .str "1")], .obj [("isbn", .str "2")]])]
    let second : Json := .obj [("books", .arr [.obj [("pages", .null), ("title", .str "x")], .obj []]), ("secret", .bool true),
      ("id", .obj [("a", .null), ("b", .null)])]
    let out : Json := .obj [("id", .obj [("a", .null), ("b", .null)]),
      ("books", .arr [.obj [("title", .str "x")], .obj [("title", .null)]])]
    (mask.Everywhere fun node => node.hasWildcard = false) ∧ mask.ReadsAlike first second ∧
      mask.apply first = .ok out ∧ mask.apply second = .ok out := by
  intro author book mask first second out
  have hw : mask.Everywhere fun node => node.hasWildcard = false := by decide
  have books {one two : Fields Json} (h : Fields.find? one "title" = Fields.find? two "title") :
      book.ReadsAlike (.obj one) (.obj two) := by
    refine .obj fun name entry hm => ?_
    obtain ⟨rfl, rfl⟩ : name = "title" ∧ entry = .selected := by simpa [book] using hm
    rw [h]
    exact .selected _
  have agree : mask.ReadsAlike first second := by
    refine .obj fun name entry hm => ?_
    simp only [mask, Mask.entries_mk, List.mem_cons, Prod.mk.injEq, List.not_mem_nil, or_false] at hm
    rcases hm with ⟨rfl, rfl⟩ | ⟨rfl, rfl⟩ | ⟨rfl, rfl⟩
    · exact .selected _
    · exact .absent author rfl rfl
    · exact .present rfl rfl (.arr (.cons (books rfl) (.cons (books rfl) (.nil book))))
  have h : mask.apply first = .ok out := rfl
  exact ⟨hw, agree, h, (apply_congr hw).1 first second agree ▸ h⟩

end FieldMask
