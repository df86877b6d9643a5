import FieldMask.Proofs.RoundTrip

/-! Masks from JSON definitions. A definition that is sound throughout (`Json.Defines`) makes the mask that its text
    reads as: the members written down one after the other are the items of a group, and both ways lead to the value of
    these items. Any other definition is refused for its first defect, where the parts of a member come before its own
    name (`Json.FirstDefect`). -/

namespace FieldMask

theorem flatMap_intercalate {α β : Type _} (f : α → List β) (separator : List α) (lists : List (List α)) :
    (separator.intercalate lists).flatMap f = (separator.flatMap f).intercalate (lists.map (·.flatMap f)) := by
  induction lists with
  | nil => rfl
  | cons first rest ih =>
    cases rest with
    | nil => simp
    | cons next rest =>
      rw [List.intercalate_cons_cons, List.flatMap_append, List.flatMap_append, ih]
      simp only [List.map_cons, List.intercalate_cons_cons]

namespace Json

mutual

/-- The text of a definition. An object is a group in brackets: its names in order, separated by commas, each followed
    by the group of its own value, if that is an object. -/
def maskText : Json → String
  | .obj members => "\x7b" ++ ",".intercalate (fieldTexts members) ++ "\x7d"
  | .null | .bool _ | .num _ | .str _ | .arr _ => ""

/-- The texts of the members of a definition. -/
def fieldTexts : List (String × Json) → List String
  | [] => []
  | (name, value) :: rest => (name ++ value.maskText) :: fieldTexts rest

end

/-- `HasGroup members group`: the group is the members themselves, or the members of an object that is a value in them,
    at any depth. -/
inductive HasGroup (members : Fields Json) : Fields Json → Prop
  | root : HasGroup members members
  | nested {group inner : Fields Json} {name : String} :
      HasGroup members group → (name, .obj inner) ∈ group → HasGroup members inner

/-- The members define a mask: at every depth each value is `true` or an object, and each name is a field name. -/
def Defines (members : Fields Json) : Prop :=
  ∀ group, HasGroup members group → ∀ name value, (name, value) ∈ group →
    (value = .bool true ∨ ∃ inner, value = .obj inner) ∧ isFieldName name = true

/-- The value stands for an entry: it is `true`, or an object whose members define a mask. -/
def StandsForEntry (value : Json) : Prop := value = .bool true ∨ ∃ inner, value = .obj inner ∧ Defines inner

/-- `FirstDefect members refusal`: the refusal names the first defect of the members. They are looked at in order; of
    each member first its value, then what its object holds, and last its own name. -/
inductive FirstDefect : Fields Json → Refusal → Prop
  | value {before after : Fields Json} {name : String} {value : Json} : Defines before →
      value ≠ .bool true → (∀ inner, value ≠ .obj inner) →
      FirstDefect (before ++ (name, value) :: after) (.invalidValue name)
  | inside {before after inner : Fields Json} {name : String} {refusal : Refusal} : Defines before →
      FirstDefect inner refusal → FirstDefect (before ++ (name, .obj inner) :: after) refusal
  | name {before after : Fields Json} {name : String} {value : Json} : Defines before →
      value.StandsForEntry → isFieldName name = false →
      FirstDefect (before ++ (name, value) :: after) (.invalidName name)

mutual

/-- The entries that members write down, one for each, also where a name comes again. -/
def written (skip : Bool) : List (String × Json) → List (String × Entry)
  | [] => []
  | (name, value) :: rest => (name, value.writtenEntry skip) :: written skip rest

/-- The entry that a value writes down. -/
def writtenEntry (skip : Bool) : Json → Entry
  | .obj members => .nested (.mk skip (written skip members))
  | .null | .bool _ | .num _ | .str _ | .arr _ => .selected

end

/-! ### Groups -/

/-- What holds of members whenever it holds of the groups among their values holds of all members. -/
theorem groupInduction {motive : Fields Json → Prop}
    (step : ∀ members, (∀ name inner, (name, .obj inner) ∈ members → motive inner) → motive members)
    (members : Fields Json) : motive members :=
  step members fun _ inner _ => groupInduction step inner
termination_by sizeOf members
decreasing_by
  have := List.sizeOf_lt_of_mem ‹_ ∈ members›
  simp only [Prod.mk.sizeOf_spec, Json.obj.sizeOf_spec] at this
  omega

section Defines
variable {members group inner rest : Fields Json} {name : String} {value : Json}

theorem HasGroup.of_mem (hm : (name, .obj inner) ∈ members) (h : HasGroup inner group) : HasGroup members group := by
  induction h with
  | root => exact .nested .root hm
  | nested _ hi ih => exact ih.nested hi

theorem HasGroup.cases_head (h : HasGroup members group) :
    group = members ∨ ∃ name inner, (name, .obj inner) ∈ members ∧ HasGroup inner group := by
  induction h with
  | root => exact Or.inl rfl
  | nested _ hm ih =>
    rcases ih with rfl | ⟨name, first, hf, hg⟩
    · exact Or.inr ⟨_, _, hm, .root⟩
    · exact Or.inr ⟨name, first, hf, hg.nested hm⟩

theorem defines_iff : Defines members ↔
    ∀ name value, (name, value) ∈ members → value.StandsForEntry ∧ isFieldName name = true := by
  constructor
  · intro h name value hm
    obtain ⟨hv, hn⟩ := h members .root name value hm
    refine ⟨hv.imp_right ?_, hn⟩
    rintro ⟨inner, rfl⟩
    exact ⟨inner, rfl, fun group hg => h group (.of_mem hm hg)⟩
  · intro h group hg name value hm
    rcases hg.cases_head with rfl | ⟨first, inner, hf, hg⟩
    · obtain ⟨hv, hn⟩ := h name value hm
      exact ⟨hv.imp_right fun ⟨inner, heq, _⟩ => ⟨inner, heq⟩, hn⟩
    · rcases (h first _ hf).1 with heq | ⟨_, heq, hd⟩
      · cases heq
      · cases heq
        exact hd group hg name value hm

theorem defines_nil : Defines [] := defines_iff.mpr fun _ _ hm => nomatch hm

theorem defines_cons :
    Defines ((name, value) :: rest) ↔ (value.StandsForEntry ∧ isFieldName name = true) ∧ Defines rest := by
  rw [defines_iff, defines_iff]
  constructor
  · exact fun h => ⟨h name value List.mem_cons_self, fun name value hm => h name value (List.mem_cons_of_mem _ hm)⟩
  · rintro ⟨hf, hr⟩ other said hm
    rcases List.mem_cons.mp hm with heq | hm
    · cases heq
      exact hf
    · exact hr other said hm

end Defines
end Json

namespace Mask
open Json
variable {skip : Bool} {mask after : Mask} {members inner : Fields Json} {name : String} {value : Json} {entry : Entry}
  {refusal : Refusal}

/-! ### The text -/

theorem written_eq_map (skip : Bool) (members : Fields Json) :
    written skip members = members.map fun member => (member.1, member.2.writtenEntry skip) := by
  induction members with
  | nil => rfl
  | cons head rest ih => rw [written, ih, List.map_cons]

mutual

theorem chars_writtenEntry (skip : Bool) :
    ∀ value : Json, (value.writtenEntry skip).tokens.flatMap Token.chars = value.maskText.toList
  | .obj members => by
    rw [writtenEntry, Entry.tokens, tokens, maskText, List.flatMap_cons, List.flatMap_append, flatMap_intercalate,
      chars_written skip members]
    simp [Token.chars, String.toList_intercalate]
  | .null | .bool _ | .num _ | .str _ | .arr _ => rfl

theorem chars_written (skip : Bool) : ∀ members : List (String × Json),
    (entryTokens (written skip members)).map (·.flatMap Token.chars) = (fieldTexts members).map String.toList
  | [] => rfl
  | (name, value) :: rest => by
    rw [written, entryTokens, fieldTexts, List.map_cons, List.map_cons, List.flatMap_cons, chars_writtenEntry skip value,
      chars_written skip rest, String.toList_append]
    rfl

end

theorem text_written (skip : Bool) (members : Fields Json) :
    (mk skip (written skip members)).text = (Json.obj members).maskText := by
  rw [text, ← String.toList_inj, String.toList_ofList, ← chars_writtenEntry skip, writtenEntry, Entry.tokens]

theorem fieldNames_written (skip : Bool) (h : Defines members) :
    (mk skip (written skip members)).Everywhere fun node => ∀ name ∈ node.names, isFieldName name = true := by
  induction members using groupInduction with
  | step members ih =>
    have h := defines_iff.mp h
    refine everywhere_iff.mpr ⟨fun name hn => ?_, fun name inner hm => ?_⟩
    · rw [names, Fields.names, entries_mk, written_eq_map, List.map_map] at hn
      obtain ⟨member, hm, rfl⟩ := List.mem_map.mp hn
      exact (h member.1 member.2 hm).2
    · rw [entries_mk, written_eq_map] at hm
      obtain ⟨⟨first, value⟩, hf, heq⟩ := List.mem_map.mp hm
      rcases (h first value hf).1 with rfl | ⟨group, rfl, hd⟩
      · cases heq
      · cases heq
        exact ih first group hf hd

theorem parse_maskText (skip : Bool) (h : Defines members) :
    parse (Json.obj members).maskText skip = .ok (Item.mask skip (entryItems (written skip members))) := by
  rw [← text_written skip, parse_text_eq_items (fieldNames_written skip h)]
  rfl

/-! ### One member -/

theorem memberEntry_obj (skip : Bool) (name : String) (inner : Fields Json) :
    memberEntry skip name (.obj inner) = Entry.nested <$> addMembers skip (.empty skip) inner := by
  rw [memberEntry]
  rfl

theorem memberEntry_eq_error_iff : memberEntry skip name value = .error refusal ↔
    (refusal = .invalidValue name ∧ value ≠ .bool true ∧ ∀ inner, value ≠ .obj inner) ∨
    ∃ inner, value = .obj inner ∧ addMembers skip (.empty skip) inner = .error refusal := by
  cases value with
  | obj inner => simp [memberEntry_obj]
  | bool flag => cases flag <;> simp [memberEntry, eq_comm]
  | null | num _ | str _ | arr _ => simp [memberEntry, eq_comm]

theorem add_eq_ok_iff :
    mask.add name entry = .ok after ↔ isFieldName name = true ∧ mask.insert name entry = after := by
  rw [add]
  cases isFieldName name <;> simp

theorem add_eq_error_iff :
    mask.add name entry = .error refusal ↔ isFieldName name = false ∧ refusal = .invalidName name := by
  rw [add]
  cases isFieldName name <;> simp [eq_comm]

/-- Adds one member of a definition to a mask. -/
def addMember (skip : Bool) (mask : Mask) (member : String × Json) : Except Refusal Mask := do
  let entry ← memberEntry skip member.1 member.2
  mask.add member.1 entry

theorem addMember_eq_error_iff : addMember skip mask (name, value) = .error refusal ↔
    memberEntry skip name value = .error refusal ∨
    (∃ entry, memberEntry skip name value = .ok entry) ∧ isFieldName name = false ∧ refusal = .invalidName name := by
  rw [addMember, bind_eq_error_iff]
  simp only [add_eq_error_iff, exists_and_right]

theorem addMembers_eq_foldlM (skip : Bool) (mask : Mask) (members : Fields Json) :
    addMembers skip mask members = members.foldlM (addMember skip) mask := by
  induction members generalizing mask with
  | nil => rfl
  | cons head rest ih =>
    rw [addMembers, List.foldlM_cons, addMember, bind_assoc]
    simp only [ih]

/-! ### Sound members -/

theorem addMembers_of_defines (h : Defines members) (mask : Mask) :
    addMembers skip mask members = .ok (Item.addAll skip mask (entryItems (written skip members))) := by
  -- the outer induction is on the groups, for the object that a member may hold, the inner on the members of one group
  induction members using groupInduction generalizing mask with
  | step members ihg =>
    induction members generalizing mask with
    | nil => rfl
    | cons head rest ih =>
      obtain ⟨name, value⟩ := head
      obtain ⟨⟨hv, hn⟩, hr⟩ := defines_cons.mp h
      have ih := ih (fun name inner hm => ihg name inner (List.mem_cons_of_mem _ hm)) hr
      have entry : memberEntry skip name value = .ok (((value.writtenEntry skip).item name).entry skip) := by
        rcases hv with rfl | ⟨inner, rfl, hd⟩
        · rfl
        · rw [memberEntry_obj, ihg name inner List.mem_cons_self hd]
          rfl
      have same : ((value.writtenEntry skip).item name).name = name := by
        cases value <;> rfl
      rw [addMembers, entry, ok_bind, add_eq_ok_iff.mpr ⟨hn, rfl⟩, ok_bind, ih, written, entryItems, Item.addAll, same]

theorem standsForEntry_iff
    (hi : ∀ inner, value = .obj inner → ∀ after, addMembers skip (.empty skip) inner = .ok after → Defines inner) :
    value.StandsForEntry ↔ ∃ entry, memberEntry skip name value = .ok entry := by
  constructor
  · rintro (rfl | ⟨inner, rfl, hd⟩)
    · exact ⟨.selected, rfl⟩
    · rw [memberEntry_obj, addMembers_of_defines hd]
      exact ⟨_, rfl⟩
  · rintro ⟨entry, he⟩
    cases value with
    | obj inner =>
      rw [memberEntry_obj] at he
      obtain ⟨after, ha, -⟩ := map_eq_ok_iff.mp he
      exact Or.inr ⟨inner, rfl, hi inner rfl after ha⟩
    | bool flag =>
      cases flag with
      | true => exact Or.inl rfl
      | false => cases he
    | null | num _ | str _ | arr _ => cases he

theorem defines_of_addMembers (h : addMembers skip mask members = .ok after) : Defines members := by
  induction members using groupInduction generalizing mask after with
  | step members ihg =>
    induction members generalizing mask with
    | nil => exact defines_nil
    | cons head rest ih =>
      obtain ⟨name, value⟩ := head
      obtain ⟨entry, he, ha⟩ := bind_eq_ok_iff.mp h
      obtain ⟨middle, hm, hr⟩ := bind_eq_ok_iff.mp ha
      have hv : value.StandsForEntry := by
        refine (standsForEntry_iff fun inner heq after hi => ?_).mpr ⟨entry, he⟩
        exact ihg name inner (heq ▸ List.mem_cons_self) hi
      have hr := ih (fun name inner hm => ihg name inner (List.mem_cons_of_mem _ hm)) hr
      exact defines_cons.mpr ⟨⟨hv, (add_eq_ok_iff.mp hm).1⟩, hr⟩

/-! ### Defects -/

theorem firstDefect_of_addMembers (h : addMembers skip mask members = .error refusal) : FirstDefect members refusal := by
  induction members using groupInduction generalizing mask refusal with
  | step members ih =>
    rw [addMembers_eq_foldlM] at h
    -- the first member that cannot be added has the first defect
    obtain ⟨before, ⟨name, value⟩, after, middle, rfl, hb, hm⟩ := foldlM_eq_error_iff.mp h
    have hb : Defines before := by
      rw [← addMembers_eq_foldlM] at hb
      exact defines_of_addMembers hb
    rcases addMember_eq_error_iff.mp hm with he | ⟨he, hn, rfl⟩
    · rcases memberEntry_eq_error_iff.mp he with ⟨rfl, hv, ho⟩ | ⟨inner, rfl, hi⟩
      · exact .value hb hv ho
      · exact .inside hb (ih name inner (List.mem_append_right _ List.mem_cons_self) hi)
    · exact .name hb ((standsForEntry_iff fun _ _ _ => defines_of_addMembers).mpr he) hn

theorem addMembers_append_cons {before after : Fields Json} {member : String × Json} (hb : Defines before)
    (hm : ∀ middle, addMember skip middle member = .error refusal) :
    addMembers skip mask (before ++ member :: after) = .error refusal := by
  rw [addMembers_eq_foldlM]
  refine foldlM_eq_error_iff.mpr
    ⟨before, member, after, Item.addAll skip mask (entryItems (written skip before)), rfl, ?_, hm _⟩
  rw [← addMembers_eq_foldlM, addMembers_of_defines hb]

theorem addMembers_of_firstDefect (h : FirstDefect members refusal) (mask : Mask) :
    addMembers skip mask members = .error refusal := by
  induction h generalizing mask with
  | value hb hv ho =>
    refine addMembers_append_cons hb fun middle => addMember_eq_error_iff.mpr (Or.inl ?_)
    exact memberEntry_eq_error_iff.mpr (Or.inl ⟨rfl, hv, ho⟩)
  | inside hb _ ih =>
    refine addMembers_append_cons hb fun middle => addMember_eq_error_iff.mpr (Or.inl ?_)
    exact memberEntry_eq_error_iff.mpr (Or.inr ⟨_, rfl, ih _⟩)
  | name hb hv hn =>
    refine addMembers_append_cons hb fun middle => addMember_eq_error_iff.mpr (Or.inr ⟨?_, hn, rfl⟩)
    exact (standsForEntry_iff fun _ _ _ => defines_of_addMembers).mp hv

/-! ### Whole definitions -/

theorem ofJson_cases (skip : Bool) (value : Json) :
    (∃ members, value = .obj members ∧ ofJson skip value = addMembers skip (.empty skip) members) ∨
    (∀ members, value ≠ .obj members) ∧ ofJson skip value = .error .invalidDefinition := by
  cases value with
  | obj members => exact Or.inl ⟨members, rfl, rfl⟩
  | null | bool _ | num _ | str _ | arr _ => exact Or.inr ⟨nofun, rfl⟩

theorem exists_ofJson_iff :
    (∃ mask, ofJson skip value = .ok mask) ↔ ∃ members, value = .obj members ∧ Defines members := by
  rcases ofJson_cases skip value with ⟨members, rfl, read⟩ | ⟨ho, read⟩
  · rw [read]
    constructor
    · rintro ⟨mask, h⟩
      exact ⟨members, rfl, defines_of_addMembers h⟩
    · rintro ⟨_, heq, h⟩
      cases heq
      exact ⟨_, addMembers_of_defines h _⟩
  · rw [read]
    exact iff_of_false nofun fun ⟨members, heq, _⟩ => ho members heq

theorem parse_maskText_of_ofJson (h : ofJson skip value = .ok mask) : parse value.maskText skip = .ok mask := by
  rcases ofJson_cases skip value with ⟨members, rfl, read⟩ | ⟨-, read⟩
  · rw [read] at h
    have hd := defines_of_addMembers h
    rw [addMembers_of_defines hd] at h
    cases h
    exact parse_maskText skip hd
  · rw [read] at h
    cases h

theorem ofJson_eq_error_iff : ofJson skip value = .error refusal ↔
    (refusal = .invalidDefinition ∧ ∀ members, value ≠ .obj members) ∨
    ∃ members, value = .obj members ∧ FirstDefect members refusal := by
  rcases ofJson_cases skip value with ⟨members, rfl, read⟩ | ⟨ho, read⟩
  · rw [read]
    constructor
    · exact fun h => Or.inr ⟨members, rfl, firstDefect_of_addMembers h⟩
    · rintro (⟨-, h⟩ | ⟨_, heq, h⟩)
      · exact absurd rfl (h members)
      · cases heq
        exact addMembers_of_firstDefect h _
  · rw [read, Except.error.injEq]
    constructor
    · rintro rfl
      exact Or.inl ⟨rfl, ho⟩
    · rintro (⟨rfl, -⟩ | ⟨members, heq, -⟩)
      · rfl
      · exact absurd heq (ho members)

end Mask

/-- Definitions and texts make the same masks. A value is accepted if and only if it is an object whose members define a
    mask, and then its text reads as the same mask. A value that is refused is an invalid definition where it is no
    object, and otherwise it is refused for the first defect of its members. -/
theorem definition_reads_as_text (value : Json) (skip : Bool) :
    ((∃ mask, Mask.ofJson skip value = .ok mask) ↔ ∃ members, value = .obj members ∧ Json.Defines members) ∧
    (∀ mask, Mask.ofJson skip value = .ok mask → Mask.parse value.maskText skip = .ok mask) ∧
    ∀ refusal, Mask.ofJson skip value = .error refusal ↔
      (refusal = .invalidDefinition ∧ ∀ members, value ≠ .obj members) ∨
      ∃ members, value = .obj members ∧ Json.FirstDefect members refusal :=
  ⟨Mask.exists_ofJson_iff, fun _ h => Mask.parse_maskText_of_ofJson h, fun _ => Mask.ofJson_eq_error_iff⟩

example : Mask.ofJson true (.obj [("a b", .obj [("c", .null)]), ("d", .null)]) = .error (.invalidValue "c") := rfl

end FieldMask
