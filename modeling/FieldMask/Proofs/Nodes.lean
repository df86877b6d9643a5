import FieldMask.Mask.Basic

/-! The nodes of a mask: the mask itself and the masks nested in it, at any depth. `Mask.Everywhere` says
    something of all of them, and for what can be tested it can be computed. Each node has a skip flag of its
    own; `withSkip` replaces all of them and keeps the rest of the mask. -/

namespace FieldMask

/-- `HasNode mask node`: the node is the mask itself or is nested in it, at any depth. -/
inductive Mask.HasNode (mask : Mask) : Mask → Prop
  | root : HasNode mask mask
  | nested {node inner : Mask} {name : String} :
      HasNode mask node → (name, .nested inner) ∈ node.entries → HasNode mask inner

/-- Whether every node of a mask has the property. -/
def Mask.Everywhere (property : Mask → Prop) (mask : Mask) : Prop := ∀ node, mask.HasNode node → property node

mutual

/-- Whether every node of a mask passes the test. -/
def Mask.allNodes (test : Mask → Bool) : Mask → Bool
  | .mk skip entries => test (.mk skip entries) && Mask.allEntryNodes test entries

/-- Whether every node below some entries passes the test. -/
def Mask.allEntryNodes (test : Mask → Bool) : List (String × Entry) → Bool
  | [] => true
  | (_, entry) :: rest => entry.allNodes test && Mask.allEntryNodes test rest

/-- Whether every node below an entry passes the test. -/
def Entry.allNodes (test : Mask → Bool) : Entry → Bool
  | .selected => true
  | .nested mask => mask.allNodes test

end

mutual

/-- The mask with the skip flag of every node replaced. -/
def Mask.withSkip (skip : Bool) : Mask → Mask
  | .mk _ entries => .mk skip (Mask.entriesWithSkip skip entries)

/-- The entries with the skip flag of every node replaced. -/
def Mask.entriesWithSkip (skip : Bool) : List (String × Entry) → List (String × Entry)
  | [] => []
  | (name, entry) :: rest => (name, entry.withSkip skip) :: Mask.entriesWithSkip skip rest

/-- The entry with the skip flag of every node replaced. -/
def Entry.withSkip (skip : Bool) : Entry → Entry
  | .selected => .selected
  | .nested mask => .nested (mask.withSkip skip)

end

/-- The skip flag of the node that the names lead to, if there is one. -/
def Mask.skipAt? (mask : Mask) : List String → Option Bool
  | [] => some mask.skip
  | name :: path =>
    match mask.find? name with
    | some (.nested inner) => inner.skipAt? path
    | _ => none

/-! ### Induction on the nodes -/

/-- What holds of a mask whenever it holds of the masks that its entries nest holds of every mask. -/
theorem Mask.nodeInduction {motive : Mask → Prop}
    (step : ∀ skip entries, (∀ name inner, (name, Entry.nested inner) ∈ entries → motive inner) →
      motive (.mk skip entries)) : ∀ mask, motive mask
  | .mk skip entries => step skip entries fun _ inner _ => Mask.nodeInduction step inner
termination_by mask => sizeOf mask
decreasing_by
  have := List.sizeOf_lt_of_mem ‹_ ∈ entries›
  simp only [Prod.mk.sizeOf_spec, Entry.nested.sizeOf_spec, Mask.mk.sizeOf_spec] at this ⊢
  omega

namespace Mask
variable {mask node inner : Mask} {name : String} {entry : Entry} {skip : Bool}

theorem HasNode.trans (h : mask.HasNode node) (hi : node.HasNode inner) : mask.HasNode inner := by
  induction hi with
  | root => exact h
  | nested _ hm ih => exact ih.nested hm

theorem HasNode.of_mem (hm : (name, .nested inner) ∈ mask.entries) (h : inner.HasNode node) : mask.HasNode node :=
  (HasNode.root.nested hm).trans h

theorem hasNode_iff :
    mask.HasNode node ↔ node = mask ∨ ∃ name inner, (name, .nested inner) ∈ mask.entries ∧ inner.HasNode node := by
  constructor
  · intro h
    induction h with
    | root => exact Or.inl rfl
    | nested _ hm ih =>
      rcases ih with rfl | ⟨name, first, hf, hn⟩
      · exact Or.inr ⟨_, _, hm, .root⟩
      · exact Or.inr ⟨name, first, hf, hn.nested hm⟩
  · rintro (rfl | ⟨name, first, hf, hn⟩)
    · exact .root
    · exact .of_mem hf hn

theorem Everywhere.root {property : Mask → Prop} (h : mask.Everywhere property) : property mask := h mask .root

theorem Everywhere.below {property : Mask → Prop} (h : mask.Everywhere property)
    (hm : (name, .nested inner) ∈ mask.entries) : inner.Everywhere property := fun node hn => h node (.of_mem hm hn)

theorem everywhere_iff {property : Mask → Prop} : mask.Everywhere property ↔
    property mask ∧ ∀ name inner, (name, .nested inner) ∈ mask.entries → inner.Everywhere property := by
  constructor
  · exact fun h => ⟨h.root, fun _ _ hm => h.below hm⟩
  · rintro ⟨hroot, hinner⟩ node hn
    rcases hasNode_iff.mp hn with rfl | ⟨name, inner, hm, hn⟩
    · exact hroot
    · exact hinner name inner hm node hn

theorem allEntryNodes_iff {test : Mask → Bool} {entries : Fields Entry} : allEntryNodes test entries = true ↔
    ∀ name inner, (name, .nested inner) ∈ entries → inner.allNodes test = true := by
  induction entries with
  | nil => simp [allEntryNodes]
  | cons head rest ih =>
    obtain ⟨first, entry⟩ := head
    rw [allEntryNodes, Bool.and_eq_true, ih]
    cases entry with
    | selected => simp [Entry.allNodes]
    | nested below =>
      constructor
      · rintro ⟨hb, hr⟩ name inner hm
        rcases List.mem_cons.mp hm with heq | hm
        · cases heq
          exact hb
        · exact hr name inner hm
      · exact fun h => ⟨h first below List.mem_cons_self, fun name inner hm => h name inner (List.mem_cons_of_mem _ hm)⟩

theorem allNodes_iff {test : Mask → Bool} : mask.allNodes test = true ↔ mask.Everywhere fun node => test node = true := by
  induction mask using nodeInduction with
  | step skip entries ih =>
    rw [everywhere_iff, allNodes, Bool.and_eq_true, allEntryNodes_iff]
    constructor
    · exact fun ⟨hroot, hinner⟩ => ⟨hroot, fun name inner hm => (ih name inner hm).mp (hinner name inner hm)⟩
    · exact fun ⟨hroot, hinner⟩ => ⟨hroot, fun name inner hm => (ih name inner hm).mpr (hinner name inner hm)⟩

instance (property : Mask → Prop) [DecidablePred property] (mask : Mask) : Decidable (mask.Everywhere property) :=
  decidable_of_iff (mask.allNodes fun node => decide (property node)) (by simp only [allNodes_iff, decide_eq_true_eq])

/-! ### Replacing the skip flags -/

theorem entriesWithSkip_eq_map (entries : Fields Entry) :
    entriesWithSkip skip entries = entries.map fun field => (field.1, field.2.withSkip skip) := by
  induction entries with
  | nil => rfl
  | cons head rest ih => simp [entriesWithSkip, ih]

@[simp] theorem skip_withSkip : (mask.withSkip skip).skip = skip := by
  cases mask
  rfl

@[simp] theorem withSkip_empty (old : Bool) : (empty old).withSkip skip = empty skip := rfl

theorem entries_withSkip :
    (mask.withSkip skip).entries = mask.entries.map fun field => (field.1, field.2.withSkip skip) := by
  cases mask
  exact entriesWithSkip_eq_map _

@[simp] theorem names_withSkip : (mask.withSkip skip).names = mask.names := by
  simp [names, Fields.names, entries_withSkip, Function.comp_def]

theorem withSkip_insert :
    (mask.insert name entry).withSkip skip = (mask.withSkip skip).insert name (entry.withSkip skip) := by
  cases mask
  simp only [insert, withSkip, entries_mk, skip_mk, entriesWithSkip_eq_map, Fields.insert_map]

/-- Every node of a mask whose flags were replaced has the new flag. -/
theorem skip_of_hasNode_withSkip (h : (mask.withSkip skip).HasNode node) : node.skip = skip := by
  induction mask using nodeInduction with
  | step old entries ih =>
    rcases hasNode_iff.mp h with rfl | ⟨name, inner, hm, hn⟩
    · rfl
    · rw [entries_withSkip] at hm
      obtain ⟨⟨other, entry⟩, he, heq⟩ := List.mem_map.mp hm
      cases entry with
      | selected => cases heq
      | nested mask =>
        cases heq
        exact ih other mask he hn

/-- Replacing the flags changes nothing exactly if every node has the flag already. -/
theorem withSkip_eq_self_iff : mask.withSkip skip = mask ↔ mask.Everywhere fun node => node.skip = skip := by
  constructor
  · intro h node hn
    exact skip_of_hasNode_withSkip (h ▸ hn)
  · intro h
    induction mask using nodeInduction with
    | step old entries ih =>
      obtain rfl : old = skip := h.root
      rw [withSkip, entriesWithSkip_eq_map]
      have same : ∀ field ∈ entries, (field.1, field.2.withSkip old) = id field := by
        intro ⟨name, entry⟩ hm
        cases entry with
        | selected => rfl
        | nested inner => exact congrArg (fun mask => (name, Entry.nested mask)) (ih name inner hm (h.below hm))
      rw [List.map_congr_left same, List.map_id]

end Mask
end FieldMask
