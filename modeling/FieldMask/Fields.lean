/-!
Ordered fields: values under names, in the order in which the names first came. Records, masks and
schemas all keep their parts this way. A name given again takes the new value at the old place
(`Fields.insert`), so inserting never repeats a name (`nodup_names_insert`).
-/

namespace FieldMask

/-- Values under names, in order. -/
abbrev Fields (α : Type u) := List (String × α)

namespace Fields

variable {α : Type u}

/-- The names, in order. -/
def names (fields : Fields α) : List String := fields.map Prod.fst

/-- The value of the first field with the given name. -/
def find? : Fields α → String → Option α
  | [], _ => none
  | (other, value) :: rest, name => if other = name then some value else find? rest name

/-- Whether some field has the given name. -/
def contains (fields : Fields α) (name : String) : Bool := (find? fields name).isSome

/-- Sets a field: in place if the name is there, else at the end. -/
def insert : Fields α → String → α → Fields α
  | [], name, value => [(name, value)]
  | (other, old) :: rest, name, value =>
    if other = name then (name, value) :: rest else (other, old) :: insert rest name value

/-- The fields of a list of pairs inserted one after the other. -/
def ofList (pairs : List (String × α)) : Fields α :=
  pairs.foldl (fun fields pair => insert fields pair.1 pair.2) []

/-- The fields of one list whose names are in another, in order, each combined with the field there. -/
def common {β : Type v} {γ : Type w} (combine : β → α → γ) (others : Fields β) (fields : Fields α) : Fields γ :=
  fields.filterMap fun field => (find? others field.1).map fun other => (field.1, combine other field.2)

theorem find?_insert (fields : Fields α) (name other : String) (value : α) :
    find? (insert fields name value) other = if name = other then some value else find? fields other := by
  induction fields with
  | nil => rfl
  | cons field rest ih =>
    obtain ⟨first, old⟩ := field
    by_cases here : first = name
    · subst here
      by_cases same : first = other <;> simp [insert, find?, same]
    · by_cases same : name = other
      · subst same
        simp [insert, here, find?, ih]
      · simp [insert, here, find?, ih, same]

theorem mem_names_iff_find? (fields : Fields α) (name : String) :
    name ∈ names fields ↔ (find? fields name).isSome := by
  induction fields with
  | nil => simp [names, find?]
  | cons field rest ih =>
    obtain ⟨first, value⟩ := field
    by_cases here : first = name
    · simp [names, find?, here]
    · simp only [names] at ih
      simp [names, find?, here, Ne.symm here, ih]

theorem find?_eq_none_iff {fields : Fields α} {name : String} : find? fields name = none ↔ name ∉ names fields := by
  rw [mem_names_iff_find?, Option.not_isSome_iff_eq_none]

theorem names_insert (fields : Fields α) (name : String) (value : α) :
    names (insert fields name value) =
      if name ∈ names fields then names fields else names fields ++ [name] := by
  induction fields with
  | nil => simp [insert, names]
  | cons field rest ih =>
    obtain ⟨first, old⟩ := field
    by_cases here : first = name
    · simp [insert, names, here]
    · simp only [names] at ih
      by_cases later : name ∈ rest.map Prod.fst <;> simp [insert, names, here, Ne.symm here, ih, later]

theorem nodup_names_insert {fields : Fields α} (distinct : (names fields).Nodup) (name : String) (value : α) :
    (names (insert fields name value)).Nodup := by
  rw [names_insert]
  split
  · exact distinct
  · rename_i fresh
    exact List.nodup_append.mpr ⟨distinct, by simp, by
      intro old member new isNew same
      exact fresh (List.mem_singleton.mp isNew ▸ same ▸ member)⟩

theorem insert_insert (fields : Fields α) (name : String) (first second : α) :
    insert (insert fields name first) name second = insert fields name second := by
  induction fields with
  | nil => simp [insert]
  | cons field rest ih =>
    obtain ⟨other, old⟩ := field
    by_cases here : other = name <;> simp [insert, here, ih]

theorem mem_insert {fields : Fields α} {name : String} {value : α} {field : String × α}
    (member : field ∈ insert fields name value) : field ∈ fields ∨ field = (name, value) := by
  induction fields with
  | nil => exact .inr (List.mem_singleton.mp member)
  | cons head rest ih =>
    obtain ⟨other, old⟩ := head
    by_cases here : other = name
    · simp only [insert, here, if_true, List.mem_cons] at member ⊢
      exact member.elim .inr fun later => .inl (.inr later)
    · simp only [insert, here, if_false, List.mem_cons] at member ⊢
      rcases member with first | later
      · exact .inl (.inl first)
      · exact (ih later).imp .inr id

theorem insert_eq_append {fields : Fields α} {name : String} (fresh : name ∉ names fields) (value : α) :
    insert fields name value = fields ++ [(name, value)] := by
  induction fields with
  | nil => rfl
  | cons head rest ih =>
    obtain ⟨other, old⟩ := head
    obtain ⟨here, later⟩ : name ≠ other ∧ name ∉ names rest := by simpa [names] using fresh
    simp [insert, here.symm, ih later]

theorem insert_map {β : Type v} (change : α → β) (fields : Fields α) (name : String) (value : α) :
    insert (fields.map fun field => (field.1, change field.2)) name (change value) =
      (insert fields name value).map fun field => (field.1, change field.2) := by
  induction fields with
  | nil => rfl
  | cons head rest ih =>
    obtain ⟨other, old⟩ := head
    by_cases here : other = name <;> simp [insert, here, ih]

theorem find?_map {β : Type v} (change : α → β) (fields : Fields α) (name : String) :
    find? (fields.map fun field => (field.1, change field.2)) name = (find? fields name).map change := by
  induction fields with
  | nil => rfl
  | cons head rest ih =>
    obtain ⟨other, old⟩ := head
    by_cases here : other = name <;> simp [find?, here, ih]

theorem find?_append (fields more : Fields α) (name : String) :
    find? (fields ++ more) name = (find? fields name).or (find? more name) := by
  induction fields with
  | nil => rfl
  | cons head rest ih =>
    obtain ⟨other, old⟩ := head
    by_cases here : other = name <;> simp [find?, here, ih]

theorem common_cons {β : Type v} {γ : Type w} (combine : β → α → γ) (others : Fields β) (name : String) (value : α)
    (rest : Fields α) : common combine others ((name, value) :: rest) =
      match find? others name with
      | some other => (name, combine other value) :: common combine others rest
      | none => common combine others rest := by
  cases found : find? others name <;> simp [common, found]

theorem find?_common {β : Type v} {γ : Type w} (combine : β → α → γ) (others : Fields β) (fields : Fields α)
    (name : String) : find? (common combine others fields) name =
      (find? fields name).bind fun value => (find? others name).map (combine · value) := by
  induction fields with
  | nil => rfl
  | cons head rest ih =>
    obtain ⟨first, value⟩ := head
    rw [common_cons]
    by_cases here : first = name
    · subst here
      cases found : find? others first <;> simp [find?, found, ih]
    · cases find? others first <;> simp [find?, here, ih]

theorem names_common {β : Type v} {γ : Type w} (combine : β → α → γ) (others : Fields β) (fields : Fields α) :
    names (common combine others fields) = (names fields).filter (contains others) := by
  induction fields with
  | nil => rfl
  | cons head rest ih =>
    obtain ⟨name, value⟩ := head
    simp only [names] at ih
    cases found : find? others name <;> simp [common_cons, names, contains, found, ih]

/-- Fields whose names are not in the other list may be taken out before. -/
theorem common_filter {β : Type v} {γ : Type w} (combine : β → α → γ) {others : Fields β} {fields : Fields α}
    {keep : String × α → Bool} (gone : ∀ field ∈ fields, keep field = false → find? others field.1 = none) :
    common combine others (fields.filter keep) = common combine others fields := by
  induction fields with
  | nil => rfl
  | cons head rest ih =>
    obtain ⟨name, value⟩ := head
    have ih := ih fun field member => gone field (List.mem_cons_of_mem _ member)
    cases kept : keep (name, value) with
    | true => rw [List.filter_cons_of_pos kept, common_cons, common_cons, ih]
    | false =>
      have absent : find? others name = none := gone _ List.mem_cons_self kept
      rw [List.filter_cons_of_neg (by simp [kept]), ih, common_cons, absent]

/-- Nothing is lost to another list that has every name, nor changed if it has nothing to add. -/
theorem common_eq_self {β : Type v} {combine : β → α → α} {others : Fields β} {fields : Fields α}
    (stays : ∀ name value, (name, value) ∈ fields → ∃ other, find? others name = some other ∧ combine other value = value) :
    common combine others fields = fields := by
  induction fields with
  | nil => rfl
  | cons head rest ih =>
    obtain ⟨name, value⟩ := head
    obtain ⟨other, found, same⟩ := stays name value List.mem_cons_self
    rw [common_cons, found]
    simp only
    rw [same, ih fun name value member => stays name value (List.mem_cons_of_mem _ member)]

/-- What two lists have in common with a third, taken in two orders. -/
theorem common_common {β : Type v} {γ : Type w} {δ : Type x} {ε : Type y} {ζ : Type z} {narrow : β → α → γ}
    {again : γ → δ → ε} {meet : α → δ → ζ} {once : β → ζ → ε} {others : Fields β} {fields : Fields α} {more : Fields δ}
    (agree : ∀ name other value last, find? others name = some other → find? fields name = some value →
      (name, last) ∈ more → again (narrow other value) last = once other (meet value last)) :
    common again (common narrow others fields) more = common once others (common meet fields more) := by
  induction more with
  | nil => rfl
  | cons head rest ih =>
    obtain ⟨name, last⟩ := head
    have ih := ih fun name other value last one two member => agree name other value last one two (List.mem_cons_of_mem _ member)
    rw [common_cons, common_cons, find?_common, ih]
    cases two : find? fields name with
    | none => rfl
    | some value =>
      simp only [Option.bind_some]
      rw [common_cons]
      cases one : find? others name with
      | none => rfl
      | some other =>
        simp only [Option.map_some]
        rw [agree name other value last one two List.mem_cons_self]

theorem mem_of_find? {fields : Fields α} {name : String} {value : α} (found : find? fields name = some value) :
    (name, value) ∈ fields := by
  induction fields with
  | nil => cases found
  | cons head rest ih =>
    obtain ⟨other, old⟩ := head
    by_cases here : other = name
    · simp only [find?, here, if_true, Option.some.injEq] at found
      rw [here, found]
      exact List.mem_cons_self
    · simp only [find?, here, if_false] at found
      exact List.mem_cons_of_mem _ (ih found)

theorem find?_of_mem {fields : Fields α} (distinct : (names fields).Nodup) {name : String} {value : α}
    (member : (name, value) ∈ fields) : find? fields name = some value := by
  induction fields with
  | nil => cases member
  | cons head rest ih =>
    obtain ⟨other, old⟩ := head
    simp only [names, List.map_cons, List.nodup_cons] at distinct
    rcases List.mem_cons.mp member with first | later
    · cases first
      simp [find?]
    · have here : other ≠ name := fun same => distinct.1 (same ▸ List.mem_map.mpr ⟨_, later, rfl⟩)
      simp only [find?, here, if_false]
      exact ih distinct.2 later

end Fields
end FieldMask
