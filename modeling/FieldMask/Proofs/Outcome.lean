import FieldMask.Refusal

/-! Outcomes of computations that may be refused: how binding, mapping and blaming act on a result and on
    a refusal. Two computations are compared by what they give, and by why they are refused (`Alike`) or only by
    whether they are (`Akin`). -/

namespace FieldMask

section
variable {ε α β : Type _}

@[simp] theorem ok_bind (x : α) (f : α → Except ε β) : (Except.ok x >>= f) = f x := rfl

@[simp] theorem error_bind (e : ε) (f : α → Except ε β) : (Except.error e >>= f) = .error e := rfl

@[simp] theorem pure_eq_ok (x : α) : (pure x : Except ε α) = .ok x := rfl

@[simp] theorem map_ok (f : α → β) (x : α) : (f <$> (Except.ok x : Except ε α)) = .ok (f x) := rfl

@[simp] theorem map_error (f : α → β) (e : ε) : (f <$> (Except.error e : Except ε α)) = .error e := rfl

theorem bind_eq_ok_iff {x : Except ε α} {f : α → Except ε β} {b : β} :
    (x >>= f) = .ok b ↔ ∃ a, x = .ok a ∧ f a = .ok b := by
  cases x <;> simp

theorem map_eq_ok_iff {f : α → β} {x : Except ε α} {b : β} : f <$> x = .ok b ↔ ∃ a, x = .ok a ∧ f a = b := by
  cases x <;> simp

@[simp] theorem map_eq_error_iff {f : α → β} {x : Except ε α} {e : ε} : f <$> x = .error e ↔ x = .error e := by
  cases x <;> simp

theorem bind_eq_error_iff {x : Except ε α} {f : α → Except ε β} {e : ε} :
    (x >>= f) = .error e ↔ x = .error e ∨ ∃ a, x = .ok a ∧ f a = .error e := by
  cases x <;> simp

/-- A traversal is refused at the first element that is. -/
theorem mapM_eq_error_iff {f : α → Except ε β} {elements : List α} {e : ε} :
    elements.mapM f = .error e ↔ ∃ before element after, elements = before ++ element :: after ∧
      (∀ other ∈ before, ∃ result, f other = .ok result) ∧ f element = .error e := by
  induction elements with
  | nil => simp
  | cons first rest ih =>
    rw [List.mapM_cons, bind_eq_error_iff]
    simp only [bind_pure_comp, map_eq_error_iff]
    constructor
    · rintro (h | ⟨result, hf, hr⟩)
      · exact ⟨[], first, rest, rfl, by simp, h⟩
      · obtain ⟨before, element, after, rfl, hb, he⟩ := ih.mp hr
        exact ⟨first :: before, element, after, rfl, List.forall_mem_cons.mpr ⟨⟨result, hf⟩, hb⟩, he⟩
    · rintro ⟨before, element, after, hl, hb, he⟩
      cases before with
      | nil =>
        obtain ⟨rfl, rfl⟩ := List.cons.inj hl
        exact Or.inl he
      | cons head before =>
        obtain ⟨rfl, rfl⟩ := List.cons.inj hl
        obtain ⟨⟨result, hf⟩, hb⟩ := List.forall_mem_cons.mp hb
        exact Or.inr ⟨result, hf, ih.mpr ⟨before, element, after, rfl, hb, he⟩⟩

/-- A run over a list is refused at the first element where a step is. -/
theorem foldlM_eq_error_iff {step : β → α → Except ε β} {start : β} {elements : List α} {e : ε} :
    elements.foldlM step start = .error e ↔ ∃ before element after middle, elements = before ++ element :: after ∧
      before.foldlM step start = .ok middle ∧ step middle element = .error e := by
  induction elements generalizing start with
  | nil => simp
  | cons first rest ih =>
    rw [List.foldlM_cons, bind_eq_error_iff]
    constructor
    · rintro (h | ⟨next, hf, hr⟩)
      · exact ⟨[], first, rest, start, rfl, rfl, h⟩
      · obtain ⟨before, element, after, middle, rfl, hb, he⟩ := ih.mp hr
        refine ⟨first :: before, element, after, middle, rfl, ?_, he⟩
        rw [List.foldlM_cons, hf, ok_bind, hb]
    · rintro ⟨before, element, after, middle, hl, hb, he⟩
      cases before with
      | nil =>
        obtain ⟨rfl, rfl⟩ := List.cons.inj hl
        cases hb
        exact Or.inl he
      | cons head before =>
        obtain ⟨rfl, rfl⟩ := List.cons.inj hl
        rw [List.foldlM_cons] at hb
        obtain ⟨next, hf, hb⟩ := bind_eq_ok_iff.mp hb
        exact Or.inr ⟨next, hf, ih.mpr ⟨before, element, after, middle, rfl, hb, he⟩⟩

/-- A traversal is refused if one of the elements is, though maybe for another one. -/
theorem exists_error_of_mapM {f : α → Except ε β} {elements : List α} {element : α} {e : ε} (hm : element ∈ elements)
    (h : f element = .error e) : ∃ cause, elements.mapM f = .error cause := by
  induction elements with
  | nil => cases hm
  | cons first rest ih =>
    rw [List.mapM_cons]
    cases hf : f first with
    | error cause => exact ⟨cause, rfl⟩
    | ok result =>
      have hr : element ∈ rest := (List.mem_cons.mp hm).resolve_left fun same => by
        rw [same, hf] at h
        cases h
      obtain ⟨cause, hc⟩ := ih hr
      exact ⟨cause, by rw [hc]; rfl⟩

/-- Whether a traversal is refused does not depend on the order of the elements. -/
theorem mapM_refused_iff {f : α → Except ε β} {elements : List α} :
    (∃ e, elements.mapM f = .error e) ↔ ∃ element ∈ elements, ∃ e, f element = .error e := by
  constructor
  · rintro ⟨e, h⟩
    obtain ⟨before, element, after, rfl, -, he⟩ := mapM_eq_error_iff.mp h
    exact ⟨element, by simp, e, he⟩
  · rintro ⟨element, hm, e, he⟩
    exact exists_error_of_mapM hm he

end

/-! ### Alike outcomes -/

/-- Two computations end alike: both are refused for the same reason, or both give results that are related. -/
inductive Alike {ε α β : Type _} (R : α → β → Prop) : Except ε α → Except ε β → Prop
  | error (e : ε) : Alike R (.error e) (.error e)
  | ok {x : α} {y : β} : R x y → Alike R (.ok x) (.ok y)

namespace Alike
variable {ε α β α' β' : Type _} {R : α → β → Prop} {S : α' → β' → Prop} {x : Except ε α} {y : Except ε β}

theorem refl {T : α → α → Prop} (h : ∀ a, T a a) (x : Except ε α) : Alike T x x := by
  cases x with
  | error e => exact .error e
  | ok a => exact .ok (h a)

theorem bind {f : α → Except ε α'} {g : β → Except ε β'} (h : Alike R x y)
    (hf : ∀ a b, R a b → Alike S (f a) (g b)) : Alike S (x >>= f) (y >>= g) := by
  cases h with
  | error e => exact .error e
  | ok hr => exact hf _ _ hr

theorem map {f : α → α'} {g : β → β'} (h : Alike R x y) (hf : ∀ a b, R a b → S (f a) (g b)) :
    Alike S (f <$> x) (g <$> y) := by
  cases h with
  | error e => exact .error e
  | ok hr => exact .ok (hf _ _ hr)

theorem imp {S : α → β → Prop} (h : Alike R x y) (hf : ∀ a b, R a b → S a b) : Alike S x y := by
  cases h with
  | error e => exact .error e
  | ok hr => exact .ok (hf _ _ hr)

theorem map_right {S : α → β' → Prop} {g : β → β'} (h : Alike R x y) (hf : ∀ a b, R a b → S a (g b)) :
    Alike S x (g <$> y) := by
  cases h with
  | error e => exact .error e
  | ok hr => exact .ok (hf _ _ hr)

theorem eq {x y : Except ε α} (h : Alike Eq x y) : x = y := by
  cases h with
  | error e => rfl
  | ok hr => rw [hr]

theorem atField {x : Except Refusal α} {y : Except Refusal β} (h : Alike R x y) (name : String) :
    Alike R (FieldMask.atField name x) (FieldMask.atField name y) := by
  cases h with
  | error e => exact .error _
  | ok hr => exact .ok hr

theorem error_iff (h : Alike R x y) (e : ε) : x = .error e ↔ y = .error e := by
  cases h with
  | error _ => rw [Except.error.injEq, Except.error.injEq]
  | ok _ => exact iff_of_false nofun nofun

end Alike

/-- Both computations go through, or both are refused for the same reason. -/
abbrev RefusedAlike {ε α β : Type _} (x : Except ε α) (y : Except ε β) : Prop := Alike (fun _ _ => True) x y

/-- Two computations end akin: both are refused, for whatever reasons, or both give results that are related. -/
inductive Akin {ε α β : Type _} (R : α → β → Prop) : Except ε α → Except ε β → Prop
  | error (e f : ε) : Akin R (.error e) (.error f)
  | ok {x : α} {y : β} : R x y → Akin R (.ok x) (.ok y)

namespace Akin
variable {ε α β α' β' : Type _} {R : α → β → Prop} {S : α' → β' → Prop} {x : Except ε α} {y : Except ε β}

theorem bind {f : α → Except ε α'} {g : β → Except ε β'} (h : Akin R x y)
    (hf : ∀ a b, R a b → Akin S (f a) (g b)) : Akin S (x >>= f) (y >>= g) := by
  cases h with
  | error e f => exact .error e f
  | ok hr => exact hf _ _ hr

theorem map {f : α → α'} {g : β → β'} (h : Akin R x y) (hf : ∀ a b, R a b → S (f a) (g b)) :
    Akin S (f <$> x) (g <$> y) := by
  cases h with
  | error e f => exact .error e f
  | ok hr => exact .ok (hf _ _ hr)

theorem refused_iff (h : Akin R x y) : (∃ e, x = .error e) ↔ ∃ e, y = .error e := by
  cases h with
  | error e f => exact iff_of_true ⟨e, rfl⟩ ⟨f, rfl⟩
  | ok _ => exact iff_of_false nofun nofun

end Akin

theorem Alike.akin {ε α β : Type _} {R : α → β → Prop} {x : Except ε α} {y : Except ε β} (h : Alike R x y) : Akin R x y := by
  cases h with
  | error e => exact .error e e
  | ok hr => exact .ok hr

/-! ### Blame -/

@[simp] theorem atField_ok {α : Type _} (name : String) (a : α) : atField name (.ok a : Except Refusal α) = .ok a := rfl

@[simp] theorem atField_error {α : Type _} (name : String) (e : Refusal) :
    atField name (.error e : Except Refusal α) = .error (e.atField name) := rfl

theorem atField_eq_ok_iff {α : Type _} {name : String} {x : Except Refusal α} {a : α} :
    atField name x = .ok a ↔ x = .ok a := by
  cases x <;> simp

end FieldMask
