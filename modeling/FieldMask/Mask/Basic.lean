import FieldMask.Fields

/-!
Field masks: an ordered choice of fields, each taken whole or through a mask of its own. A mask also says
what happens to a chosen field that the data lacks: with `skip` it is left out, without it is null.
Plain equality of masks looks at the skip flags and the order of the fields at every depth.
-/

namespace FieldMask

mutual

/-- A choice of fields in order, with the policy for fields the data lacks. -/
inductive Mask where
  | mk (skip : Bool) (entries : List (String × Entry))

/-- What a mask says about a field. -/
inductive Entry where
  /-- The field is taken whole. -/
  | selected
  /-- The field is taken through a mask of its own. -/
  | nested (mask : Mask)

end

/-- The name that stands for all fields the mask does not name. -/
def wildcard : String := "*"

namespace Mask

/-- Whether fields that the data lacks are left out. -/
def skip : Mask → Bool
  | .mk skip _ => skip

/-- The named fields, in order. -/
def entries : Mask → Fields Entry
  | .mk _ entries => entries

/-- The mask that names no field. -/
def empty (skip : Bool) : Mask := .mk skip []

instance : Inhabited Mask := ⟨empty false⟩

/-- Sets a field: in place if the mask names it, else at the end. -/
def insert (mask : Mask) (name : String) (entry : Entry) : Mask :=
  .mk mask.skip (Fields.insert mask.entries name entry)

/-- What the mask says about a field, if it names it. -/
def find? (mask : Mask) (name : String) : Option Entry := Fields.find? mask.entries name

/-- Whether the mask names the field. -/
def contains (mask : Mask) (name : String) : Bool := Fields.contains mask.entries name

/-- Whether the mask lets through the fields it does not name. -/
def hasWildcard (mask : Mask) : Bool := mask.contains wildcard

/-- The names of the fields, in order. -/
def names (mask : Mask) : List String := Fields.names mask.entries

/-- The number of fields. -/
def size (mask : Mask) : Nat := mask.entries.length

/-- Whether the mask names no field. -/
def isEmpty (mask : Mask) : Bool := mask.entries.isEmpty

@[simp] theorem skip_mk (skip : Bool) (entries : List (String × Entry)) : (mk skip entries).skip = skip := rfl

@[simp] theorem entries_mk (skip : Bool) (entries : List (String × Entry)) :
    (mk skip entries).entries = entries := rfl

@[simp] theorem skip_insert (mask : Mask) (name : String) (entry : Entry) :
    (mask.insert name entry).skip = mask.skip := rfl

end Mask

mutual

/-- Whether two masks are equal. -/
def Mask.beq : Mask → Mask → Bool
  | .mk s as, .mk t bs => s == t && Mask.beqEntries as bs

/-- Whether two lists of entries are equal, in the same order. -/
def Mask.beqEntries : List (String × Entry) → List (String × Entry) → Bool
  | [], [] => true
  | (m, a) :: as, (n, b) :: bs => m == n && a.beq b && Mask.beqEntries as bs
  | _, _ => false

/-- Whether two entries are equal. -/
def Entry.beq : Entry → Entry → Bool
  | .selected, .selected => true
  | .nested m, .nested n => m.beq n
  | _, _ => false

end

mutual

theorem Mask.beq_iff : ∀ a b : Mask, a.beq b = true ↔ a = b
  | .mk s as, .mk t bs => by simp [Mask.beq, Mask.beqEntries_iff as bs]

theorem Mask.beqEntries_iff : ∀ as bs : List (String × Entry), Mask.beqEntries as bs = true ↔ as = bs
  | [], bs => by cases bs <;> simp [Mask.beqEntries]
  | _ :: _, [] => by simp [Mask.beqEntries]
  | (m, a) :: as, (n, b) :: bs => by simp [Mask.beqEntries, Entry.beq_iff a b, Mask.beqEntries_iff as bs]

theorem Entry.beq_iff : ∀ a b : Entry, a.beq b = true ↔ a = b
  | .selected, b => by cases b <;> simp [Entry.beq]
  | .nested m, .nested n => by simp [Entry.beq, Mask.beq_iff m n]
  | .nested _, .selected => by simp [Entry.beq]

end

instance : DecidableEq Mask := fun a b => decidable_of_iff _ (Mask.beq_iff a b)

instance : DecidableEq Entry := fun a b => decidable_of_iff _ (Entry.beq_iff a b)

end FieldMask
