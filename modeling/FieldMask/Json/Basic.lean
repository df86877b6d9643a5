import FieldMask.Fields

/-!
JSON values whose object members keep their order. Plain equality looks at that order; `Json.same`
ignores it at every depth, for values whose objects repeat no name.
-/

namespace FieldMask

/-- A decimal number: `mantissa` divided by ten to the `places`. -/
structure Decimal where
  mantissa : Int
  places : Nat := 0
deriving DecidableEq, Inhabited, Repr

/-- A JSON value; an object is a list of members in order. -/
inductive Json where
  | null
  | bool (value : Bool)
  | num (value : Decimal)
  | str (text : String)
  | arr (items : List Json)
  | obj (members : List (String × Json))
deriving Inhabited, Repr

namespace Json

/-- Whether the value is null. -/
def isNull : Json → Bool
  | .null => true
  | _ => false

/-- The member with the given name, if the value is an object that has one. -/
def member? : Json → String → Option Json
  | .obj members, name => Fields.find? members name
  | _, _ => none

/-- The text, if the value is a string. -/
def text? : Json → Option String
  | .str text => some text
  | _ => none

mutual

/-- Whether two values are equal, the order of members included. -/
def beq : Json → Json → Bool
  | .null, .null => true
  | .bool a, .bool b => a == b
  | .num a, .num b => a == b
  | .str a, .str b => a == b
  | .arr as, .arr bs => beqItems as bs
  | .obj as, .obj bs => beqMembers as bs
  | _, _ => false

/-- Whether two lists of items are equal. -/
def beqItems : List Json → List Json → Bool
  | [], [] => true
  | a :: as, b :: bs => a.beq b && beqItems as bs
  | _, _ => false

/-- Whether two lists of members are equal, in the same order. -/
def beqMembers : List (String × Json) → List (String × Json) → Bool
  | [], [] => true
  | (m, a) :: as, (n, b) :: bs => m == n && a.beq b && beqMembers as bs
  | _, _ => false

end

mutual

theorem beq_iff : ∀ a b : Json, a.beq b = true ↔ a = b
  | .null, b => by cases b <;> simp [beq]
  | .bool _, b => by cases b <;> simp [beq]
  | .num _, b => by cases b <;> simp [beq]
  | .str _, b => by cases b <;> simp [beq]
  | .arr as, .arr bs => by simp [beq, beqItems_iff as bs]
  | .obj as, .obj bs => by simp [beq, beqMembers_iff as bs]
  | .arr _, .null | .arr _, .bool _ | .arr _, .num _ | .arr _, .str _ | .arr _, .obj _ => by simp [beq]
  | .obj _, .null | .obj _, .bool _ | .obj _, .num _ | .obj _, .str _ | .obj _, .arr _ => by simp [beq]

theorem beqItems_iff : ∀ as bs : List Json, beqItems as bs = true ↔ as = bs
  | [], bs => by cases bs <;> simp [beqItems]
  | _ :: _, [] => by simp [beqItems]
  | a :: as, b :: bs => by simp [beqItems, beq_iff a b, beqItems_iff as bs]

theorem beqMembers_iff : ∀ as bs : List (String × Json), beqMembers as bs = true ↔ as = bs
  | [], bs => by cases bs <;> simp [beqMembers]
  | _ :: _, [] => by simp [beqMembers]
  | (m, a) :: as, (n, b) :: bs => by simp [beqMembers, beq_iff a b, beqMembers_iff as bs]

end

instance : DecidableEq Json := fun a b => decidable_of_iff _ (beq_iff a b)

mutual

/-- Whether two values are equal but for the order of object members, at any depth. -/
def same : Json → Json → Bool
  | .arr as, .arr bs => sameItems as bs
  | .obj as, .obj bs => as.length == bs.length && sameMembers as bs
  | a, b => a.beq b

/-- Whether two lists of items agree item by item, each but for the order of members. -/
def sameItems : List Json → List Json → Bool
  | [], [] => true
  | a :: as, b :: bs => a.same b && sameItems as bs
  | _, _ => false

/-- Whether every member of the first list is a member of the second, but for order in its value. -/
def sameMembers : List (String × Json) → List (String × Json) → Bool
  | [], _ => true
  | (name, a) :: as, bs =>
    (match Fields.find? bs name with
      | some b => a.same b
      | none => false) && sameMembers as bs

end
end Json
end FieldMask
