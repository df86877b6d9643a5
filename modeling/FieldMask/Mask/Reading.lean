import FieldMask.Mask.Text

/-!
Reading a mask: one pass over the tokens that keeps the position, the group being filled and the groups
around it. The position decides which tokens may come: a name anywhere, an opening bracket only after a
name, a comma only after a field or a group. Whether a closing bracket has a group to close is decided by
the groups around. A field is selected as soon as it is named; if a group follows, the closed group takes
its place.
-/

namespace FieldMask

/-! ### What a token does -/

/-- Where a reader stands after the last token. -/
inductive Position where
  /-- At the start of the text or of a group. -/
  | groupStart
  /-- After a field name, which may still open a group. -/
  | afterName (name : String)
  /-- After a closing bracket. -/
  | afterGroup
  /-- After a comma. -/
  | afterComma
deriving DecidableEq, Inhabited, Repr

/-- What a token does. -/
inductive Action where
  /-- Selects a field in the current group. -/
  | select (name : String)
  /-- Turns the field just named into a group and goes into it. -/
  | enter (name : String)
  /-- Goes out of the current group. -/
  | leave
  /-- Does nothing. -/
  | separate
deriving DecidableEq, Inhabited, Repr

namespace Position

/-- What a token does at a position, and the position after it. -/
def next : Position → Token → Except Malformed (Action × Position)
  | _, .name name => .ok (.select name, .afterName name)
  | .afterName name, .opening => .ok (.enter name, .groupStart)
  | _, .opening => .error .strayOpening
  | _, .closing => .ok (.leave, .afterGroup)
  | .groupStart, .comma => .error .strayComma
  | .afterComma, .comma => .error .strayComma
  | _, .comma => .ok (.separate, .afterComma)

/-- What each of the tokens does, up to the first one that is refused. -/
def trace (position : Position) : List Token → List (Except Malformed (Action × Position))
  | [] => []
  | token :: rest =>
    match position.next token with
    | .error cause => [.error cause]
    | .ok (action, after) => .ok (action, after) :: trace after rest

end Position

/-! ### Half-read masks -/

/-- A group that waits for one of its fields to be closed. -/
structure Frame where
  group : Mask
  field : String
deriving DecidableEq, Inhabited

/-- A half-read mask: the position, the group being filled, and the groups around it, innermost first. -/
structure Reading where
  position : Position
  group : Mask
  around : List Frame
deriving DecidableEq, Inhabited

namespace Reading

/-- Nothing read yet. -/
def start (skip : Bool) : Reading := ⟨.groupStart, .empty skip, []⟩

/-- Carries out what a token does. Every group gets the given policy. -/
def perform (skip : Bool) (reading : Reading) (after : Position) : Action → Except Malformed Reading
  | .select name => .ok ⟨after, reading.group.insert name .selected, reading.around⟩
  | .enter name => .ok ⟨after, .empty skip, ⟨reading.group, name⟩ :: reading.around⟩
  | .leave =>
    match reading.around with
    | [] => .error .strayClosing
    | frame :: outer => .ok ⟨after, frame.group.insert frame.field (.nested reading.group), outer⟩
  | .separate => .ok ⟨after, reading.group, reading.around⟩

/-- Reads one more token. -/
def step (skip : Bool) (reading : Reading) (token : Token) : Except Malformed Reading := do
  let (action, after) ← reading.position.next token
  reading.perform skip after action

/-- The mask that was read, once no group is open. -/
def finish (reading : Reading) : Except Malformed Mask :=
  if reading.around.isEmpty then .ok reading.group else .error .unclosedGroup

end Reading

namespace Mask

/-- Reads a mask from tokens, all groups with the given policy. -/
def ofTokens (skip : Bool) (tokens : List Token) : Except Malformed Mask := do
  let reading ← tokens.foldlM (Reading.step skip) (Reading.start skip)
  reading.finish

/-- Reads a mask from text, all groups with the given policy. -/
def parse (text : String) (skip : Bool) : Except Malformed Mask := do
  let cleaned ← clean text
  ofTokens skip (tokenize cleaned)

/-- Reads a mask from the bytes of a text. -/
def ofBytes (bytes : ByteArray) (skip : Bool) : Except Malformed Mask :=
  match String.fromUTF8? bytes with
  | some text => parse text skip
  | none => .error .notUtf8

end Mask
end FieldMask
