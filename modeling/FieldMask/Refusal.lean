/-!
Why a mask is refused: its text is malformed, its definition is no mask, or it does not fit the value
it is put on. Each cause has a stable code for programs and a message for people.
-/

namespace FieldMask

/-- What is wrong with the text of a mask. -/
inductive Malformed where
  /-- An opening bracket that does not directly follow a field name. -/
  | strayOpening
  /-- A closing bracket while no group is open. -/
  | strayClosing
  /-- A comma at the start of a group or after another comma. -/
  | strayComma
  /-- A group left open at the end. -/
  | unclosedGroup
  /-- Bytes that are no UTF-8. -/
  | notUtf8
deriving DecidableEq, Inhabited, Repr

/-- Why a mask is refused. -/
inductive Refusal where
  /-- The text of the mask is malformed. -/
  | malformed (cause : Malformed)
  /-- The mask asks for fields inside a value that has none, under the named field if there is one. -/
  | inconsistent (field : Option String)
  /-- A mask definition gives the field neither `true` nor an object. -/
  | invalidValue (field : String)
  /-- A mask definition that is not an object. -/
  | invalidDefinition
  /-- A name that no mask text can spell. -/
  | invalidName (field : String)
  /-- The record has no JSON form, for the given reason. -/
  | unserializable (reason : String)
deriving DecidableEq, Inhabited, Repr

namespace Malformed

/-- The stable code of the cause. -/
def code : Malformed → String
  | .strayOpening => "MASK_UNEXPECTED_OPENING_BRACKET"
  | .strayClosing => "MASK_UNEXPECTED_CLOSING_BRACKET"
  | .strayComma => "MASK_UNEXPECTED_COMMA"
  | .unclosedGroup => "MASK_MISSING_CLOSING_BRACKET"
  | .notUtf8 => "MASK_INVALID_ENCODING"

/-- The cause in words. -/
def message : Malformed → String
  | .strayOpening => "Unexpected opening bracket"
  | .strayClosing => "Unexpected closing bracket"
  | .strayComma => "Unexpected comma"
  | .unclosedGroup => "Missing closing bracket"
  | .notUtf8 => "Mask is not valid UTF-8"

end Malformed

namespace Refusal

/-- The stable code of the refusal. -/
def code : Refusal → String
  | .malformed cause => cause.code
  | .inconsistent _ => "MASK_INCONSISTENT"
  | .invalidValue _ => "MASK_INVALID_VALUE"
  | .invalidDefinition => "MASK_INVALID_DEFINITION"
  | .invalidName _ => "MASK_INVALID_FIELD_NAME"
  | .unserializable _ => "MASK_SERIALIZATION_ERROR"

/-- The refusal in words. -/
def message : Refusal → String
  | .malformed cause => "Mask parse error: " ++ cause.message
  | .inconsistent _ => "Mask is inconsistent with model"
  | .invalidValue field => "Invalid mask value for field '" ++ field ++ "': expected true or an object"
  | .invalidDefinition => "Mask definition must be a JSON object"
  | .invalidName field => "Invalid mask field name '" ++ field ++ "'"
  | .unserializable reason => "Failed to serialize value for masking: " ++ reason

/-- The field the refusal blames, if any. -/
def field? : Refusal → Option String
  | .inconsistent field => field
  | .invalidValue field => some field
  | .invalidName field => some field
  | _ => none

/-- Whether the text of the mask is at fault. -/
def isMalformed : Refusal → Bool
  | .malformed _ => true
  | _ => false

/-- Blames a field for an inconsistency that blames none yet, so the innermost field wins. -/
def atField (field : String) : Refusal → Refusal
  | .inconsistent none => .inconsistent (some field)
  | refusal => refusal

end Refusal

/-- Runs a computation inside a field, which takes the blame for an inconsistency without a field. -/
def atField {α : Type u} (field : String) (result : Except Refusal α) : Except Refusal α :=
  result.mapError (Refusal.atField field)

end FieldMask
