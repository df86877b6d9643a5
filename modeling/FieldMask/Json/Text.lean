import FieldMask.Json.Basic

/-!
The compact text of a JSON value: no blanks, members in order, numbers in plain decimal notation. In a
string only the quote, the backslash and the characters below U+0020 are escaped.
-/

namespace FieldMask

/-- Positional notation: a minus sign, the whole part, and the places after a point if there are any. -/
def Decimal.text (number : Decimal) : String :=
  let sign := if number.mantissa < 0 then "-" else ""
  let digits := Nat.toDigits 10 number.mantissa.natAbs
  let padded := List.replicate (number.places + 1 - digits.length) '0' ++ digits
  let whole := padded.take (padded.length - number.places)
  let places := padded.drop (padded.length - number.places)
  sign ++ String.ofList whole ++ (if places.isEmpty then "" else "." ++ String.ofList places)

namespace Json

/-- A character inside a quoted string. -/
def escape (c : Char) : List Char :=
  match c with
  | '"' => ['\\', '"']
  | '\\' => ['\\', '\\']
  | '\x08' => ['\\', 'b']
  | '\x0c' => ['\\', 'f']
  | '\n' => ['\\', 'n']
  | '\r' => ['\\', 'r']
  | '\t' => ['\\', 't']
  | c =>
    if c.toNat < 0x20 then
      ['\\', 'u', '0', '0', Nat.digitChar (c.toNat / 16), Nat.digitChar (c.toNat % 16)]
    else [c]

/-- A string between quotes. -/
def quote (text : String) : String :=
  "\"" ++ String.ofList (text.toList.flatMap escape) ++ "\""

mutual

/-- The compact text of a value. -/
def text : Json → String
  | .null => "null"
  | .bool value => if value then "true" else "false"
  | .num value => value.text
  | .str text => quote text
  | .arr items => "[" ++ ",".intercalate (itemTexts items) ++ "]"
  | .obj members => "\x7b" ++ ",".intercalate (memberTexts members) ++ "\x7d"

/-- The texts of the items of an array. -/
def itemTexts : List Json → List String
  | [] => []
  | item :: rest => item.text :: itemTexts rest

/-- The texts of the members of an object. -/
def memberTexts : List (String × Json) → List String
  | [] => []
  | (name, value) :: rest => (quote name ++ ":" ++ value.text) :: memberTexts rest

end
end Json
end FieldMask
