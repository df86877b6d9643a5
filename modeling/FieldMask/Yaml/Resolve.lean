/-!
Plain scalars that stand for something other than their text: null, truth values and numbers. An integer
has at most 128 bits; a decimal number is one that a double can hold without overflow.
-/

namespace FieldMask.Yaml

/-- Whether the text stands for null. -/
def isNullText (text : String) : Bool := ["", "~", "null", "Null", "NULL"].contains text

/-- The truth value that a text stands for. -/
def bool? (text : String) : Option Bool :=
  if ["true", "True", "TRUE"].contains text then some true
  else if ["false", "False", "FALSE"].contains text then some false
  else none

/-- Takes a sign off the front. -/
def unsigned : List Char → Option Char × List Char
  | c :: rest => if c = '+' ∨ c = '-' then (some c, rest) else (none, c :: rest)
  | [] => (none, [])

/-- The value of a digit in bases up to 16. -/
def digit? (base : Nat) (c : Char) : Option Nat :=
  let value :=
    if c.isDigit then c.toNat - '0'.toNat
    else if c.isAlpha then c.toLower.toNat - 'a'.toNat + 10
    else base
  if value < base then some value else none

/-- The number that the digits spell in a base. -/
def natural? (base : Nat) (digits : List Char) : Option Nat :=
  if digits.isEmpty then none
  else digits.foldlM (fun value c => (base * value + ·) <$> digit? base c) 0

/-- The base that the text after the sign is written in, and its digits. -/
def based : List Char → Nat × List Char
  | '0' :: 'x' :: digits => (16, digits)
  | '0' :: 'o' :: digits => (8, digits)
  | '0' :: 'b' :: digits => (2, digits)
  | digits => (10, digits)

/-- Whether the text is an integer in some base. -/
def isInteger (text : String) : Bool :=
  let (sign, rest) := unsigned text.toList
  let (base, digits) := based rest
  match natural? base digits with
  | some value => if sign = some '-' then value ≤ Nat.pow 2 127 else value < Nat.pow 2 128
  | none => false

/-- Whether the text is a run of digits with a zero too many in front, after a sign if there is one. -/
def hasLeadingZero (text : String) : Bool :=
  match (unsigned text.toList).2 with
  | '0' :: c :: rest => (c :: rest).all Char.isDigit
  | _ => false

/-- The value from which on a number is rounded to infinity as a double. -/
def overflow : Nat := Nat.pow 2 1024 - Nat.pow 2 970

/-- Whether `mantissa * 10 ^ exponent` fits into a double. -/
def fitsDouble (mantissa : Nat) (exponent : Int) : Bool :=
  let places := (Nat.toDigits 10 mantissa).length + exponent
  if mantissa = 0 ∨ places < 309 then true
  else if places > 310 then false
  else mantissa * Nat.pow 10 exponent.toNat < overflow * Nat.pow 10 (-exponent).toNat

/-- The exponent at the end of a decimal number, zero if there is none. -/
def exponent? : List Char → Option Int
  | [] => some 0
  | mark :: rest =>
    if mark = 'e' ∨ mark = 'E' then
      let (sign, digits) := unsigned rest
      (natural? 10 digits).map fun value => if sign = some '-' then -(value : Int) else value
    else none

/-- Whether the text is a decimal number: digits, around a point if there is one, and an exponent. -/
def isDecimal (text : String) : Bool :=
  let (_, rest) := unsigned text.toList
  let (whole, rest) := rest.span Char.isDigit
  let (places, rest) := match rest with
    | '.' :: after => after.span Char.isDigit
    | other => ([], other)
  match natural? 10 (whole ++ places), exponent? rest with
  | some mantissa, some exponent => fitsDouble mantissa (exponent - places.length)
  | _, _ => false

/-- Whether the text names infinity or no number at all. -/
def isSpecialNumber (text : String) : Bool :=
  [".inf", ".Inf", ".INF", "+.inf", "+.Inf", "+.INF", "-.inf", "-.Inf", "-.INF", ".nan", ".NaN",
    ".NAN"].contains text

/-- Whether a plain scalar with this text might not be read as the text itself. -/
def isAmbiguous (text : String) : Bool :=
  isNullText text || (bool? text).isSome || isInteger text || hasLeadingZero text || isDecimal text ||
    isSpecialNumber text

end FieldMask.Yaml
