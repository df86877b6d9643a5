import FieldMask.Mask.Basic
import FieldMask.Refusal
import FieldMask.Unicode

/-!
The text of a mask as tokens: brackets, commas and field names. Layout is dropped in two steps: `clean`
removes line breaks, the white space around the text and one outer pair of brackets; `tokenize` takes the
longest runs of name characters as names and passes over every character that belongs to no token. The
other way, the canonical text of a mask is the text of the tokens that spell it: every group in brackets,
its fields separated by commas and followed by their own groups.
-/

namespace FieldMask

/-- A token of the mask language. -/
inductive Token where
  | opening
  | closing
  | comma
  | name (text : String)
deriving DecidableEq, Inhabited, Repr

/-- Whether the character may stand in a field name: a word character, a colon, a hyphen or a star. -/
def isNameChar (c : Char) : Bool := Unicode.isWord c || c == ':' || c == '-' || c == '*'

/-- Whether a mask can name the field: at least one character, and name characters only. -/
def isFieldName (name : String) : Bool := !name.toList.isEmpty && name.toList.all isNameChar

namespace Token

/-- The characters of a token. -/
def chars : Token → List Char
  | .opening => ['{']
  | .closing => ['}']
  | .comma => [',']
  | .name text => text.toList

/-- The text of a token. -/
def text (token : Token) : String := String.ofList token.chars

/-- The token that a single character makes outside a name, if any. -/
def ofMark (c : Char) : List Token :=
  if c = '{' then [.opening]
  else if c = '}' then [.closing]
  else if c = ',' then [.comma]
  else []

/-- The name whose characters were read, last first; none if nothing was read. -/
def ofRead : List Char → List Token
  | [] => []
  | c :: before => [.name (String.ofList (c :: before).reverse)]

/-- The tokens of the remaining text after part of a name, whose characters come last first. -/
def scan (read : List Char) : List Char → List Token
  | [] => ofRead read
  | c :: rest =>
    if isNameChar c then scan (c :: read) rest
    else ofRead read ++ ofMark c ++ scan [] rest

end Token

/-- The tokens of a text. -/
def tokenize (text : String) : List Token := Token.scan [] text.toList

/-! ### Layout -/

/-- A list of characters without the white space at both ends. -/
def trim (text : List Char) : List Char :=
  ((text.dropWhile Unicode.isSpace).reverse.dropWhile Unicode.isSpace).reverse

/-- Takes one outer pair of brackets off; an opening bracket in front needs a closing one at the end. -/
def stripBrackets : List Char → Except Malformed (List Char)
  | '{' :: inner =>
    if inner.getLast? = some '}' then .ok inner.dropLast else .error .unclosedGroup
  | text => .ok text

/-- The text without line breaks, surrounding white space and outer brackets. -/
def clean (text : String) : Except Malformed String :=
  String.ofList <$> stripBrackets (trim (text.toList.filter (· ≠ '\n')))

/-! ### The canonical text -/

mutual

/-- The tokens that spell a mask. -/
def Mask.tokens : Mask → List Token
  | .mk _ entries => .opening :: ([Token.comma].intercalate (Mask.entryTokens entries) ++ [.closing])

/-- The tokens that spell each entry of a mask. -/
def Mask.entryTokens : List (String × Entry) → List (List Token)
  | [] => []
  | (name, entry) :: rest => (.name name :: entry.tokens) :: Mask.entryTokens rest

/-- The tokens that follow the name of a field. -/
def Entry.tokens : Entry → List Token
  | .selected => []
  | .nested mask => mask.tokens

end

/-- The canonical text of a mask. -/
def Mask.text (mask : Mask) : String := String.ofList (mask.tokens.flatMap Token.chars)

end FieldMask
