/-!
Characters of a YAML stream with their places. Reading a stream checks that every character is allowed
and makes the ends of lines alike: a carriage return, a line feed, both together and the next-line
character all become one line feed, while the line and paragraph separators stay.
-/

namespace FieldMask.Yaml

/-- A character with its place, counted from zero. -/
structure Glyph where
  char : Char
  /-- How many octets come before. -/
  offset : Nat
  line : Nat
  column : Nat
deriving DecidableEq, Inhabited, Repr

/-- Whether the character is a space or a tab. -/
def isBlank (c : Char) : Bool := c == ' ' || c == '\t'

/-- Whether the character ends a line. -/
def isBreak (c : Char) : Bool :=
  c == '\n' || c == '\r' || c == '\x85' || c == '\u2028' || c == '\u2029'

/-- Whether the character may stand in the name of an anchor, a tag handle or a directive. -/
def isNameChar (c : Char) : Bool := c.isAlphanum || c == '_' || c == '-'

/-- The mark that may start a line. -/
def byteOrderMark : Char := '\ufeff'

/-- Whether the character may stand in a stream. -/
def isAllowed (c : Char) : Bool :=
  c == '\t' || c == '\n' || c == '\r' || c == '\x85' || (' ' ≤ c && c ≤ '~') ||
    ('\xa0' ≤ c && c != '\ufffe' && c != '\uffff')

namespace Glyph

/-- Gives the characters of a stream their places. -/
def place (offset line column : Nat) : List Char → List Glyph
  | [] => []
  | '\r' :: '\n' :: rest => ⟨'\n', offset, line, column⟩ :: place (offset + 2) (line + 1) 0 rest
  | c :: rest =>
    let after := offset + c.utf8Size
    if c = '\n' ∨ c = '\r' ∨ c = '\x85' then
      ⟨'\n', offset, line, column⟩ :: place after (line + 1) 0 rest
    else if isBreak c then ⟨c, offset, line, column⟩ :: place after (line + 1) 0 rest
    else ⟨c, offset, line, column⟩ :: place after line (column + 1) rest

/-- The characters of a stream, if all are allowed. -/
def ofText? (text : String) : Option (List Glyph) :=
  if text.toList.all isAllowed then some (place 0 0 0 text.toList) else none

/-- Whether the character is a space or a tab. -/
def isBlank (glyph : Glyph) : Bool := Yaml.isBlank glyph.char

/-- Whether the character ends a line. -/
def isBreak (glyph : Glyph) : Bool := Yaml.isBreak glyph.char

end Glyph

/-- Whether a word ends here: at a blank, a line break, or the end of the stream. -/
def atGap : List Glyph → Bool
  | [] => true
  | glyph :: _ => glyph.isBlank || glyph.isBreak

/-- Whether a line ends here. -/
def atLineEnd : List Glyph → Bool
  | [] => true
  | glyph :: _ => glyph.isBreak

/-- Whether the next character is the given one. -/
def startsWith (c : Char) : List Glyph → Bool
  | [] => false
  | glyph :: _ => glyph.char == c

/-- Whether a document mark stands here: three of the given character in a line of their own. -/
def atMark (c : Char) : List Glyph → Bool
  | first :: second :: third :: rest =>
    first.column == 0 && first.char == c && second.char == c && third.char == c && atGap rest
  | _ => false

/-- Whether any document mark stands here. -/
def atAnyMark (glyphs : List Glyph) : Bool := atMark '-' glyphs || atMark '.' glyphs

/-- Passes over blanks and a comment up to the end of the line and over the line break. -/
def restOfLine? (glyphs : List Glyph) : Option (List Glyph) :=
  let rest := glyphs.dropWhile (·.isBlank)
  let rest := if startsWith '#' rest then rest.dropWhile (!·.isBreak) else rest
  if atLineEnd rest then some rest.tail else none

/-- The value of a hexadecimal digit. -/
def hexDigit? (c : Char) : Option Nat :=
  if '0' ≤ c ∧ c ≤ '9' then some (c.toNat - '0'.toNat)
  else if 'a' ≤ c ∧ c ≤ 'f' then some (c.toNat - 'a'.toNat + 10)
  else if 'A' ≤ c ∧ c ≤ 'F' then some (c.toNat - 'A'.toNat + 10)
  else none

end FieldMask.Yaml
