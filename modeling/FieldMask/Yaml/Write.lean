import FieldMask.Yaml.Glyph
import FieldMask.Yaml.Resolve
import FieldMask.Yaml.Token

/-!
Writing a text as the value of a key. A text with line breaks is written as a literal, one that a reader
might take for something else between single quotes, and any other plainly; where the text does not allow
the style, single and then double quotes take its place.
-/

namespace FieldMask.Yaml

/-- Whether the character shows as itself in a stream. -/
def isPrintable (c : Char) : Bool :=
  c == '\n' || (' ' ≤ c && c ≤ '~') ||
    ('\xa0' ≤ c && c != byteOrderMark && c != '\ufffe' && c != '\uffff')

/-- Whether a word ends before the given text. -/
def isGap : List Char → Bool
  | [] => true
  | c :: _ => isBlank c || isBreak c

/-- Whether a mark stands in the text that would end a plain scalar: a colon before a gap, or a number
sign after one. -/
def hasMarkWithin : List Char → Bool
  | c :: d :: rest =>
    (d == ':' && isGap rest) || (d == '#' && isGap [c]) || hasMarkWithin (d :: rest)
  | _ => false

/-- Whether the text starts like something other than a plain scalar. -/
def startsWithMark : List Char → Bool
  | [] => false
  | c :: rest =>
    "#,[]\x7b\x7d&*!|>'\"%@\x60".toList.contains c || ("?:-".toList.contains c && isGap rest) ||
      ['-', '-', '-'].isPrefixOf (c :: rest) || ['.', '.', '.'].isPrefixOf (c :: rest)

/-- Whether a character of the first kind comes right before one of the second. -/
def hasPair (first second : Char → Bool) : List Char → Bool
  | c :: d :: rest => (first c && second d) || hasPair first second (d :: rest)
  | _ => false

/-- Whether the text starts or ends with a space or a line break. -/
def hasOuterGap (text : List Char) : Bool :=
  let isGapChar (c : Char) := c == ' ' || isBreak c
  text.head?.any isGapChar || text.getLast?.any isGapChar

/-- Whether a single-quoted scalar can hold the text. -/
def allowsSingle (text : List Char) : Bool :=
  text.all isPrintable && !hasPair isBreak (· == ' ') text && !hasPair (· == ' ') isBreak text

/-- Whether a plain scalar can hold the text. -/
def allowsPlain (text : List Char) : Bool :=
  allowsSingle text && !text.any isBreak && !hasOuterGap text && !startsWithMark text && !hasMarkWithin text

/-- Whether a block scalar can hold the text. -/
def allowsBlock (text : List Char) : Bool :=
  !text.isEmpty && text.all isPrintable && text.getLast? != some ' ' && !hasPair (· == ' ') isBreak text

/-- The style in which a text is written. -/
def styleOf (text : String) : Style :=
  let chars := text.toList
  if chars.contains '\n' then (if allowsBlock chars then .literal else .doubleQuoted)
  else if !isAmbiguous text && allowsPlain chars then .plain
  else if allowsSingle chars then .singleQuoted
  else .doubleQuoted

/-- The indentation of the lines of a value. -/
def indentation : List Char := [' ', ' ']

/-- The lines of a text, each indented if it is not blank. The flag tells whether a line starts here. -/
def indentLines (atStart : Bool) : List Char → List Char
  | [] => []
  | c :: rest =>
    if isBreak c then c :: indentLines true rest
    else if atStart then indentation ++ c :: indentLines false rest
    else c :: indentLines false rest

/-- The header and the lines of a literal. The header tells the indentation if the text starts with a gap,
and what happens to the line breaks at the end. -/
def writeLiteral (text : List Char) : List Char :=
  let hint := if text.head?.any fun c => c == ' ' || isBreak c then ['2'] else []
  let chomping := match text.reverse with
    | last :: before =>
      if !isBreak last then ['-']
      else match before with
        | previous :: _ => if isBreak previous then ['+'] else []
        | [] => ['+']
    | [] => ['-']
  '|' :: (hint ++ chomping ++ '\n' :: indentLines true text)

/-- A text between single quotes. -/
def writeSingle (text : List Char) : List Char :=
  let doubled := text.flatMap fun c => if c = '\'' then ['\'', '\''] else [c]
  let closing := if text.getLast?.any isBreak then indentation else []
  '\'' :: (indentLines false doubled ++ closing ++ ['\''])

/-- The number of a character with so many hexadecimal digits in upper case. -/
def hexadecimal : Nat → Nat → List Char
  | 0, _ => []
  | width + 1, value => hexadecimal width (value / 16) ++ [(Nat.digitChar (value % 16)).toUpper]

/-- A character between double quotes. -/
def escape (c : Char) : List Char :=
  match c with
  | '"' => ['\\', '"']
  | '\\' => ['\\', '\\']
  | '\x00' => ['\\', '0']
  | '\x07' => ['\\', 'a']
  | '\x08' => ['\\', 'b']
  | '\t' => ['\\', 't']
  | '\n' => ['\\', 'n']
  | '\x0b' => ['\\', 'v']
  | '\x0c' => ['\\', 'f']
  | '\r' => ['\\', 'r']
  | '\x1b' => ['\\', 'e']
  | '\x85' => ['\\', 'N']
  | '\u2028' => ['\\', 'L']
  | '\u2029' => ['\\', 'P']
  | c =>
    if isPrintable c then [c]
    else if c.toNat < 0x100 then '\\' :: 'x' :: hexadecimal 2 c.toNat
    else if c.toNat < 0x10000 then '\\' :: 'u' :: hexadecimal 4 c.toNat
    else '\\' :: 'U' :: hexadecimal 8 c.toNat

/-- A text between double quotes. -/
def writeDouble (text : List Char) : List Char := '"' :: (text.flatMap escape ++ ['"'])

/-- A text as the value of a key, in the style that fits it. -/
def writeValue (text : String) : List Char :=
  match styleOf text with
  | .plain => text.toList
  | .singleQuoted => writeSingle text.toList
  | .literal | .folded => writeLiteral text.toList
  | .doubleQuoted => writeDouble text.toList

/-- A key and its value on lines of their own. -/
def writePair (key : String) (value : List Char) : List Char :=
  let line := key.toList ++ ':' :: ' ' :: value
  if line.getLast?.any isBreak then line else line ++ ['\n']

end FieldMask.Yaml
