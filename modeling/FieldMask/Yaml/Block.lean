import FieldMask.Yaml.Glyph

/-!
Block scalars: the indented lines below a header. A literal keeps its line breaks, a folded one joins
neighbouring lines with a space. The header may fix the indentation and says what happens to the line
breaks at the end: one is kept, none, or all.
-/

namespace FieldMask.Yaml.Block

/-- What happens to the line breaks at the end. -/
inductive Chomping where
  | strip
  | clip
  | keep
deriving DecidableEq, Inhabited, Repr

/-- The chomping that a character in the header stands for. -/
def chomping? (c : Char) : Option Chomping :=
  match c with
  | '-' => some .strip
  | '+' => some .keep
  | _ => none

/-- The marks of a header in either order, and what follows them. -/
def marks? : List Glyph → Option (Chomping × Option Nat × List Glyph)
  | [] => some (.clip, none, [])
  | first :: rest =>
    match chomping? first.char with
    | some chomping =>
      match rest with
      | second :: later =>
        if second.char.isDigit then
          if second.char = '0' then none else some (chomping, hexDigit? second.char, later)
        else some (chomping, none, rest)
      | [] => some (chomping, none, [])
    | none =>
      if first.char.isDigit then
        if first.char = '0' then none
        else match rest with
          | second :: later =>
            match chomping? second.char with
            | some chomping => some (chomping, hexDigit? first.char, later)
            | none => some (.clip, hexDigit? first.char, rest)
          | [] => some (.clip, hexDigit? first.char, [])
      else some (.clip, none, first :: rest)

/-- The widest run of spaces that starts a line, up to the first line that holds more than spaces; a tab
after such a run is refused. -/
def indentation? (widest : Nat) : List Glyph → Option Nat
  | [] => some widest
  | glyph :: rest =>
    if glyph.char = ' ' then indentation? (max widest (glyph.column + 1)) rest
    else if glyph.char = '\t' then none
    else if glyph.isBreak then indentation? widest rest
    else some widest

/-- The lines read so far. -/
structure Lines where
  /-- The text without the line breaks after it, last character first. -/
  text : List Char := []
  /-- The line break after the text. -/
  lineBreak : Option Char := none
  /-- The line breaks after that one, last first. -/
  blankLines : List Char := []
  /-- Whether the last line began with a blank. -/
  fromBlank : Bool := false
  /-- Whether the reader stands within a line. -/
  within : Bool := false

namespace Lines

/-- Starts a line with its first character. -/
def begin (lines : Lines) (folded : Bool) (c : Char) : Lines :=
  let joined := folded && lines.lineBreak == some '\n' && !lines.fromBlank && !isBlank c
  let text :=
    if joined then (if lines.blankLines.isEmpty then ' ' :: lines.text else lines.text)
    else lines.lineBreak.toList ++ lines.text
  { text := c :: (lines.blankLines ++ text), fromBlank := isBlank c, within := true }

/-- The whole text, with the line breaks at the end that are kept. -/
def finish (lines : Lines) (chomping : Chomping) : List Char :=
  let final := if chomping = .strip then [] else lines.lineBreak.toList
  let extra := if chomping = .keep then lines.blankLines.reverse else []
  lines.text.reverse ++ final ++ extra

end Lines

/-- Reads the lines that are indented to a column. -/
def lines? (folded : Bool) (indent : Nat) (lines : Lines) : List Glyph → Option (Lines × List Glyph)
  | [] => some (lines, [])
  | glyph :: rest =>
    if lines.within then
      if glyph.isBreak then
        lines? folded indent { lines with lineBreak := some glyph.char, within := false } rest
      else lines? folded indent { lines with text := glyph.char :: lines.text } rest
    else if glyph.char = ' ' ∧ glyph.column < indent then lines? folded indent lines rest
    else if glyph.char = '\t' ∧ glyph.column < indent then none
    else if glyph.isBreak then
      lines? folded indent { lines with blankLines := glyph.char :: lines.blankLines } rest
    else if glyph.column = indent then lines? folded indent (lines.begin folded glyph.char) rest
    else some (lines, glyph :: rest)

/-- Reads a block scalar after its first mark. Its lines are indented at least to the margin, which is one
more than the indentation around it. -/
def read? (folded : Bool) (margin : Nat) (glyphs : List Glyph) : Option (List Char × List Glyph) := do
  let (chomping, increment, rest) ← marks? glyphs
  let body ← restOfLine? rest
  let indent ← match increment with
    | some width => some (margin - 1 + width)
    | none => (indentation? 0 body).map fun widest => max widest (max margin 1)
  let (lines, rest) ← lines? folded indent {} body
  some (lines.finish chomping, rest)

end FieldMask.Yaml.Block
