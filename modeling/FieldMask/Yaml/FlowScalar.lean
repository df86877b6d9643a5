import FieldMask.Yaml.Glyph

/-!
Scalars that are written within lines, plain or between quotes, and may run over several of them. Between
two words blanks within a line are kept. A single line break is folded into a space; of several, the first
is dropped. Blanks around line breaks are dropped. A separator that is not a line feed is kept.

A plain scalar has no quotes. It ends before a colon with a gap after it, before a comment, at a document
mark, and at a line that is not indented far enough; inside brackets also before a bracket or a comma, and
there is no indentation to keep. Between single quotes a quote is written twice; between double quotes a
backslash starts an escape. Neither may run over a document mark.
-/

namespace FieldMask.Yaml

/-! ### Between two words -/

/-- What came since the last word, each part last first. -/
structure Gap where
  /-- The blanks before the first line break. -/
  blanks : List Char := []
  /-- The line breaks. -/
  breaks : List Char := []
  /-- Whether the gap began with an escaped line break, which leaves nothing behind. -/
  escaped : Bool := false
deriving DecidableEq, Inhabited, Repr

namespace Gap

/-- Whether the gap runs over a line break. -/
def hasBreak (gap : Gap) : Bool := gap.escaped || !gap.breaks.isEmpty

/-- Whether there is no gap. -/
def isEmpty (gap : Gap) : Bool := gap.blanks.isEmpty && !gap.hasBreak

/-- Adds a blank or a line break. -/
def add (gap : Gap) (c : Char) : Gap :=
  if isBreak c then { gap with breaks := c :: gap.breaks }
  else if gap.hasBreak then gap
  else { gap with blanks := c :: gap.blanks }

/-- What the gap leaves in the text. -/
def fold (gap : Gap) : List Char :=
  match gap.escaped, gap.breaks.reverse with
  | true, breaks => breaks
  | false, [] => gap.blanks.reverse
  | false, first :: others =>
    if first ≠ '\n' then first :: others
    else if others.isEmpty then [' ']
    else others

end Gap

/-! ### Plain scalars -/

namespace Plain

/-- The characters that end a plain scalar inside brackets. -/
def isFlowMark (c : Char) : Bool := c == ',' || c == '[' || c == ']' || c == '{' || c == '}'

/-- A plain scalar that was read. -/
structure Result where
  text : List Char
  /-- Whether the scalar was followed by a line break. -/
  brokeLine : Bool
  rest : List Glyph

/-- Whether a scalar stops after a gap, before the given characters. -/
def stopsAfter (gap : Gap) (inFlow : Bool) (margin : Nat) (glyph : Glyph) (rest : List Glyph) : Bool :=
  !gap.isEmpty && ((gap.hasBreak && !inFlow && glyph.column < margin) || glyph.char == '#' ||
    atAnyMark (glyph :: rest))

/-- Whether a scalar stops before the given characters, in a word or not. -/
def stopsBefore (inFlow : Bool) (glyph : Glyph) (rest : List Glyph) : Bool :=
  (glyph.char == ':' && atGap rest) || (inFlow && isFlowMark glyph.char)

/-- Whether a colon stands before a mark that may not follow it inside brackets. -/
def badColon (inFlow : Bool) (glyph : Glyph) (rest : List Glyph) : Bool :=
  inFlow && glyph.char == ':' && (match rest with
    | next :: _ => isFlowMark next.char || next.char == '?'
    | [] => false)

/-- Reads on from a text, given last character first, and the gap after it. -/
def read? (inFlow : Bool) (margin : Nat) (text : List Char) (gap : Gap) : List Glyph → Option Result
  | [] => some ⟨text.reverse, gap.hasBreak, []⟩
  | glyph :: rest =>
    if glyph.isBlank || glyph.isBreak then
      if gap.hasBreak && glyph.char == '\t' && glyph.column < margin then none
      else read? inFlow margin text (gap.add glyph.char) rest
    else if stopsAfter gap inFlow margin glyph rest then some ⟨text.reverse, gap.hasBreak, glyph :: rest⟩
    else if badColon inFlow glyph rest then none
    else if stopsBefore inFlow glyph rest then some ⟨text.reverse, gap.hasBreak, glyph :: rest⟩
    else read? inFlow margin (glyph.char :: (gap.fold.reverse ++ text)) {} rest

end Plain

/-! ### Scalars between quotes -/

namespace Quoted

/-- Reads the rest of a single-quoted scalar; the text so far comes last character first. -/
def single? (text : List Char) (gap : Gap) : List Glyph → Option (List Char × List Glyph)
  | [] => none
  | glyph :: rest =>
    if glyph.isBlank || glyph.isBreak then single? text (gap.add glyph.char) rest
    else if atAnyMark (glyph :: rest) then none
    else
      let text := gap.fold.reverse ++ text
      if glyph.char ≠ '\'' then single? (glyph.char :: text) {} rest
      else match rest with
        | next :: later =>
          if next.char = '\'' then single? ('\'' :: text) {} later else some (text.reverse, rest)
        | [] => some (text.reverse, [])

/-- The character that an escape of one letter stands for. -/
def escape? (c : Char) : Option Char :=
  match c with
  | '0' => some '\x00'
  | 'a' => some '\x07'
  | 'b' => some '\x08'
  | 't' | '\t' => some '\t'
  | 'n' => some '\n'
  | 'v' => some '\x0b'
  | 'f' => some '\x0c'
  | 'r' => some '\r'
  | 'e' => some '\x1b'
  | ' ' => some ' '
  | '"' => some '"'
  | '/' => some '/'
  | '\\' => some '\\'
  | 'N' => some '\x85'
  | '_' => some '\xa0'
  | 'L' => some '\u2028'
  | 'P' => some '\u2029'
  | _ => none

/-- How many hexadecimal digits follow the letter of an escape. -/
def escapeWidth? (c : Char) : Option Nat :=
  match c with
  | 'x' => some 2
  | 'u' => some 4
  | 'U' => some 8
  | _ => none

/-- The character whose number is spelled by exactly so many hexadecimal digits. -/
def codePoint? (width : Nat) (glyphs : List Glyph) : Option Char := do
  let digits ← (glyphs.take width).mapM fun glyph => hexDigit? glyph.char
  let point := digits.foldl (fun value digit => 16 * value + digit) 0
  if digits.length = width ∧ point.isValidChar then some (Char.ofNat point) else none

/-- Reads the rest of a double-quoted scalar; the text so far comes last character first. -/
def double? (text : List Char) (gap : Gap) : List Glyph → Option (List Char × List Glyph)
  | [] => none
  | glyph :: rest =>
    if glyph.isBlank || glyph.isBreak then double? text (gap.add glyph.char) rest
    else if atAnyMark (glyph :: rest) then none
    else
      let text := gap.fold.reverse ++ text
      if glyph.char = '"' then some (text.reverse, rest)
      else if glyph.char ≠ '\\' then double? (glyph.char :: text) {} rest
      else match rest with
        | [] => none
        | letter :: later =>
          if letter.isBreak then double? text { escaped := true } later
          else match escape? letter.char, escapeWidth? letter.char with
            | some c, _ => double? (c :: text) {} later
            | none, some width =>
              match codePoint? width later with
              | some c => double? (c :: text) {} (later.drop width)
              | none => none
            | none, none => none
termination_by glyphs => glyphs.length
decreasing_by all_goals simp only [List.length_cons, List.length_drop]; omega

end Quoted
end FieldMask.Yaml
