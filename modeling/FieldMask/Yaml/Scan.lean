import FieldMask.Yaml.Block
import FieldMask.Yaml.FlowScalar
import FieldMask.Yaml.Token

/-!
From the characters of a stream to its tokens. Outside brackets, a node that starts further right than the
open collections opens one more, and one that starts further left closes some. A node on one line that a
colon follows turns out to be a key: its place is remembered, and the key is announced there afterwards.
-/

namespace FieldMask.Yaml

/-- A place where a key may have started. -/
structure KeyStart where
  /-- How many tokens came before. -/
  index : Nat
  /-- How many octets came before. -/
  offset : Nat
  line : Nat
  column : Nat
  /-- Whether a key has to start here. -/
  required : Bool
deriving DecidableEq, Inhabited, Repr

/-- What was read of a stream. -/
structure Scan where
  tokens : Array Token := #[]
  /-- The columns of the open block collections, innermost first. -/
  columns : List Nat := []
  /-- Where a key may have started, within the innermost brackets. -/
  keyStart : Option KeyStart := none
  /-- Where a key may have started, within each of the brackets around. -/
  outerKeys : List (Option KeyStart) := []
  /-- Whether a key may start at the next token. -/
  keyAllowed : Bool := true

namespace Scan

/-- Whether the reader stands between brackets. -/
def inFlow (scan : Scan) : Bool := !scan.outerKeys.isEmpty

/-- One more than the column of the innermost block collection. -/
def margin (scan : Scan) : Nat :=
  match scan.columns with
  | [] => 0
  | column :: _ => column + 1

/-- Adds a token. -/
def push (scan : Scan) (token : Token) : Scan := { scan with tokens := scan.tokens.push token }

/-- Adds a token before the one of the given index. -/
def pushAt (scan : Scan) (index : Nat) (token : Token) : Scan :=
  { scan with tokens := scan.tokens.extract 0 index ++ #[token] ++ scan.tokens.extract index scan.tokens.size }

/-- Sets whether a key may start at the next token. -/
def allowKey (scan : Scan) (allowed : Bool) : Scan := { scan with keyAllowed := allowed }

/-- Forgets the start of a key, which is refused if a key was required there. -/
def dropKey? (scan : Scan) : Option Scan :=
  if scan.keyStart.any KeyStart.required then none else some { scan with keyStart := none }

/-- Remembers that a key may start at the given place, if one is allowed there. -/
def markKey? (scan : Scan) (glyph : Glyph) : Option Scan :=
  if scan.keyAllowed then do
    let scan ← scan.dropKey?
    let required := !scan.inFlow && scan.columns.head? == some glyph.column
    some { scan with keyStart := some ⟨scan.tokens.size, glyph.offset, glyph.line, glyph.column, required⟩ }
  else some scan

/-- Opens a block collection that starts at a column, unless the innermost one reaches as far. -/
def openBlock (scan : Scan) (column index : Nat) (token : Token) : Scan :=
  if scan.inFlow || column < scan.margin then scan
  else { scan.pushAt index token with columns := column :: scan.columns }

/-- Closes the block collections that start at the given column or further right. -/
def closeBlocks (scan : Scan) (column : Nat) : Scan :=
  if scan.inFlow then scan
  else
    let (closed, left) := scan.columns.span (column ≤ ·)
    { scan with tokens := scan.tokens ++ closed.map (fun _ => Token.blockEnd), columns := left }

/-- Goes to the next token, over blanks, comments, line breaks and a byte order mark at the start of a line.
A tab may not indent a line where a key may start. Outside brackets a key may start on each new line. -/
def skipGap (inFlow : Bool) (keyAllowed inComment : Bool) : List Glyph → Bool × List Glyph
  | [] => (keyAllowed, [])
  | glyph :: rest =>
    if glyph.isBreak then skipGap inFlow (keyAllowed || !inFlow) false rest
    else if inComment || glyph.char = ' ' || (glyph.char = '\t' && (inFlow || !keyAllowed)) ||
        (glyph.char = byteOrderMark && glyph.column = 0) then
      skipGap inFlow keyAllowed inComment rest
    else if glyph.char = '#' then skipGap inFlow keyAllowed true rest
    else (keyAllowed, glyph :: rest)

/-- Reads a token that belongs to the whole stream. -/
def outer? (scan : Scan) (token : Token) (rest : List Glyph) : Option (Scan × List Glyph) := do
  let scan ← (scan.closeBlocks 0).dropKey?
  some ((scan.push token).allowKey false, rest)

/-- Reads an opening bracket. -/
def openFlow? (scan : Scan) (glyph : Glyph) (token : Token) (rest : List Glyph) :
    Option (Scan × List Glyph) := do
  let scan ← scan.markKey? glyph
  let scan := { scan with outerKeys := scan.keyStart :: scan.outerKeys, keyStart := none }
  some ((scan.push token).allowKey true, rest)

/-- Reads a closing bracket. -/
def closeFlow? (scan : Scan) (token : Token) (rest : List Glyph) : Option (Scan × List Glyph) := do
  let scan ← scan.dropKey?
  let scan := match scan.outerKeys with
    | [] => scan
    | key :: others => { scan with keyStart := key, outerKeys := others }
  some ((scan.push token).allowKey false, rest)

/-- Reads a dash or a question mark, which may open a collection outside brackets. -/
def introduce? (scan : Scan) (glyph : Glyph) (block token : Token) (keyAfter : Bool) (rest : List Glyph) :
    Option (Scan × List Glyph) := do
  if !scan.inFlow && !scan.keyAllowed then none
  let scan ← (scan.openBlock glyph.column scan.tokens.size block).dropKey?
  some ((scan.push token).allowKey keyAfter, rest)

/-- Reads a colon: the value of the key that started on the same line and at most 1024 octets before, or of
an empty key. -/
def value? (scan : Scan) (glyph : Glyph) (rest : List Glyph) : Option (Scan × List Glyph) :=
  let fresh := scan.keyStart.filter fun key => key.line == glyph.line && glyph.offset ≤ key.offset + 1024
  match fresh with
  | some key =>
    let scan := (scan.pushAt key.index .key).openBlock key.column key.index .blockMapping
    some (({ scan with keyStart := none }.push .value).allowKey false, rest)
  | none => do
    let scan ← scan.dropKey?
    if !scan.inFlow && !scan.keyAllowed then none
    let scan := scan.openBlock glyph.column scan.tokens.size .blockMapping
    some ((scan.push .value).allowKey !scan.inFlow, rest)

/-- Reads a part of a node on one line, before which a key may start. -/
def part? (scan : Scan) (glyph : Glyph) (read : Option (Token × List Glyph)) :
    Option (Scan × List Glyph) := do
  let scan ← scan.markKey? glyph
  let (token, rest) ← read
  some ((scan.push token).allowKey false, rest)

/-- Reads a block scalar, after which a key may start. -/
def block? (scan : Scan) (folded : Bool) (rest : List Glyph) : Option (Scan × List Glyph) := do
  let scan ← scan.dropKey?
  let (text, rest) ← Block.read? folded scan.margin rest
  some ((scan.push (.scalar (if folded then .folded else .literal) (String.ofList text))).allowKey true, rest)

/-- Reads a plain scalar, after which a key may start if it was followed by a line break. -/
def plain? (scan : Scan) (glyph : Glyph) (rest : List Glyph) : Option (Scan × List Glyph) := do
  let scan ← scan.markKey? glyph
  let result ← Plain.read? scan.inFlow scan.margin [] {} (glyph :: rest)
  some ((scan.push (.scalar .plain (String.ofList result.text))).allowKey result.brokeLine, result.rest)

/-- Whether a plain scalar may start with the character: no mark, or a mark that means nothing here. -/
def startsPlain (inFlow : Bool) (c : Char) (rest : List Glyph) : Bool :=
  if c == '-' then !(startsWith ' ' rest || startsWith '\t' rest)
  else if c == '?' || c == ':' then !inFlow && !atGap rest
  else !(isBlank c || isBreak c || ",[]\x7b\x7d#&*!|>'\"%@\x60".toList.contains c)

/-- A quoted scalar as a token. -/
def quoted? (style : Style) (read : Option (List Char × List Glyph)) : Option (Token × List Glyph) :=
  read.map fun (text, rest) => (.scalar style (String.ofList text), rest)

/-- Reads the token that starts with the given character. -/
def token? (scan : Scan) (glyph : Glyph) (rest : List Glyph) : Option (Scan × List Glyph) :=
  if glyph.column = 0 ∧ glyph.char = '%' then do
    let (token, rest) ← Property.directive? rest
    scan.outer? token rest
  else if atMark '-' (glyph :: rest) then scan.outer? .documentStart (rest.drop 2)
  else if atMark '.' (glyph :: rest) then scan.outer? .documentEnd (rest.drop 2)
  else match glyph.char with
    | '[' => scan.openFlow? glyph .flowSequence rest
    | '{' => scan.openFlow? glyph .flowMapping rest
    | ']' => scan.closeFlow? .flowSequenceEnd rest
    | '}' => scan.closeFlow? .flowMappingEnd rest
    | ',' => scan.dropKey?.map fun scan => ((scan.push .comma).allowKey true, rest)
    | '*' => scan.part? glyph ((Property.anchorName? rest).map fun (name, rest) => (.alias name, rest))
    | '&' => scan.part? glyph ((Property.anchorName? rest).map fun (name, rest) => (.anchor name, rest))
    | '!' => scan.part? glyph (Property.tag? scan.inFlow (glyph :: rest))
    | '\'' => scan.part? glyph (quoted? .singleQuoted (Quoted.single? [] {} rest))
    | '"' => scan.part? glyph (quoted? .doubleQuoted (Quoted.double? [] {} rest))
    | c =>
      if c = '-' ∧ atGap rest then scan.introduce? glyph .blockSequence .item true rest
      else if c = '?' ∧ (scan.inFlow ∨ atGap rest) then
        scan.introduce? glyph .blockMapping .key (!scan.inFlow) rest
      else if c = ':' ∧ (scan.inFlow ∨ atGap rest) then scan.value? glyph rest
      else if (c = '|' ∨ c = '>') ∧ ¬ scan.inFlow then scan.block? (c == '>') rest
      else if startsPlain scan.inFlow c rest then scan.plain? glyph rest
      else none

/-- Reads all tokens. Each takes at least one character, which bounds the recursion. -/
def run? (scan : Scan) (glyphs : List Glyph) : Option (List Token) :=
  let (keyAllowed, next) := skipGap scan.inFlow scan.keyAllowed false glyphs
  let scan := scan.allowKey keyAllowed
  match next with
  | [] => (scan.closeBlocks 0).dropKey?.map fun scan => scan.tokens.toList
  | glyph :: rest =>
    match (scan.closeBlocks (glyph.column + 1)).token? glyph rest with
    | some (scan, rest) => if rest.length < glyphs.length then run? scan rest else none
    | none => none
termination_by glyphs.length

end Scan

/-- The tokens of a text. -/
def tokens? (text : String) : Option (List Token) := Glyph.ofText? text >>= Scan.run? {}

end FieldMask.Yaml
