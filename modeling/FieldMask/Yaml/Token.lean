import FieldMask.Yaml.Glyph

/-!
The tokens of a YAML stream, and how those are read that stand before a node or a document: anchors and
aliases, tags, and directives. Indentation shows as the start and the end of block collections, and a key
of a mapping is announced before the tokens of its node.
-/

namespace FieldMask.Yaml

/-- The octets of a text, as tags hold them. -/
def toOctets (text : String) : List UInt8 := text.toUTF8.data.toList

/-- How a scalar is written. -/
inductive Style where
  | plain
  | singleQuoted
  | doubleQuoted
  | literal
  | folded
deriving DecidableEq, Inhabited, Repr

/-- A token of a YAML stream. -/
inductive Token where
  /-- The version that a directive asks for. -/
  | version (major minor : Nat)
  /-- The octets that a tag handle stands for, as a directive says. -/
  | handle (name : String) (octets : List UInt8)
  | documentStart
  | documentEnd
  | blockSequence
  | blockMapping
  | blockEnd
  | flowSequence
  | flowSequenceEnd
  | flowMapping
  | flowMappingEnd
  /-- The dash in front of an item. -/
  | item
  /-- The comma between brackets. -/
  | comma
  | key
  | value
  | alias (name : String)
  | anchor (name : String)
  | tag (handle : String) (rest : List UInt8)
  | scalar (style : Style) (text : String)
deriving DecidableEq, Inhabited, Repr

/-! ### Before a node or a document -/

namespace Property

/-- The characters up to the first that is not a name character, and the rest. -/
def name (glyphs : List Glyph) : String × List Glyph :=
  let (name, rest) := glyphs.span fun glyph => isNameChar glyph.char
  (String.ofList (name.map Glyph.char), rest)

/-- Reads the name of an anchor or an alias, which ends at a gap or at a mark that may follow a node. -/
def anchorName? (glyphs : List Glyph) : Option (String × List Glyph) :=
  let (name, rest) := name glyphs
  let ended := atGap rest || "?:,]\x7d%@\x60".toList.any fun c => startsWith c rest
  if name.isEmpty || !ended then none else some (name, rest)

/-- Whether the character may stand in a tag; a tag within angle brackets may also hold flow marks. -/
def isTagChar (verbatim : Bool) (c : Char) : Bool :=
  isNameChar c || ";/?:@&=+$.%!~*'()".toList.contains c || (verbatim && [',', '[', ']'].contains c)

/-- Reads a tag handle: an exclamation mark, alone or followed by a name and another one. In a tag the
second mark may be missing, and the name is then the start of the tag. -/
def handle? (closed : Bool) : List Glyph → Option (String × List Glyph)
  | [] => none
  | glyph :: rest =>
    if glyph.char ≠ '!' then none
    else
      let (name, rest) := name rest
      if startsWith '!' rest then some ("!" ++ name ++ "!", rest.tail)
      else if closed && !name.isEmpty then none
      else some ("!" ++ name, rest)

/-- How many octets come after the given one, which starts the encoding of a character. -/
def octetsAfter? (octet : Nat) : Option Nat :=
  if octet < 0x80 then some 0
  else if octet / 0x20 = 0x6 then some 1
  else if octet / 0x10 = 0xE then some 2
  else if octet / 0x8 = 0x1E then some 3
  else none

/-- Reads the octets of a tag, last first. A percent sign introduces one octet as two hexadecimal digits;
`left` octets of the same character have to follow. Which character they encode does not matter. -/
def tagOctets? (verbatim : Bool) (left : Nat) (octets : List UInt8) :
    List Glyph → Option (List UInt8 × List Glyph)
  | [] => if left = 0 then some (octets, []) else none
  | glyph :: rest =>
    if glyph.char = '%' then
      match rest with
      | high :: low :: later =>
        match hexDigit? high.char, hexDigit? low.char with
        | some high, some low =>
          let octet := 16 * high + low
          if left = 0 then
            match octetsAfter? octet with
            | some after => tagOctets? verbatim after (octet.toUInt8 :: octets) later
            | none => none
          else if octet / 0x40 = 0x2 then tagOctets? verbatim (left - 1) (octet.toUInt8 :: octets) later
          else none
        | _, _ => none
      | _ => none
    else if left ≠ 0 then none
    else if isTagChar verbatim glyph.char then
      tagOctets? verbatim 0 (glyph.char.toNat.toUInt8 :: octets) rest
    else some (octets, glyph :: rest)

/-- The octets before the first that is zero, where a tag ends. -/
def untilZero (octets : List UInt8) : List UInt8 := octets.takeWhile (· ≠ 0)

/-- Reads octets of a tag, at least one. They end before the first that is zero. -/
def tagText? (verbatim : Bool) (glyphs : List Glyph) : Option (List UInt8 × List Glyph) := do
  let (octets, rest) ← tagOctets? verbatim 0 [] glyphs
  if octets.isEmpty then none else some (untilZero octets.reverse, rest)

/-- Reads a tag: an exclamation mark and the full text between angle brackets, or a handle and the rest. A
handle that is not closed is part of the rest, and a mark alone is a tag of its own. -/
def tag? (inFlow : Bool) (glyphs : List Glyph) : Option (Token × List Glyph) := do
  let (token, rest) ←
    if startsWith '<' glyphs.tail then do
      let (octets, rest) ← tagText? true (glyphs.drop 2)
      if startsWith '>' rest then some (Token.tag "" octets, rest.tail) else none
    else do
      let (handle, rest) ← handle? false glyphs
      if handle.length > 1 && handle.toList.getLast? == some '!' then
        let (octets, rest) ← tagText? false rest
        some (Token.tag handle octets, rest)
      else
        let (octets, rest) ← tagOctets? false 0 (toOctets handle).tail.reverse rest
        let octets := untilZero octets.reverse
        some (if octets.isEmpty then Token.tag "" (toOctets "!") else Token.tag "!" octets, rest)
  if atGap rest || (inFlow && startsWith ',' rest) then some (token, rest) else none

/-- Reads a number of at most nine digits. -/
def number? (glyphs : List Glyph) : Option (Nat × List Glyph) :=
  let (digits, rest) := glyphs.span fun glyph => glyph.char.isDigit
  if digits.isEmpty || digits.length > 9 then none
  else some (digits.foldl (fun value glyph => 10 * value + (hexDigit? glyph.char).getD 0) 0, rest)

/-- Reads the parameters of a version directive. -/
def version? (glyphs : List Glyph) : Option (Token × List Glyph) := do
  let (major, rest) ← number? (glyphs.dropWhile (·.isBlank))
  if !startsWith '.' rest then none
  let (minor, rest) ← number? rest.tail
  some (.version major minor, rest)

/-- Reads the parameters of a handle directive. -/
def handleDirective? (glyphs : List Glyph) : Option (Token × List Glyph) := do
  let (handle, rest) ← handle? true (glyphs.dropWhile (·.isBlank))
  if !(startsWith ' ' rest || startsWith '\t' rest) then none
  let (octets, rest) ← tagText? true (rest.dropWhile (·.isBlank))
  if atGap rest then some (.handle handle octets, rest) else none

/-- Reads a directive after the percent sign, with the rest of its line. -/
def directive? (glyphs : List Glyph) : Option (Token × List Glyph) := do
  let (name, rest) := name glyphs
  if !atGap rest then none
  let (token, rest) ← match name with
    | "YAML" => version? rest
    | "TAG" => handleDirective? rest
    | _ => none
  let rest ← restOfLine? rest
  some (token, rest)

end Property
end FieldMask.Yaml
