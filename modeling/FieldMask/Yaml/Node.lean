import FieldMask.Fields
import FieldMask.Yaml.Token

/-!
From the tokens of a stream to its document. A stream holds at most one document, and a handle must be known
before its tags. An anchor must come before its aliases and gets a number: how many names there are before
it. A name that comes again gets a number anew, and the next new name then gets the same one. An alias
takes the number that its name has at that place, and stands for what the whole document declares last
under that number.
-/

namespace FieldMask.Yaml

/-- A scalar with its style and its resolved tag. -/
structure Scalar where
  style : Style := .plain
  tag : Option (List UInt8) := none
  text : String := ""
deriving DecidableEq, Inhabited, Repr

/-- A node of a document. -/
inductive Node where
  | scalar (content : Scalar)
  | sequence (items : List Node)
  | mapping (pairs : List (Node × Node))
  /-- What the anchor of the given number stands for. -/
  | alias (number : Nat)
deriving Inhabited, Repr

/-- A node that is not written out. -/
def Node.blank : Node := .scalar {}

/-- What anchors stand for by their numbers, the latest first: a scalar, or a node that is none. -/
abbrev Anchored := List (Nat × Option Scalar)

/-- A document. -/
structure Document where
  root : Node
  anchored : Anchored := []
deriving Inhabited, Repr

/-- The scalar that a node of a document is or stands for, if there is one. -/
def Document.scalar? (document : Document) : Node → Option Scalar
  | .scalar content => some content
  | .alias number => (document.anchored.lookup number).join
  | _ => none

/-- What is left to read, and what was declared before. -/
structure Pending where
  tokens : List Token
  /-- The numbers of the anchors. -/
  anchors : Fields Nat := []
  anchored : Anchored := []
  handles : Fields (List UInt8) := [("!", toOctets "!"), ("!!", toOctets "tag:yaml.org,2002:")]

/-- A reader of nodes. -/
abbrev Reader := StateT Pending Option

namespace Reader

/-- The next token. -/
def peek? : Reader (Option Token) := return (← get).tokens.head?

/-- Passes over the next token. -/
def skip : Reader Unit := modify fun pending => { pending with tokens := pending.tokens.tail }

/-- Whether the next token is one of the given ones; if so it is not read. -/
def facing (tokens : List Token) : Reader Bool := return (← peek?).any tokens.contains

/-- Reads the given token if it comes next. -/
def accept (token : Token) : Reader Bool := do
  if (← peek?) == some token then
    skip
    return true
  else return false

/-- Reads the given token, which must come next. -/
def expect (token : Token) : Reader Unit := do
  if !(← accept token) then failure

/-- Numbers an anchor, if there is one, and lets it stand for a node, whose scalar is given if it is one. -/
def declare (anchor : Option String) (content : Option Scalar) : Reader Unit := do
  if let some name := anchor then
    modify fun pending =>
      let number := pending.anchors.length
      { pending with
        anchors := Fields.insert pending.anchors name number
        anchored := (number, content) :: pending.anchored }

/-- A scalar, for which an anchor may stand. -/
def scalar (anchor : Option String) (content : Scalar) : Reader Node := do
  declare anchor (some content)
  return .scalar content

/-- The octets of a full tag. -/
def resolve (handle : String) (rest : List UInt8) : Reader (List UInt8) := do
  if handle.isEmpty then return rest
  match Fields.find? (← get).handles handle with
  | some octets => return octets ++ rest
  | none => failure

/-- The anchor in front of a node. -/
def anchor : Reader (Option String) := do
  match ← peek? with
  | some (.anchor name) =>
    skip
    return some name
  | _ => return none

/-- The tag in front of a node. -/
def tag : Reader (Option (List UInt8)) := do
  match ← peek? with
  | some (.tag handle rest) =>
    skip
    some <$> resolve handle rest
  | _ => return none

/-- The anchor and the tag in front of a node, in either order. -/
def properties : Reader (Option String × Option (List UInt8)) := do
  match ← anchor with
  | some name => return (some name, ← tag)
  | none =>
    let tag ← tag
    return (← anchor, tag)

/-- A node without content, which needs an anchor or a tag. -/
def missing (anchor : Option String) (tag : Option (List UInt8)) : Reader Node :=
  if anchor.isNone && tag.isNone then failure else scalar anchor { tag }

mutual

/-- Reads a node. A block collection stands only outside brackets; the items of a sequence that is the
value of a key need no indentation of their own. The fuel bounds the depth and the length of the node. -/
def node (inBlock asValue : Bool) : Nat → Reader Node
  | 0 => failure
  | fuel + 1 => do
    if let some (.alias name) ← peek? then
      skip
      return ← (Fields.find? (← get).anchors name).elim failure fun number => pure (.alias number)
    let (anchor, tag) ← properties
    match ← peek? with
    | some (.scalar style text) =>
      skip
      scalar anchor { style, tag, text }
    | some .item =>
      if asValue then
        declare anchor none
        .sequence <$> bareItems [] fuel
      else missing anchor tag
    | some .flowSequence =>
      skip
      declare anchor none
      .sequence <$> flowItems [] fuel
    | some .flowMapping =>
      skip
      declare anchor none
      .mapping <$> flowPairs [] fuel
    | some .blockSequence =>
      if inBlock then
        skip
        declare anchor none
        .sequence <$> blockItems [] fuel
      else missing anchor tag
    | some .blockMapping =>
      if inBlock then
        skip
        declare anchor none
        .mapping <$> blockPairs [] fuel
      else missing anchor tag
    | _ => missing anchor tag

/-- Reads the items of a block sequence. -/
def blockItems (items : List Node) : Nat → Reader (List Node)
  | 0 => failure
  | fuel + 1 => do
    if ← accept .blockEnd then return items.reverse
    expect .item
    let item ← if ← facing [.item, .blockEnd] then pure .blank else node true false fuel
    blockItems (item :: items) fuel

/-- Reads the items of a sequence without indentation of its own. -/
def bareItems (items : List Node) : Nat → Reader (List Node)
  | 0 => failure
  | fuel + 1 => do
    if !(← accept .item) then return items.reverse
    let item ← if ← facing [.item, .key, .value, .blockEnd] then pure .blank else node true false fuel
    bareItems (item :: items) fuel

/-- Reads the pairs of a block mapping. -/
def blockPairs (pairs : List (Node × Node)) : Nat → Reader (List (Node × Node))
  | 0 => failure
  | fuel + 1 => do
    if ← accept .blockEnd then return pairs.reverse
    expect .key
    let key ← if ← facing [.key, .value, .blockEnd] then pure .blank else node true true fuel
    let value ←
      if !(← accept .value) then pure .blank
      else if ← facing [.key, .value, .blockEnd] then pure .blank
      else node true true fuel
    blockPairs ((key, value) :: pairs) fuel

/-- Reads the items of a sequence in brackets; a pair among them is a mapping of its own. -/
def flowItems (items : List Node) : Nat → Reader (List Node)
  | 0 => failure
  | fuel + 1 => do
    if ← accept .flowSequenceEnd then return items.reverse
    if !items.isEmpty then expect .comma
    if ← accept .flowSequenceEnd then return items.reverse
    let item ← if ← accept .key then flowPair fuel else node false false fuel
    flowItems (item :: items) fuel

/-- Reads a pair among the items of a sequence in brackets. A key that is not written out takes the
token in its place with it. -/
def flowPair : Nat → Reader Node
  | 0 => failure
  | fuel + 1 => do
    let key ←
      if ← facing [.value, .comma, .flowSequenceEnd] then do
        skip
        pure .blank
      else node false false fuel
    let value ←
      if !(← accept .value) then pure .blank
      else if ← facing [.comma, .flowSequenceEnd] then pure .blank
      else node false false fuel
    return .mapping [(key, value)]

/-- Reads the pairs of a mapping in brackets; a node without a mark is a key without a value. -/
def flowPairs (pairs : List (Node × Node)) : Nat → Reader (List (Node × Node))
  | 0 => failure
  | fuel + 1 => do
    if ← accept .flowMappingEnd then return pairs.reverse
    if !pairs.isEmpty then expect .comma
    if ← accept .flowMappingEnd then return pairs.reverse
    if ← accept .key then
      let key ← if ← facing [.value, .comma, .flowMappingEnd] then pure .blank else node false false fuel
      let value ←
        if !(← accept .value) then pure .blank
        else if ← facing [.comma, .flowMappingEnd] then pure .blank
        else node false false fuel
      flowPairs ((key, value) :: pairs) fuel
    else
      let key ← node false false fuel
      flowPairs ((key, .blank) :: pairs) fuel

end

/-- Reads the directives of a document: at most one version, and each handle once. -/
def directives (versions : Nat) (declared : Fields (List UInt8)) :
    List Token → Option (Fields (List UInt8) × List Token)
  | .version major minor :: rest =>
    if versions = 0 ∧ major = 1 ∧ (minor = 1 ∨ minor = 2) then directives 1 declared rest else none
  | .handle name octets :: rest =>
    if Fields.contains declared name then none else directives versions ((name, octets) :: declared) rest
  | rest => some (declared, rest)

/-- Whether the token starts a document with its directives and marks. -/
def startsDocument : Token → Bool
  | .version _ _ | .handle _ _ | .documentStart => true
  | _ => false

/-- Reads the content of a document. -/
def content : Reader Node := do
  let pending ← get
  node true false (2 * pending.tokens.length + 2)

/-- Reads the content after a document mark, which may be missing. -/
def marked : Reader Node := do
  match ← peek? with
  | none | some .documentEnd => return .blank
  | some token => if startsDocument token then return .blank else content

/-- Reads the first document: with its directives and its mark, or without both. -/
def document : Reader Node := do
  if (← peek?).any startsDocument then
    let pending ← get
    match directives 0 [] pending.tokens with
    | some (declared, .documentStart :: rest) =>
      set { pending with tokens := rest, handles := declared ++ pending.handles }
      marked
    | _ => failure
  else content

end Reader

/-- The only document of a stream; a stream without tokens has none. -/
def Document.ofTokens? (tokens : List Token) : Option (Option Document) :=
  if tokens.isEmpty then some none
  else
    match Reader.document.run { tokens } with
    | some (root, pending) =>
      if pending.tokens.all (· == .documentEnd) then some (some ⟨root, pending.anchored⟩) else none
    | none => none

end FieldMask.Yaml
