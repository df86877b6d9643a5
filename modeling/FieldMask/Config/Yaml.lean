import FieldMask.Mask.Reading
import FieldMask.Yaml.Node
import FieldMask.Yaml.Scan
import FieldMask.Yaml.Write

/-!
How masks are read from requests, and how that is set in YAML. A configuration names the header that
carries the mask and the policy for fields that the data lacks; an absent or empty header means no mask at
all. A document is a mapping whose keys `header` and `skip` are optional; other keys are ignored. The
header is the text of any scalar, while `skip` takes one of the spellings of a truth value, written
plainly or as a literal with the tag of truth values. An empty document gives the defaults.
-/

namespace FieldMask

/-- How masks are read from requests. -/
structure Config where
  /-- The header that carries the mask. -/
  header : String := "x-fields"
  /-- Whether fields that the data lacks are left out. -/
  skip : Bool := false
deriving DecidableEq, Inhabited, Repr

/-- Reads the mask in the value of a header. -/
def Config.parseMask (config : Config) : Option String → Except Malformed (Option Mask)
  | none => .ok none
  | some text => if text.isEmpty then .ok none else some <$> Mask.parse text config.skip

/-! ### Configurations in YAML -/

namespace Yaml

/-- The tag of truth values. -/
def boolTag : List UInt8 := toOctets "tag:yaml.org,2002:bool"

/-- The truth value that a scalar stands for. -/
def Scalar.bool? (scalar : Scalar) : Option Bool :=
  if scalar.style = .plain ∨ (scalar.style = .literal ∧ scalar.tag = some boolTag) then
    Yaml.bool? scalar.text
  else none

end Yaml

/-- The settings of a document, each given at most once. -/
structure Settings where
  header : Option String := none
  skip : Option Bool := none
deriving DecidableEq, Inhabited, Repr

namespace Settings

/-- Adds the setting of a key and its value in a document. -/
def add? (document : Yaml.Document) (settings : Settings) (key value : Yaml.Node) : Option Settings := do
  let name ← document.scalar? key
  match name.text with
  | "header" =>
    let scalar ← document.scalar? value
    if settings.header.isSome then none else some { settings with header := some scalar.text }
  | "skip" =>
    let scalar ← document.scalar? value
    let skip ← scalar.bool?
    if settings.skip.isSome then none else some { settings with skip := some skip }
  | _ => some settings

/-- The settings of a document. -/
def ofDocument? (document : Yaml.Document) : Option Settings :=
  match document.root with
  | .mapping pairs => pairs.foldlM (fun settings pair => add? document settings pair.1 pair.2) {}
  | .scalar scalar => if scalar.style = .plain ∧ scalar.text.isEmpty then some {} else none
  | _ => none

end Settings

namespace Config

/-- The configuration with the given settings, and the defaults for the others. -/
def ofSettings (settings : Settings) : Config :=
  let defaults : Config := {}
  { header := settings.header.getD defaults.header, skip := settings.skip.getD defaults.skip }

/-- Reads a configuration from YAML. -/
def ofYaml? (text : String) : Option Config := do
  let tokens ← Yaml.tokens? text
  match ← Yaml.Document.ofTokens? tokens with
  | none => some {}
  | some document => ofSettings <$> Settings.ofDocument? document

/-- Reads a configuration from the content of a file, if there is such a file. -/
def ofFile? (content : Option ByteArray) : Option Config := do
  let bytes ← content
  let text ← String.fromUTF8? bytes
  ofYaml? text

/-- Writes a configuration as YAML. -/
def toYaml (config : Config) : String :=
  String.ofList (Yaml.writePair "header" (Yaml.writeValue config.header) ++
    Yaml.writePair "skip" (if config.skip then "true".toList else "false".toList))

end Config
end FieldMask
