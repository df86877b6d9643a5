import FieldMask.Config.Yaml
import FieldMask.Schema.Dump
import FieldMask.Target

/-!
The mask of a request. It is read from the configured header before anything else is done; a request
without a mask leaves data, records and schemas as they are. Headers have values of bytes: their names are
compared without regard to case, and the first value of a name is the one that counts. Typed records reach
a mask or a schema through their JSON form; a record that has none is refused before anything is masked.
-/

namespace FieldMask

/-! ### Headers -/

/-- The headers of a request, in order. -/
abbrev Headers := List (String × ByteArray)

namespace Headers

/-- Whether the character may stand in the name of a header. -/
def isNameChar (c : Char) : Bool := c.isAlphanum || "!#$%&'*+-.^_\x60|~".toList.contains c

/-- Whether the text is the name of a header. -/
def isName (name : String) : Bool := !name.toList.isEmpty && name.toList.all isNameChar

/-- The first value under a name; a text that is no name has none. -/
def find? (headers : Headers) (name : String) : Option ByteArray :=
  if isName name then List.lookup name.toLower (headers.map fun header => (header.1.toLower, header.2))
  else none

end Headers

/-! ### Typed records -/

/-- The JSON form of a typed record, or the reason why it has none. -/
abbrev Record := Except String Json

/-- The JSON form of a record, if it has one. -/
def Record.toJson (record : Record) : Except Refusal Json := record.mapError .unserializable

/-- Filters a record, or each of a list of records. -/
def Mask.applyTo (mask : Mask) (record : Record) : Except Refusal Json := do
  let data ← record.toJson
  mask.apply data

/-- Dumps a record, or each of a list of records. -/
def Schema.dumpRecord (schema : Schema) (record : Record) : Except Refusal Json := do
  let data ← record.toJson
  schema.dumpAll data

/-- The target that a record makes. -/
def Target.ofRecord (record : Record) : Except Refusal Target := .json <$> record.toJson

/-! ### The mask of a request -/

/-- The mask that came with a request, if any. -/
structure RequestMask where
  mask : Option Mask
deriving DecidableEq, Inhabited

namespace RequestMask

/-- Reads the mask from the header that the configuration names. -/
def ofHeaders (headers : Headers) (config : Config) : Except Malformed RequestMask :=
  match headers.find? config.header with
  | none => .ok ⟨none⟩
  | some bytes =>
    match String.fromUTF8? bytes with
    | some text => RequestMask.mk <$> config.parseMask (some text)
    | none => .error .notUtf8

/-- Reads the mask of a request, by the default configuration unless the request has one. -/
def ofRequest (headers : Headers) (config : Option Config) : Except Malformed RequestMask :=
  ofHeaders headers (config.getD {})

/-- Filters data. -/
def apply (request : RequestMask) (data : Json) : Except Refusal Json :=
  match request.mask with
  | some mask => mask.apply data
  | none => .ok data

/-- Filters a typed record. -/
def applyTo (request : RequestMask) (record : Record) : Except Refusal Json :=
  match request.mask with
  | some mask => mask.applyTo record
  | none => record.toJson

/-- Narrows a schema. -/
def narrow (request : RequestMask) (schema : Schema) : Schema :=
  match request.mask with
  | some mask => mask.narrow schema
  | none => schema

/-- Dumps a record, or each record of an array, through the narrowed schema. -/
def dump (request : RequestMask) (schema : Schema) (data : Json) : Except Refusal Json :=
  (request.narrow schema).dumpAll data

end RequestMask
end FieldMask
