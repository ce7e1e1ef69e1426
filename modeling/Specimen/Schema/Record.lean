import Specimen.Schema.TypeRef

/-!
Record types and their fields.
-/
namespace Specimen

/-- A field: the key in the sample, the identifier made from it, its type, and whether it may be
missing. -/
structure Field where
  key : Text
  name : Text
  type : TypeRef
  optional : Bool
  deriving DecidableEq, Repr

/-- A record type. Its fingerprint identifies its structure. -/
structure RecordType where
  name : Text
  nameSpace : Text
  fields : List Field
  fingerprint : Text
  deriving DecidableEq, Repr

namespace RecordType

def fieldNames (record : RecordType) : List Text := record.fields.map (·.name)

def field? (record : RecordType) (name : Text) : Option Field :=
  record.fields.find? (·.name = name)

def addNew (names : List Text) (name : Text) : List Text :=
  if names.contains name then names else names ++ [name]

/-- The record types that the fields lead to, in field order, each once. -/
def dependencies (record : RecordType) : List Text :=
  (record.fields.filterMap (·.type.target?)).foldl addNew []

end RecordType

end Specimen
