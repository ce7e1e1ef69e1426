import Specimen.Data.Basic
import Specimen.Failure

/-!
Documents made from plain data, and plain data read from documents.
-/
namespace Specimen

namespace Json.Number

def toData : Number → Data
  | .int value => .int value
  | .float value => .float value

end Json.Number

namespace Data

def integerText (value : Int) : Except Failure Text :=
  if IsPrintable value then .ok (Text.ofInt value) else .error .unwritableInteger

def keyText (key : Data) : Except Failure Text :=
  if key.isPrintable then .ok key.text else .error .unwritableInteger

mutual

/-- The document made from plain data. Member names are the texts of the keys, so two keys may give
one name. -/
def toDocument : Data → Except Failure Json.Document
  | .none => .ok .null
  | .bool value => .ok (.bool value)
  | .int value => (integerText value).map .number
  | .float value => .ok (.number value.text)
  | .str value => .ok (.string value)
  | .list items => (toDocuments items).map .array
  | .tuple items => (toDocuments items).map .array
  | .dict entries => (toMembers entries).map .object
  | .document value => .ok value
  | .set _ => .error (.unsupportedValue "set")
  | .bytes => .error (.unsupportedValue "bytes")

def toDocuments : List Data → Except Failure (List Json.Document)
  | [] => .ok []
  | item :: rest => do
    let first ← toDocument item
    return first :: (← toDocuments rest)

def toMembers : List (Data × Data) → Except Failure (List (Text × Json.Document))
  | [] => .ok []
  | (key, value) :: rest => do
    let name ← keyText key
    let first ← toDocument value
    return (name, first) :: (← toMembers rest)

end

end Data

namespace Json.Value

variable {κ : Type}

mutual

/-- The plain data of a value, its names read by `name`. Of members with the same key the last value
stays, at the first place. -/
def toData (name : κ → Data) : Value κ → Except Failure Data
  | .null => .ok .none
  | .bool value => .ok (.bool value)
  | .number literal =>
    match Number.ofLiteral literal with
    | some found => .ok found.toData
    | none => .error (.notANumber literal)
  | .string value => .ok (.str value)
  | .array items => (toDataItems name items).map .list
  | .object members => (toDataEntries name members).map Data.ofEntries

def toDataItems (name : κ → Data) : List (Value κ) → Except Failure (List Data)
  | [] => .ok []
  | item :: rest => do
    let first ← toData name item
    return first :: (← toDataItems name rest)

/-- The entries of the members; a name that cannot be a key is a failure. -/
def toDataEntries (name : κ → Data) : List (κ × Value κ) → Except Failure (List (Data × Data))
  | [] => .ok []
  | (key, value) :: rest => do
    let first ← toData name value
    if let some typeName := (name key).unhashable? then throw (.unhashable typeName)
    return (name key, first) :: (← toDataEntries name rest)

end

end Json.Value

end Specimen
