import Specimen.Emission.Style
import Specimen.Json.Render
import Specimen.Naming.Scope
import Specimen.Schema.Graph
import Specimen.Source.Basic

/-!
Record types as keyword-only dataclasses: one class for each type, one attribute for each field, the
key of the sample as metadata, and none as the default of optional fields.
-/
namespace Specimen.Emission

/-- Names in use in a class body, which no attribute may take. -/
def reservedAttributes : List Text :=
  ["str", "int", "float", "bool", "typing", "dataclasses"].map Text.ofString

structure Attribute where
  name : Text
  type : TypeExpr
  key : Text
  optional : Bool
  deriving Repr

structure Dataclass where
  name : Text
  attributes : List Attribute
  deriving Repr

def typeExpr : TypeRef → TypeExpr
  | .null | .any => .name "typing.Any"
  | .scalar .boolean => .name "bool"
  | .scalar .integer => .name "int"
  | .scalar .float => .name "float"
  | .scalar .string => .name "str"
  | .object name => .name name
  | .array element => .subscript "typing.List" [typeExpr element]

def attributeOf (name : Text) (field : Field) : Attribute :=
  let type := typeExpr field.type
  ⟨name, if field.optional then .subscript "typing.Optional" [type] else type, field.key,
    field.optional⟩

def attributesFrom (scope : Naming.Scope) : List Field → List Attribute
  | [] => []
  | field :: rest =>
    let (name, scope) := scope.claim (Naming.snakeCase field.name)
    attributeOf name field :: attributesFrom scope rest

def dataclassOf (record : RecordType) : Dataclass :=
  ⟨record.name, attributesFrom (Naming.Scope.empty.reserveAll reservedAttributes) record.fields⟩

def Attribute.line (attr : Attribute) : Text :=
  indent ++ attr.name ++ ": " ++ attr.type.text ++ " = dataclasses.field(" ++
    (if attr.optional then ("default=None, " : Text) else []) ++ "metadata=\x7b" ++
    Json.stringLiteral jsonKey ++ ": " ++ Json.stringLiteral attr.key ++ "\x7d)"

/-- The lines of a class: two blank ones, its head, and its body. -/
def Dataclass.lines (declared : Dataclass) : List Text :=
  ([[], [], "@dataclasses.dataclass(kw_only=True)", "class " ++ declared.name ++ ":"] : List Text) ++
    (if declared.attributes.isEmpty then [indent ++ Text.ofString "pass"]
    else declared.attributes.map Attribute.line)

/-- The header: whose sample the types come from, their namespace if they have one, and whether the
sample is an array. -/
def headerLines (nameSpace rootName : Text) (rootIsArray : Bool) : List Text :=
  let quotes : Text := "\"\"\""
  let sampleLine : Text := "Types generated from the " ++ rootName ++ " JSON sample."
  let nameSpaceLine : Text := "Namespace: " ++ nameSpace
  let arrayLine : Text := "The sample's root is a JSON array of " ++ rootName ++ "."
  [quotes, sampleLine] ++ (if nameSpace.isEmpty then [] else [[], nameSpaceLine]) ++
    (if rootIsArray then [[], arrayLine] else []) ++
    [quotes, [], "import dataclasses", "import typing"]

def dataclassSource (records : List RecordType) (nameSpace rootName : Text) (rootIsArray : Bool) :
    Text :=
  unlines (headerLines nameSpace rootName rootIsArray ++
    records.flatMap fun record => (dataclassOf record).lines)

def Attribute.member (attr : Attribute) : Member :=
  .field attr.name attr.type
    (.specified [(.str jsonKey, .str attr.key)] attr.optional)

def Dataclass.source (declared : Dataclass) : ClassSource :=
  ⟨declared.name, true, [], declared.attributes.map Attribute.member⟩

def dataclassModule (name : Text) (records : List RecordType) : ModuleSource :=
  ⟨name, false, [], records.map fun record => (dataclassOf record).source, [], [], none⟩

end Specimen.Emission
