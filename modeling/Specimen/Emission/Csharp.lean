import Specimen.Emission.Style
import Specimen.Naming.Scope
import Specimen.Schema.Graph

/-!
Record types as C# classes, whose properties carry the keys of the sample as attributes.
-/
namespace Specimen.Emission

def csharpTypeRef : TypeRef → Text
  | .null | .any => "object"
  | .scalar .boolean => "bool"
  | .scalar .integer => "long"
  | .scalar .float => "double"
  | .scalar .string => "string"
  | .object name => name
  | .array element => "List<" ++ csharpTypeRef element ++ ">"

def isValueType : TypeRef → Bool
  | .scalar .boolean | .scalar .integer | .scalar .float => true
  | _ => false

def csharpType (field : Field) : Text :=
  csharpTypeRef field.type ++ (if field.optional && isValueType field.type then ("?" : Text) else [])

/-- A key inside a C# string: quotes and backslashes get a backslash. -/
def csharpEscaped (key : Text) : Text :=
  key.flatMap fun c => if c = 0x22 || c = 0x5C then [0x5C, c] else [c]

def propertyLines (outer name : Text) (field : Field) : List Text :=
  [outer ++ indent ++ "[JsonProperty(\"" ++ csharpEscaped field.key ++ "\")]",
    outer ++ indent ++ "public " ++ csharpType field ++ " " ++ name ++ " \x7b get; set; \x7d"]

/-- The lines of the properties, each name claimed in turn, with blank lines between them. -/
def propertiesFrom (outer : Text) (scope : Naming.Scope) : List Field → List Text
  | [] => []
  | field :: rest =>
    let (name, scope) := scope.claim field.name
    propertyLines outer name field ++
      (if rest.isEmpty then [] else [] :: propertiesFrom outer scope rest)

def csharpClass (outer : Text) (record : RecordType) : List Text :=
  [outer ++ "public class " ++ record.name, outer ++ "\x7b"] ++
    propertiesFrom outer (Naming.Scope.empty.reserve record.name) record.fields ++ [outer ++ "\x7d"]

def csharpClasses (outer : Text) : List RecordType → List Text
  | [] => []
  | record :: rest =>
    csharpClass outer record ++ (if rest.isEmpty then [] else [] :: csharpClasses outer rest)

def csharpNamespace (nameSpace : Text) : Text :=
  List.intercalate "." ((nameSpace.splitOn 0x2E).map Naming.normalize)

def csharpNested (nameSpace : Text) (lines : List Text) : List Text :=
  ["namespace " ++ csharpNamespace nameSpace, ("\x7b" : Text)] ++ lines ++ [("\x7d" : Text)]

def csharpSource (records : List RecordType) (nameSpace : Text) : Text :=
  unlines ((["using System.Collections.Generic;", "using Newtonsoft.Json;", []] : List Text) ++
    if nameSpace.isEmpty then csharpClasses [] records
    else csharpNested nameSpace (csharpClasses indent records))

end Specimen.Emission
