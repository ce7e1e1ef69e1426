import Specimen.Text.Basic

/-!
References to the types of fields.
-/
namespace Specimen

inductive Scalar where
  | boolean
  | integer
  | float
  | string
  deriving DecidableEq, Repr

def Scalar.name : Scalar → Text
  | .boolean => "boolean"
  | .integer => "integer"
  | .float => "float"
  | .string => "string"

/-- The type of a field. An object names a record type of the same graph. -/
inductive TypeRef where
  | null
  | any
  | scalar (kind : Scalar)
  | object (name : Text)
  | array (element : TypeRef)
  deriving DecidableEq, Repr, Inhabited

namespace TypeRef

def isArray : TypeRef → Bool
  | .array _ => true
  | _ => false

def innermost : TypeRef → TypeRef
  | .array element => innermost element
  | ref => ref

def target? (ref : TypeRef) : Option Text :=
  match ref.innermost with
  | .object name => some name
  | _ => none

end TypeRef

end Specimen
