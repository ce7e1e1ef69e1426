import Specimen.Json.Value
import Specimen.Schema.TypeRef

/-!
Shapes: the unnamed structure observed at a position of a sample, and the merging of shapes observed
at the same position. Null is the least shape and an untyped position absorbs every other shape; any
other disagreement is recorded as a conflict.
-/
namespace Specimen

/-- The structure observed at a position. A field says whether it may be missing. -/
inductive Shape where
  | null
  | any
  | scalar (kind : Scalar)
  | array (element : Option Shape)
  | object (fields : List (Text × Shape × Bool))
  deriving Repr, Inhabited

/-- A position whose samples disagree. -/
structure Conflict where
  path : Text
  left : Text
  right : Text
  deriving DecidableEq, Repr

def Conflict.message (conflict : Conflict) : Text :=
  "conflicting samples (" ++ conflict.left ++ " vs " ++ conflict.right ++ "), typed as untyped"

def Conflict.summarize (conflicts : List Conflict) : Text :=
  Text.ofNat conflicts.length ++ " field(s) typed as untyped due to conflicting samples: " ++
    List.intercalate ", " (conflicts.map (·.path))

namespace Shape

def kindName : Shape → Text
  | .null => "null"
  | .any => "any"
  | .scalar kind => kind.name
  | .array _ => "array"
  | .object _ => "object"

def isNull : Shape → Bool
  | .null => true
  | _ => false

def itemPath (path : Text) : Text := path ++ "[]"

def memberPath (path key : Text) : Text := path ++ "." ++ key

def lookup (key : Text) : List (Text × Shape × Bool) → Option (Shape × Bool)
  | [] => none
  | (other, field) :: rest => if other = key then some field else lookup key rest

/-- The fields of the right object that the left one lacks, each optional. -/
def onlyRight (left right : List (Text × Shape × Bool)) : List (Text × Shape × Bool) :=
  (right.filter fun field => (lookup field.1 left).isNone).map fun (key, shape, _) => (key, shape, true)

/-- The shape of two scalar kinds at one position; integers widen where `widen` says so. -/
def mergeScalars (widen : Bool) (a b : Scalar) : Option Scalar :=
  if a = b then some a
  else if widen && (a = .integer && b = .float || a = .float && b = .integer) then some .float
  else none

def disagree (path : Text) (a b : Shape) : Shape × List Conflict :=
  (.any, [⟨path, a.kindName, b.kindName⟩])

mutual

/-- The shape of a position at which two shapes were observed, and the conflicts met. -/
def merge (widen : Bool) (path : Text) : Shape → Shape → Shape × List Conflict
  | .null, b => (b, [])
  | a, .null => (a, [])
  | .any, _ => (.any, [])
  | _, .any => (.any, [])
  | .scalar a, .scalar b =>
    match mergeScalars widen a b with
    | some kind => (.scalar kind, [])
    | none => disagree path (.scalar a) (.scalar b)
  | .array none, .array b => (.array b, [])
  | .array (some a), .array none => (.array (some a), [])
  | .array (some a), .array (some b) =>
    let (element, conflicts) := merge widen (itemPath path) a b
    (.array (some element), conflicts)
  | .object left, .object right =>
    let (fields, conflicts) := mergeFields widen path right left
    (.object (fields ++ onlyRight left right), conflicts)
  | a, b => disagree path a b

/-- The fields of the left object merged with those of the right one. A field that only one side has,
or that is null on exactly one side, is optional. -/
def mergeFields (widen : Bool) (path : Text) (right : List (Text × Shape × Bool)) :
    List (Text × Shape × Bool) → List (Text × Shape × Bool) × List Conflict
  | [] => ([], [])
  | (key, shape, optional) :: rest =>
    match lookup key right with
    | none =>
      let (fields, conflicts) := mergeFields widen path right rest
      ((key, shape, true) :: fields, conflicts)
    | some (other, otherOptional) =>
      let (merged, found) := merge widen (memberPath path key) shape other
      let sawNull := shape.isNull != other.isNull
      let (fields, conflicts) := mergeFields widen path right rest
      ((key, merged, optional || otherOptional || sawNull) :: fields, found ++ conflicts)

end

mutual

def ofDocument (widen : Bool) (path : Text) : Json.Document → Shape × List Conflict
  | .null => (.null, [])
  | .bool _ => (.scalar .boolean, [])
  | .number literal => (.scalar (if Json.isIntegral literal then .integer else .float), [])
  | .string _ => (.scalar .string, [])
  | .array items =>
    let (element, conflicts) := ofItems widen (itemPath path) none items
    (.array element, conflicts)
  | .object members =>
    let (fields, conflicts) := ofMembers widen path members
    (.object fields, conflicts)

/-- The shape of the items merged into what was observed before them. -/
def ofItems (widen : Bool) (path : Text) (seen : Option Shape) :
    List Json.Document → Option Shape × List Conflict
  | [] => (seen, [])
  | item :: rest =>
    let (shape, inside) := ofDocument widen path item
    let (merged, between) := match seen with
      | none => (shape, [])
      | some before => merge widen path before shape
    let (element, conflicts) := ofItems widen path (some merged) rest
    (element, inside ++ between ++ conflicts)

def ofMembers (widen : Bool) (path : Text) :
    List (Text × Json.Document) → List (Text × Shape × Bool) × List Conflict
  | [] => ([], [])
  | (key, value) :: rest =>
    let (shape, inside) := ofDocument widen (memberPath path key) value
    let (fields, conflicts) := ofMembers widen path rest
    ((key, shape, false) :: fields, inside ++ conflicts)

end

end Shape

end Specimen
