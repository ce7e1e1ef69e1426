import Specimen.Inference.Shape
import Specimen.Json.Parse
import Specimen.Naming.Scope
import Specimen.Schema.Fingerprint
import Specimen.Schema.Graph

/-!
Type graphs from samples. The sample's shape is found first; then its objects are named, the inner
ones before those around them, and an object with the structure of an earlier one takes its name.
-/
namespace Specimen.Inference

/-- The graph built so far and the type names in use. -/
structure Builder where
  graph : TypeGraph
  scope : Naming.Scope
  deriving Repr

/-- The field of the record that wraps a sample without a record at its root. -/
def wrapperKey : Text := "Value"

/-- The text of a type inside a fingerprint: a record type is represented by its own fingerprint. -/
def typeKey (graph : TypeGraph) : TypeRef → Except GraphFault Text
  | .null => .ok "null"
  | .any => .ok "any"
  | .scalar kind => .ok kind.name
  | .object name => do return 0x7B :: (← graph.resolve name).fingerprint ++ [0x7D]
  | .array element => do return 0x5B :: (← typeKey graph element) ++ [0x5D]

def orGraphFault {α : Type} (result : Except GraphFault α) : Except Failure α :=
  result.mapError fun fault => .refusal fault.refusal

def entryOf (graph : TypeGraph) (field : Field) : Except GraphFault Fingerprint.Entry := do
  return ⟨field.key ++ "=" ++ field.name, ← typeKey graph field.type, field.optional⟩

def fingerprintOf (digest : Fingerprint.Digest) (graph : TypeGraph) (fields : List Field) :
    Except Failure Text := do
  orUnencodable (Fingerprint.ofEntries digest (← orGraphFault (fields.mapM (entryOf graph))))

def addRecord (builder : Builder) (name fingerprint : Text) (fields : List Field) :
    Except Failure Builder := do
  let graph ← orGraphFault
    (builder.graph.add ⟨name, builder.graph.nameSpace, fields, fingerprint⟩)
  return { builder with graph }

/-- The name of a nested record: that of an earlier one with the same fingerprint, or a new one. -/
def placeRecord (digest : Fingerprint.Digest) (requested : Text) (fields : List Field)
    (builder : Builder) : Except Failure (Text × Builder) := do
  let fingerprint ← fingerprintOf digest builder.graph fields
  match builder.graph.findFingerprint? fingerprint with
  | some existing => return (existing.name, builder)
  | none =>
    let (name, scope) := builder.scope.claim (Naming.normalize requested)
    return (name, ← addRecord { builder with scope } name fingerprint fields)

mutual

/-- The type of a shape; `requested` is what a record in it would like to be called. -/
def nameType (digest : Fingerprint.Digest) (requested : Text) (builder : Builder) :
    Shape → Except Failure (TypeRef × Builder)
  | .null => .ok (.any, builder)
  | .any => .ok (.any, builder)
  | .scalar kind => .ok (.scalar kind, builder)
  | .array none => .ok (.array .any, builder)
  | .array (some element) => do
    let (type, builder) ← nameType digest (Naming.singularize requested) builder element
    return (.array type, builder)
  | .object shapes => do
    let (fields, builder) ← nameFields digest .empty builder shapes
    let (name, builder) ← placeRecord digest requested fields builder
    return (.object name, builder)

/-- The fields of an object. A field is optional when it may be missing or was only ever null. -/
def nameFields (digest : Fingerprint.Digest) (scope : Naming.Scope) (builder : Builder) :
    List (Text × Shape × Bool) → Except Failure (List Field × Builder)
  | [] => .ok ([], builder)
  | (key, shape, missing) :: rest => do
    let (name, scope) := scope.claimNormalized key
    let (type, builder) ← nameType digest name builder shape
    let (fields, builder) ← nameFields digest scope builder rest
    return (⟨key, name, type, missing || shape.isNull⟩ :: fields, builder)

end

/-- The fields of the root record, and whether the sample is an array of it. A sample without a record
at its root is wrapped. -/
def rootFields : Shape → List (Text × Shape × Bool) × Bool
  | .array (some (.object fields)) => (fields, true)
  | .object fields => (fields, false)
  | shape => ([(wrapperKey, shape, false)], false)

/-- A type graph and the conflicts met on the way to it. -/
structure Result where
  graph : TypeGraph
  conflicts : List Conflict
  deriving Repr

/-- The graph of a shape. The root record is added last and never takes an earlier one's name. -/
def graphOf (digest : Fingerprint.Digest) (nameSpace rootName : Text) (shape : Shape) :
    Except Failure TypeGraph := do
  let (shapes, isArray) := rootFields shape
  let (root, scope) := (Naming.Scope.empty.reserveAll Naming.reservedTypeNames).claimNormalized rootName
  let (fields, builder) ← nameFields digest .empty ⟨.empty root nameSpace isArray, scope⟩ shapes
  let fingerprint ← fingerprintOf digest builder.graph fields
  let builder ← addRecord builder root fingerprint fields
  orGraphFault builder.graph.validate
  return builder.graph

def inferWith (digest : Fingerprint.Digest) (widen : Bool) (nameSpace rootName : Text)
    (sample : Json.Document) : Except Failure Result := do
  if Json.documentNesting < sample.depth then throw (Json.wholeRefusal Json.tooDeepMessage)
  let (shape, conflicts) := Shape.ofDocument widen "$" sample
  return ⟨← graphOf digest nameSpace rootName shape, conflicts⟩

def infer (widen : Bool) (nameSpace rootName : Text) (sample : Json.Document) :
    Except Failure Result :=
  inferWith Fingerprint.sha256 widen nameSpace rootName sample

end Specimen.Inference
