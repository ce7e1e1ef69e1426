import Specimen.Inference.Infer
import Specimen.Proofs.Inference.Realization
import Specimen.Proofs.Schema.Canonical
import Specimen.Proofs.Schema.Growth

/-! The nested records that a naming pass meets, each with what decides its name, and the canonical
texts they are fingerprinted by. -/
namespace Specimen.Inference
open Fingerprint (Digest Signature IsTypeKey)
open Naming (Scope)

/-- A nested record as the naming pass meets it: the fields of its shape, the same fields once they are
named, the graph at that moment, and the name that the record gets. -/
structure Placement where
  shapes : List (Text × Shape × Bool)
  fields : List Field
  graph : TypeGraph
  name : Text
  deriving Repr

/-- The type that a shape is given where these records are met: that of an object is the name of one met
with its fields. -/
inductive Given (log : List Placement) : TypeRef → Shape → Prop where
  | null : Given log .any .null
  | any : Given log .any .any
  | scalar (kind : Scalar) : Given log (.scalar kind) (.scalar kind)
  | emptyArray : Given log (.array .any) (.array none)
  | array {type : TypeRef} {shape : Shape} (element : Given log type shape) :
    Given log (.array type) (.array (some shape))
  | object {placement : Placement} (met : placement ∈ log) :
    Given log (.object placement.name) (.object placement.shapes)

/-- A field that is given for a field of an object. -/
structure FieldGiven (log : List Placement) (field : Field) (shape : Text × Shape × Bool) : Prop where
  key : field.key = shape.1
  optional : field.optional = Shape.isOptional shape
  type : Given log field.type shape.2.1

theorem Given.mono {few many : List Placement} (h : few ⊆ many) {type : TypeRef} {shape : Shape}
    (hg : Given few type shape) : Given many type shape := by
  induction hg with
  | null => exact .null
  | any => exact .any
  | scalar kind => exact .scalar kind
  | emptyArray => exact .emptyArray
  | array _ ih => exact .array ih
  | object met => exact .object (h met)

/-- A given type has no null type inside. -/
theorem Given.typed {log : List Placement} {type : TypeRef} {shape : Shape} (given : Given log type shape) :
    type.innermost ≠ .null := by
  induction given with
  | array _ ih => exact ih
  | _ => nofun

private theorem sizeOf_field {shapes : List (Text × Shape × Bool)} {field : Text × Shape × Bool}
    (h : field ∈ shapes) : sizeOf field.2.1 < sizeOf (Shape.object shapes) := by
  have := List.sizeOf_lt_of_mem h
  obtain ⟨key, shape, missing⟩ := field
  simp only [Prod.mk.sizeOf_spec, Shape.object.sizeOf_spec] at this ⊢
  omega

/-- Induction over a given type: for an object, whatever is given for the shapes of its fields. -/
theorem Given.shapeRec {log : List Placement}
    {motive : (type : TypeRef) → (shape : Shape) → Given log type shape → Prop}
    (null : motive .any .null .null) (any : motive .any .any .any)
    (scalar : ∀ kind, motive (.scalar kind) (.scalar kind) (.scalar kind))
    (emptyArray : motive (.array .any) (.array none) .emptyArray)
    (array : ∀ {type shape} (element : Given log type shape), motive type shape element →
      motive (.array type) (.array (some shape)) (.array element))
    (object : ∀ {p} (met : p ∈ log), (∀ field ∈ p.shapes, ∀ {type} (given : Given log type field.2.1),
      motive type field.2.1 given) → motive (.object p.name) (.object p.shapes) (.object met))
    {type : TypeRef} {shape : Shape} (given : Given log type shape) : motive type shape given := by
  cases given with
  | null => exact null
  | any => exact any
  | scalar kind => exact scalar kind
  | emptyArray => exact emptyArray
  | array element =>
    exact array element (shapeRec null any scalar emptyArray array object element)
  | object met =>
    exact object met fun field hf _ given =>
      shapeRec null any scalar emptyArray array object given
termination_by sizeOf shape
decreasing_by
  · simp only [Shape.array.sizeOf_spec, Option.some.sizeOf_spec]
    omega
  · exact sizeOf_field ‹_›

/-- Whether each of the fields is given for one of the shapes. -/
def AllGiven (log : List Placement) (fields : List Field) (shapes : List (Text × Shape × Bool)) : Prop :=
  ∀ field ∈ fields, ∃ shape ∈ shapes, FieldGiven log field shape

theorem AllGiven.mono {few many : List Placement} (h : few ⊆ many) {fields : List Field}
    {shapes : List (Text × Shape × Bool)} (hg : AllGiven few fields shapes) :
    AllGiven many fields shapes := by
  intro field hf
  obtain ⟨shape, hs, given⟩ := hg field hf
  exact ⟨shape, hs, given.key, given.optional, given.type.mono h⟩

mutual

/-- The nested records met while a shape is named, in order. -/
def typePlacements (digest : Digest) (requested : Text) (builder : Builder) : Shape → List Placement
  | .array (some element) => typePlacements digest (Naming.singularize requested) builder element
  | .object shapes =>
    fieldPlacements digest .empty builder shapes ++
      match nameFields digest .empty builder shapes with
      | .error _ => []
      | .ok (fields, inner) =>
        match placeRecord digest requested fields inner with
        | .error _ => []
        | .ok (name, _) => [⟨shapes, fields, inner.graph, name⟩]
  | _ => []

/-- The nested records met while the fields of an object are named. -/
def fieldPlacements (digest : Digest) (scope : Scope) (builder : Builder) :
    List (Text × Shape × Bool) → List Placement
  | [] => []
  | (key, shape, _) :: rest =>
    typePlacements digest (scope.claimNormalized key).1 builder shape ++
      match nameType digest (scope.claimNormalized key).1 builder shape with
      | .error _ => []
      | .ok (_, inner) => fieldPlacements digest (scope.claimNormalized key).2 inner rest

end

/-- The builder that a naming pass begins with: the root's name is taken, and there are no records. -/
def start (nameSpace rootName : Text) (rootIsArray : Bool) : Builder :=
  let claimed := (Scope.empty.reserveAll Naming.reservedTypeNames).claimNormalized rootName
  ⟨.empty claimed.1 nameSpace rootIsArray, claimed.2⟩

/-- The nested records met while a sample is given its graph. -/
def nested (digest : Digest) (widen : Bool) (nameSpace rootName : Text) (sample : Json.Document) :
    List Placement :=
  let root := rootFields (Shape.ofDocument widen "$" sample).1
  fieldPlacements digest .empty (start nameSpace rootName root.2) root.1

/-- All records met while a sample is given its graph: the nested ones, then that of the root. -/
def built (digest : Digest) (widen : Bool) (nameSpace rootName : Text) (sample : Json.Document) :
    List Placement :=
  let root := rootFields (Shape.ofDocument widen "$" sample).1
  nested digest widen nameSpace rootName sample ++
    match nameFields digest .empty (start nameSpace rootName root.2) root.1 with
    | .error _ => []
    | .ok (fields, builder) => [⟨root.1, fields, builder.graph, builder.graph.rootName⟩]

section TypeText
variable {graph : TypeGraph}

/-- The type key of a type that the graph knows. -/
def typeText (graph : TypeGraph) (type : TypeRef) : Text :=
  match typeKey graph type with
  | .ok key => key
  | .error _ => []

private theorem typeKey_eq {type : TypeRef} (known : graph.Knows type) :
    typeKey graph type = .ok (typeText graph type) := by
  have hok : ∃ key, typeKey graph type = .ok key := by
    induction type with
    | null | any | scalar => exact ⟨_, rfl⟩
    | object name =>
      obtain ⟨record, hf⟩ := known name rfl
      rw [typeKey, TypeGraph.resolve, hf]
      exact ⟨_, rfl⟩
    | array element ih =>
      obtain ⟨key, hk⟩ := ih known
      rw [typeKey, hk]
      exact ⟨_, rfl⟩
  obtain ⟨key, hk⟩ := hok
  rw [typeText, hk]

private theorem typeText_object {name : Text} {record : RecordType} (h : graph.find? name = some record) :
    typeText graph (.object name) = 0x7B :: record.fingerprint ++ [0x7D] := by
  rw [typeText, typeKey, TypeGraph.resolve, h]
  rfl

private theorem typeText_array {element : TypeRef} (known : graph.Knows element) :
    typeText graph (.array element) = 0x5B :: typeText graph element ++ [0x5D] := by
  rw [typeText, typeKey, typeKey_eq known]
  rfl

/-- What a type contributes to a fingerprint stays when the graph grows. -/
private theorem typeText_grows {a b : TypeGraph} (h : a.Grows b) {type : TypeRef} (known : a.Knows type) :
    typeText b type = typeText a type := by
  induction type with
  | null | any | scalar => rfl
  | object name =>
    obtain ⟨record, hf⟩ := known name rfl
    rw [typeText_object hf, typeText_object (h.find? hf)]
  | array element ih =>
    have hk : a.Knows element := known
    rw [typeText_array hk, typeText_array (hk.grows h), ih hk]

theorem isTypeKey_typeText {digests : Text → Prop} {type : TypeRef}
    (prints : ∀ record ∈ graph.records, digests record.fingerprint) (known : graph.Knows type) :
    IsTypeKey digests (typeText graph type) := by
  induction type with
  | null => exact .null
  | any => exact .any
  | scalar kind => exact .scalar kind
  | object name =>
    obtain ⟨record, hf⟩ := known name rfl
    rw [typeText_object hf]
    exact .object (prints record (TypeGraph.mem_of_find? hf).1)
  | array element ih =>
    have hk : graph.Knows element := known
    rw [typeText_array hk]
    exact .array (ih hk)

/-- The first character of a type key. -/
private def firstOf : TypeRef → CodePoint
  | .null => 'n'
  | .any => 'a'
  | .scalar .boolean => 'b'
  | .scalar .integer => 'i'
  | .scalar .float => 'f'
  | .scalar .string => 's'
  | .object _ => 0x7B
  | .array _ => 0x5B

private theorem head?_typeText {type : TypeRef} (known : graph.Knows type) :
    (typeText graph type).head? = some (firstOf type) := by
  cases type with
  | null | any => rfl
  | scalar kind => cases kind <;> rfl
  | object name =>
    obtain ⟨record, hf⟩ := known name rfl
    rw [typeText_object hf]
    rfl
  | array element =>
    rw [typeText_array (TypeGraph.knows_array.mp known)]
    rfl

private theorem eq_of_firstOf_eq {left right : TypeRef} (h : firstOf left = firstOf right) :
    left = right ∨ (∃ a b, left = .object a ∧ right = .object b) ∨
      ∃ a b, left = .array a ∧ right = .array b := by
  rcases left with _ | _ | (_ | _ | _ | _) | a | a <;>
    rcases right with _ | _ | (_ | _ | _ | _) | b | b <;>
    first
    | exact .inl rfl
    | exact .inr (.inl ⟨a, b, rfl, rfl⟩)
    | exact .inr (.inr ⟨a, b, rfl, rfl⟩)
    | exact absurd h (by simp [firstOf])

/-- Types of a graph without a repeated fingerprint are told apart by their type keys. -/
theorem typeText_injective (distinct : (graph.records.map (·.fingerprint)).Nodup)
    {left right : TypeRef} (hl : graph.Knows left) (hr : graph.Knows right)
    (h : typeText graph left = typeText graph right) : left = right := by
  have hfirst := congrArg List.head? h
  rw [head?_typeText hl, head?_typeText hr, Option.some.injEq] at hfirst
  rcases eq_of_firstOf_eq hfirst with rfl | ⟨name, other, rfl, rfl⟩ | ⟨element, other, rfl, rfl⟩
  · rfl
  · obtain ⟨record, hf⟩ := hl name rfl
    obtain ⟨same, hs⟩ := hr other rfl
    rw [typeText_object hf, typeText_object hs] at h
    have hprint := List.append_cancel_right (List.cons.inj h).2
    obtain ⟨hfm, rfl⟩ := TypeGraph.mem_of_find? hf
    obtain ⟨hsm, rfl⟩ := TypeGraph.mem_of_find? hs
    have hsame := TypeGraph.findFingerprint?_of_mem distinct hsm
    rw [← hprint, TypeGraph.findFingerprint?_of_mem distinct hfm] at hsame
    rw [Option.some.inj hsame]
  · rw [TypeGraph.knows_array] at hl hr
    rw [typeText_array hl, typeText_array hr] at h
    rw [typeText_injective distinct hl hr (List.append_cancel_right (List.cons.inj h).2)]
termination_by sizeOf left

end TypeText

/-- What a record with these fields in this graph is fingerprinted by. -/
def signatureOf (graph : TypeGraph) (field : Field) : Signature :=
  ⟨field.key, field.name, typeText graph field.type, field.optional⟩

/-- The canonical text of fields in a graph. -/
def canonicalOf (graph : TypeGraph) (fields : List Field) : Text :=
  Fingerprint.canonical ((fields.map (signatureOf graph)).map Signature.entry)

namespace Placement

/-- What the record says about its fields. -/
def signatures (placement : Placement) : List Signature :=
  placement.fields.map (signatureOf placement.graph)

/-- The text that the record is fingerprinted by. -/
def canonical (placement : Placement) : Text := canonicalOf placement.graph placement.fields

/-- Whether the record's name leads to its fields in a graph. -/
def Stands (placement : Placement) (graph : TypeGraph) : Prop :=
  ∃ record, graph.find? placement.name = some record ∧
    ∀ field, field ∈ record.fields ↔ field ∈ placement.fields

end Placement

section Fields
variable {digest : Digest} {graph : TypeGraph} {fields : List Field}

theorem map_signatureOf_grows {a b : TypeGraph} (h : a.Grows b)
    (known : ∀ field ∈ fields, a.Knows field.type) :
    fields.map (signatureOf b) = fields.map (signatureOf a) := by
  apply List.map_congr_left
  intro field hf
  rw [signatureOf, signatureOf, typeText_grows h (known field hf)]

private theorem mapM_entryOf (known : ∀ field ∈ fields, graph.Knows field.type) :
    fields.mapM (entryOf graph) = .ok ((fields.map (signatureOf graph)).map Signature.entry) := by
  induction fields with
  | nil => rfl
  | cons field rest ih =>
    rw [List.mapM_cons, entryOf, typeKey_eq (known field List.mem_cons_self),
      ih fun other ho => known other (List.mem_cons_of_mem field ho)]
    rfl

/-- The fingerprint of fields that lead into the graph is the digest of their canonical text. -/
theorem fingerprintOf_eq (known : ∀ field ∈ fields, graph.Knows field.type) :
    fingerprintOf digest graph fields = orUnencodable (digest (canonicalOf graph fields)) := by
  rw [fingerprintOf, mapM_entryOf known]
  rfl

theorem fingerprintOf_ok {print : Text} (known : ∀ field ∈ fields, graph.Knows field.type)
    (h : digest (canonicalOf graph fields) = .ok print) :
    fingerprintOf digest graph fields = .ok print := by
  rw [fingerprintOf_eq known, h]
  rfl

end Fields

end Specimen.Inference
