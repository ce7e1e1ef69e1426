import Specimen.Proofs.Inference.Objects
import Specimen.Schema.Graph
import Mathlib.Data.List.Nodup

/-! Types of a graph that realize shapes, the places inside them, and shapes that are alike up to the
order of fields. -/
namespace Specimen

/-- Whether a position of the shape is left untyped. -/
def Shape.isUntyped : Shape → Bool
  | .null | .any => true
  | _ => false

/-- Whether a field of an object may be missing or was only ever null. -/
def Shape.isOptional (field : Text × Shape × Bool) : Bool := field.2.2 || field.2.1.isNull

/-- Shapes of the same structure: untyped positions agree, and objects have the same keys, with fields
that are alike and equally optional, in any order. The keys of such objects, in their orders, satisfy a
condition. -/
inductive Shape.AlikeBy (agree : List Text → List Text → Prop) : Shape → Shape → Prop where
  | untyped {left right : Shape} (hl : left.isUntyped = true) (hr : right.isUntyped = true) :
    AlikeBy agree left right
  | scalar (kind : Scalar) : AlikeBy agree (.scalar kind) (.scalar kind)
  | array {left right : Option Shape} (element : AlikeBy agree (left.getD .any) (right.getD .any)) :
    AlikeBy agree (.array left) (.array right)
  | object {left right : List (Text × Shape × Bool)}
    (agreed : agree (left.map (·.1)) (right.map (·.1)))
    (keys : ∀ key, key ∈ left.map (·.1) ↔ key ∈ right.map (·.1))
    (optional : ∀ x ∈ left, ∀ y ∈ right, x.1 = y.1 → isOptional x = isOptional y)
    (types : ∀ x ∈ left, ∀ y ∈ right, x.1 = y.1 → AlikeBy agree x.2.1 y.2.1) :
    AlikeBy agree (.object left) (.object right)

/-- Shapes of the same structure, whatever the order of their fields. -/
abbrev Shape.Alike : Shape → Shape → Prop := AlikeBy fun _ _ => True

namespace TypeGraph

/-- The type has the structure of the shape: an object's name leads to a record with a field of that
structure for each of its keys, optional where the object's field is. -/
inductive Realizes (graph : TypeGraph) : TypeRef → Shape → Prop where
  | null : Realizes graph .any .null
  | any : Realizes graph .any .any
  | scalar (kind : Scalar) : Realizes graph (.scalar kind) (.scalar kind)
  | emptyArray : Realizes graph (.array .any) (.array none)
  | array {type : TypeRef} {shape : Shape} (element : Realizes graph type shape) :
    Realizes graph (.array type) (.array (some shape))
  | object {name : Text} {record : RecordType} {shapes : List (Text × Shape × Bool)}
    (found : graph.find? name = some record)
    (keys : ∀ key, key ∈ record.fields.map (·.key) ↔ key ∈ shapes.map (·.1))
    (optional : ∀ field ∈ record.fields, ∀ shape ∈ shapes, field.key = shape.1 →
      field.optional = Shape.isOptional shape)
    (types : ∀ field ∈ record.fields, ∀ shape ∈ shapes, field.key = shape.1 →
      Realizes graph field.type shape.2.1) :
    Realizes graph (.object name) (.object shapes)

/-- A field that realizes a field of an object. -/
structure FieldRealizes (graph : TypeGraph) (field : Field) (shape : Text × Shape × Bool) : Prop where
  key : field.key = shape.1
  optional : field.optional = Shape.isOptional shape
  type : graph.Realizes field.type shape.2.1

variable {graph : TypeGraph}

/-- Fields that realize those of an object make a record that realizes it, in whatever order. -/
theorem realizes_object {name : Text} {record : RecordType} {shapes : List (Text × Shape × Bool)}
    (found : graph.find? name = some record) {fields : List Field}
    (same : ∀ field, field ∈ record.fields ↔ field ∈ fields)
    (keys : fields.map (·.key) = shapes.map (·.1)) (distinct : (shapes.map (·.1)).Nodup)
    (each : ∀ field ∈ fields, ∃ shape ∈ shapes, graph.FieldRealizes field shape) :
    graph.Realizes (.object name) (.object shapes) := by
  have matching : ∀ field ∈ record.fields, ∀ shape ∈ shapes, field.key = shape.1 →
      graph.FieldRealizes field shape := by
    intro field hf shape hs key
    obtain ⟨own, ho, hr⟩ := each field ((same field).mp hf)
    rwa [← List.inj_on_of_nodup_map distinct ho hs (hr.key.symm.trans key)]
  refine .object found (fun key => ?_) (fun field hf shape hs key => ?_)
    (fun field hf shape hs key => ?_)
  · rw [← keys, List.mem_map, List.mem_map]
    exact exists_congr fun field => and_congr_left fun _ => same field
  · exact (matching field hf shape hs key).optional
  · exact (matching field hf shape hs key).type

/-- Shapes that one type realizes are alike. -/
theorem Realizes.alike {type : TypeRef} {left right : Shape} (hl : graph.Realizes type left)
    (hr : graph.Realizes type right) : Shape.Alike left right := by
  induction hl generalizing right with
  | null | any => cases hr <;> exact .untyped rfl rfl
  | scalar kind =>
    cases hr
    exact .scalar kind
  | emptyArray =>
    cases hr with
    | emptyArray => exact .array (.untyped rfl rfl)
    | array element => cases element <;> exact .array (.untyped rfl rfl)
  | array element ih =>
    cases hr with
    | emptyArray => exact .array (ih .any)
    | array other => exact .array (ih other)
  | @object name record left found keys optional types ih =>
    cases hr with
    | @object _ same right found' keys' optional' types' =>
      cases found.symm.trans found'
      have field : ∀ x ∈ left, ∀ y ∈ right, x.1 = y.1 →
          ∃ field ∈ record.fields, field.key = x.1 ∧ field.key = y.1 := by
        intro x hx y hy key
        obtain ⟨field, hf, hk⟩ := List.mem_map.mp ((keys x.1).mpr (List.mem_map_of_mem hx))
        exact ⟨field, hf, hk, hk.trans key⟩
      refine .object trivial (fun key => (keys key).symm.trans (keys' key)) ?_ ?_
      · intro x hx y hy key
        obtain ⟨f, hf, hl, hr⟩ := field x hx y hy key
        rw [← optional f hf x hx hl, optional' f hf y hy hr]
      · intro x hx y hy key
        obtain ⟨f, hf, hl, hr⟩ := field x hx y hy key
        exact ih f hf x hx hl (types' f hf y hy hr)

/-- Going down a type and a shape at once leads to the type of a place inside the shape. -/
inductive Reaches (graph : TypeGraph) : TypeRef → Shape → TypeRef → Shape → Prop where
  | here (type : TypeRef) (shape : Shape) : Reaches graph type shape type shape
  | element {type last : TypeRef} {shape place : Shape} (rest : Reaches graph type shape last place) :
    Reaches graph (.array type) (.array (some shape)) last place
  | field {name : Text} {record : RecordType} {shapes : List (Text × Shape × Bool)} {field : Field}
    {shape : Text × Shape × Bool} {last : TypeRef} {place : Shape}
    (found : graph.find? name = some record) (hf : field ∈ record.fields) (hs : shape ∈ shapes)
    (key : field.key = shape.1) (rest : Reaches graph field.type shape.2.1 last place) :
    Reaches graph (.object name) (.object shapes) last place

/-- What realizes a shape realizes every place inside it. -/
theorem Reaches.realizes {type last : TypeRef} {shape place : Shape}
    (h : graph.Reaches type shape last place) (hr : graph.Realizes type shape) :
    graph.Realizes last place := by
  induction h with
  | here => exact hr
  | element _ ih =>
    cases hr with
    | array element => exact ih element
  | field found hf hs key _ ih =>
    cases hr with
    | object found' keys optional types =>
      cases found.symm.trans found'
      exact ih (types _ hf _ hs key)

/-- Every object inside a realized shape has a type, which names a record. -/
theorem Realizes.reaches {type : TypeRef} {shape : Shape} (h : graph.Realizes type shape) :
    ∀ fields ∈ shape.objectsIn, ∃ name, graph.Reaches type shape (.object name) (.object fields) := by
  induction h with
  | null | any | scalar | emptyArray => simp [Shape.objectsIn]
  | array element ih => exact fun fields hf => (ih fields hf).imp fun _ => .element
  | @object name record shapes found keys optional types ih =>
    intro fields hf
    rw [Shape.objectsIn, List.mem_append, Shape.objectsInFields_eq_flatMap, List.mem_flatMap] at hf
    rcases hf with ⟨shape, hs, hf⟩ | hf
    · obtain ⟨field, hfield, key⟩ := List.mem_map.mp ((keys shape.1).mpr (List.mem_map_of_mem hs))
      exact (ih field hfield shape hs key fields hf).imp fun _ => .field found hfield hs key
    · rw [List.mem_singleton.mp hf]
      exact ⟨name, .here _ _⟩

end TypeGraph

end Specimen
