import Specimen.Proofs.Inference.Sharing

/-! Documents that conform to the types of a graph; every sample conforms to the graph inferred from
it. -/
namespace Specimen

namespace TypeGraph
open Json (Document)

/-- Conformance of a document to a type. Integers are signed 64-bit numbers without point and exponent;
a floating-point position takes them only where numbers widen. An object names no other keys than its
record, and leaves out or sets to null only optional fields. -/
inductive Conforms (widen : Bool) (graph : TypeGraph) : TypeRef → Document → Prop where
  | any (value : Document) : Conforms widen graph .any value
  | boolean (value : Bool) : Conforms widen graph (.scalar .boolean) (.bool value)
  | string (value : Text) : Conforms widen graph (.scalar .string) (.string value)
  | integer {literal : Text} {value : Int} (plain : ∀ c ∈ literal, c ≠ '.' ∧ c ≠ 'e' ∧ c ≠ 'E')
    (read : Numeral.readInteger literal = .ok value) (low : -0x8000000000000000 ≤ value)
    (high : value ≤ 0x7FFFFFFFFFFFFFFF) :
    Conforms widen graph (.scalar .integer) (.number literal)
  | float {literal : Text} (integral : Json.isIntegral literal = true → widen = true) :
    Conforms widen graph (.scalar .float) (.number literal)
  | array {element : TypeRef} {items : List Document}
    (each : ∀ item ∈ items, item ≠ .null → Conforms widen graph element item) :
    Conforms widen graph (.array element) (.array items)
  | object {name : Text} {record : RecordType} {members : List (Text × Document)}
    (found : graph.find? name = some record)
    (known : ∀ key ∈ Json.Value.names members, key ∈ record.fields.map (·.key))
    (required : ∀ field ∈ record.fields, field.optional = false →
      Json.Value.get? members field.key ≠ none)
    (values : ∀ field ∈ record.fields, ∀ value, Json.Value.get? members field.key = some value →
      (field.optional = true → value ≠ .null) → Conforms widen graph field.type value) :
    Conforms widen graph (.object name) (.object members)

/-- Conformance of a sample to a graph: of its items to the root record where that stands for the items
of an array, of an object to the root record, and of any other sample to the field of a wrapper. -/
inductive Admits (widen : Bool) (graph : TypeGraph) : Document → Prop where
  | items {items : List Document} (isArray : graph.rootIsArray = true)
    (each : ∀ item ∈ items, item ≠ .null → graph.Conforms widen (.object graph.rootName) item) :
    Admits widen graph (.array items)
  | record {members : List (Text × Document)} (single : graph.rootIsArray = false)
    (conforms : graph.Conforms widen (.object graph.rootName) (.object members)) :
    Admits widen graph (.object members)
  | wrapped {sample : Document} {record : RecordType} {field : Field}
    (single : graph.rootIsArray = false) (other : ∀ members, sample ≠ .object members)
    (found : graph.find? graph.rootName = some record) (fields : record.fields = [field])
    (key : field.key = Inference.wrapperKey) (conforms : graph.Conforms widen field.type sample) :
    Admits widen graph sample

section Values
variable {widen : Bool} {graph : TypeGraph} {values : List Document}

private theorem integral?_spec {literal : Text} {value : Int}
    (h : Json.integral? literal = some value) :
    (∀ c ∈ literal, c ≠ '.' ∧ c ≠ 'e' ∧ c ≠ 'E') ∧ Numeral.readInteger literal = .ok value ∧
      -0x8000000000000000 ≤ value ∧ value ≤ 0x7FFFFFFFFFFFFFFF := by
  rw [Json.integral?] at h
  split at h
  · cases h
  · rename_i plain
    split at h
    · rename_i read hread
      split at h
      · rename_i range
        cases h
        obtain ⟨low, high⟩ := Bool.and_eq_true_iff.mp range
        refine ⟨fun c hc => ?_, hread, of_decide_eq_true low, of_decide_eq_true high⟩
        simpa [and_assoc] using List.any_eq_false.mp (Bool.eq_false_iff.mpr plain) c hc
      · cases h
    · cases h

private theorem conforms_number {kind : Scalar} {literal : Text}
    (h : (if Json.isIntegral literal then Scalar.integer else .float) = kind) :
    graph.Conforms widen (.scalar kind) (.number literal) := by
  subst h
  split
  · rename_i integral
    obtain ⟨value, hv⟩ := Option.isSome_iff_exists.mp integral
    obtain ⟨plain, read, low, high⟩ := integral?_spec hv
    exact .integer plain read low high
  · rename_i real
    exact .float fun integral => absurd integral real

private theorem conforms_scalar {kind : Scalar}
    (common : Shape.Common.of widen values = .all (.scalar kind)) {value : Document}
    (hv : value ∈ values) (hn : value ≠ .null) : graph.Conforms widen (.scalar kind) value := by
  have hkind := fun {found} => @Shape.Common.kind_of_all _ _ _ common _ hv found
  cases value with
  | null => exact absurd rfl hn
  | bool b =>
    rcases hkind rfl with hk | ⟨-, -, hk⟩
    · cases hk
      exact .boolean b
    · cases hk
  | string text =>
    rcases hkind rfl with hk | ⟨-, -, hk⟩
    · cases hk
      exact .string text
    · cases hk
  | number literal =>
    rcases hkind rfl with hk | ⟨hw, hk, -⟩
    · exact conforms_number (Shape.Kind.scalar.inj hk)
    · cases hk
      exact .float fun _ => hw
  | array items => rcases hkind rfl with hk | ⟨-, -, hk⟩ <;> cases hk
  | object members => rcases hkind rfl with hk | ⟨-, -, hk⟩ <;> cases hk

private theorem exists_items (common : Shape.Common.of widen values = .all .array) {value : Document}
    (hv : value ∈ values) (hn : value ≠ .null) : ∃ items, value = .array items := by
  cases value with
  | null => exact absurd rfl hn
  | array items => exact ⟨items, rfl⟩
  | _ => rcases Shape.Common.kind_of_all common hv rfl with hk | ⟨-, hk, -⟩ <;> cases hk

private theorem exists_members (common : Shape.Common.of widen values = .all .object)
    {value : Document} (hv : value ∈ values) (hn : value ≠ .null) :
    ∃ members, value = .object members := by
  cases value with
  | null => exact absurd rfl hn
  | object members => exact ⟨members, rfl⟩
  | _ => rcases Shape.Common.kind_of_all common hv rfl with hk | ⟨-, hk, -⟩ <;> cases hk

/-- What the values of a position say about the fields of its shape. -/
private theorem fields_of_settled {shapes : List (Text × Shape × Bool)}
    (h : (Shape.object shapes).settled = Shape.ofAll widen values) :
    Shape.Common.of widen values = .all .object ∧
      (∀ name, name ∈ shapes.map (·.1) ↔ name ∈ Shape.namesOf values) ∧
      ∀ shape ∈ shapes, shape.2.1.settled = Shape.ofAll widen (Shape.valuesAt shape.1 values) ∧
        Shape.isOptional shape = Shape.isMissing shape.1 values := by
  rw [Shape.settled] at h
  obtain ⟨common, hfields⟩ := Shape.of_ofAll_object h.symm
  rw [Shape.settledFields_eq_map] at hfields
  refine ⟨common, fun name => ?_, fun shape hs => ?_⟩
  · have hnames := congrArg (List.map (·.1)) hfields
    simp only [List.map_map, Function.comp_def, List.map_id'] at hnames
    rw [← hnames]
  · have hm := List.mem_map_of_mem (f := fun field =>
      (field.1, field.2.1.settled, field.2.2 || field.2.1.isNull)) hs
    rw [hfields] at hm
    obtain ⟨name, -, he⟩ := List.mem_map.mp hm
    obtain ⟨rfl, he⟩ := Prod.mk.inj he
    obtain ⟨hshape, hoptional⟩ := Prod.mk.inj he
    exact ⟨hshape.symm, hoptional.symm⟩

/-- The values of a position conform to a type that realizes their shape, nulls left out. -/
private theorem conforms_of_realizes {type : TypeRef} {shape : Shape} (h : graph.Realizes type shape)
    {values : List Document} (hs : shape.settled = Shape.ofAll widen values) :
    ∀ value ∈ values, value ≠ .null → graph.Conforms widen type value := by
  induction h generalizing values with
  | null | any => exact fun value _ _ => .any value
  | scalar kind =>
    exact fun value hv hn => conforms_scalar (Shape.of_ofAll_scalar hs.symm) hv hn
  | emptyArray =>
    intro value hv hn
    obtain ⟨items, rfl⟩ := exists_items (Shape.of_ofAll_array hs.symm).1 hv hn
    exact .array fun item _ _ => .any item
  | @array type shape _ ih =>
    rw [Shape.settled] at hs
    obtain ⟨common, helement⟩ := Shape.of_ofAll_array hs.symm
    have hitems : shape.settled = Shape.ofAll widen (Shape.itemsOf values) := by
      split at helement
      · cases helement
      · exact Option.some.inj helement
    intro value hv hn
    obtain ⟨items, rfl⟩ := exists_items common hv hn
    exact .array fun item hi => ih hitems item (List.mem_flatMap.mpr ⟨_, hv, hi⟩)
  | @object name record shapes found keys optional types ih =>
    obtain ⟨common, hnames, hshapes⟩ := fields_of_settled hs
    have matching : ∀ field ∈ record.fields, ∃ shape ∈ shapes, field.key = shape.1 := by
      intro field hf
      obtain ⟨shape, hs, hk⟩ := List.mem_map.mp ((keys field.key).mp (List.mem_map_of_mem hf))
      exact ⟨shape, hs, hk.symm⟩
    intro value hv hn
    obtain ⟨members, rfl⟩ := exists_members common hv hn
    have held : ∀ field ∈ record.fields, field.optional = false →
        ∃ value, Json.Value.get? members field.key = some value ∧ value ≠ .null := by
      intro field hf hfalse
      obtain ⟨shape, hs, key⟩ := matching field hf
      rw [optional field hf shape hs key, (hshapes shape hs).2, ← key] at hfalse
      exact Shape.exists_value hfalse hv
    refine .object found (fun key hk => ?_) (fun field hf hfalse => ?_)
      (fun field hf inner hg hpresent => ?_)
    · exact (keys key).mpr ((hnames key).mpr (Shape.mem_namesOf.mpr ⟨_, hv, hk⟩))
    · obtain ⟨value, hg, -⟩ := held field hf hfalse
      rw [hg]
      exact Option.some_ne_none value
    · obtain ⟨shape, hs, key⟩ := matching field hf
      refine ih field hf shape hs key (hshapes shape hs).1 inner ?_ ?_
      · exact List.mem_filterMap.mpr ⟨_, hv, key ▸ hg⟩
      · cases hfield : field.optional with
        | true => exact hpresent hfield
        | false =>
          obtain ⟨value, hg', hne⟩ := held field hf hfield
          rw [hg] at hg'
          exact Option.some.inj hg' ▸ hne

end Values

end TypeGraph

namespace Inference
open Fingerprint (Digest)

section Root
variable {digest : Digest} {nameSpace rootName : Text} {widen : Bool} {sample : Json.Document}
  {fields : List Field} {builder : Builder} {print : Text} {graph : TypeGraph}

/-- A sample without a record at its root conforms to the field of the wrapper. -/
private theorem admits_wrapped {shape : Shape}
    (run : GraphRun digest nameSpace rootName shape fields builder print graph)
    (stands : ∀ p ∈ fieldPlacements digest .empty (start nameSpace rootName (rootFields shape).2)
      (rootFields shape).1, p.Stands graph)
    (hs : shape.settled = Shape.ofAll widen [sample]) (hnull : sample = .null → shape = .null)
    (hobject : ∀ members, sample ≠ .object members)
    (hroot : rootFields shape = ([(wrapperKey, shape, false)], false)) : graph.Admits widen sample := by
  have hkeys := run.run.fits.keys
  rw [hroot, List.map_singleton, List.map_eq_singleton_iff] at hkeys
  obtain ⟨field, hfields, key⟩ := hkeys
  obtain ⟨own, ho, given⟩ := run.run.given field (by simp [hfields])
  rw [hroot, List.mem_singleton] at ho
  have htype := run.run.sound.realizes run.run.inner stands given.type
  rw [ho] at htype
  obtain ⟨record, hf, hrecord⟩ := run.found
  refine .wrapped (by rw [run.rootIsArray, hroot]) hobject hf (hrecord.trans hfields) key ?_
  by_cases hn : sample = .null
  · rw [hnull hn] at htype
    generalize field.type = type at htype ⊢
    cases htype
    exact .any sample
  · exact TypeGraph.conforms_of_realizes htype hs sample (List.mem_singleton_self sample) hn

/-- An array conforms to a graph of objects item by item, and else as a whole. -/
private theorem admits_array {items : List Json.Document} {element : Option Shape}
    (run : GraphRun digest nameSpace rootName (.array element) fields builder print graph)
    (stands : ∀ p ∈ fieldPlacements digest .empty
      (start nameSpace rootName (rootFields (.array element)).2) (rootFields (.array element)).1,
      p.Stands graph)
    (hs : (Shape.array element).settled = Shape.ofAll widen [.array items]) :
    graph.Admits widen (.array items) := by
  have realizes := run.realizes stands
  rcases element with _ | (_ | _ | kind | inner | shapes)
  case some.object =>
    refine .items run.rootIsArray fun item hi => ?_
    obtain ⟨-, helement⟩ := Shape.of_ofAll_array (Shape.settled_array _ ▸ hs).symm
    have hitems : (Shape.object shapes).settled = Shape.ofAll widen items := by
      split at helement
      · cases helement
      · simpa [Shape.itemsOf, Shape.itemsIn] using Option.some.inj helement
    exact TypeGraph.conforms_of_realizes realizes hitems item hi
  all_goals exact admits_wrapped run stands hs (by simp) (by simp) rfl

/-- A sample conforms to the graph of its shape, when the name of each record leads to its fields. -/
private theorem admits_root (h : Json.IsSample sample)
    (run : GraphRun digest nameSpace rootName (Shape.ofDocument widen "$" sample).1 fields builder print
      graph)
    (stands : ∀ p ∈ nested digest widen nameSpace rootName sample, p.Stands graph) :
    graph.Admits widen sample := by
  have hs := Shape.settled_ofDocument widen "$" sample h.distinct
  cases sample with
  | null => exact admits_wrapped run stands hs (fun _ => rfl) (by simp) rfl
  | bool => exact admits_wrapped run stands hs (by simp) (by simp) rfl
  | number => exact admits_wrapped run stands hs (by simp) (by simp) rfl
  | string => exact admits_wrapped run stands hs (by simp) (by simp) rfl
  | object members =>
    refine .record run.rootIsArray ?_
    exact TypeGraph.conforms_of_realizes (run.realizes stands) hs _ (List.mem_singleton_self _)
      (by simp)
  | array items => exact admits_array run stands hs

end Root

/-- Every sample gets a graph and conforms to it, where the digest tells the canonical texts of the
nested records apart and its values contain a letter. -/
theorem infer_admits {sample : Json.Document} (h : Json.IsSample sample) (widen : Bool)
    (nameSpace rootName : Text)
    (injective : Fingerprint.sha256.InjectiveOn (canonicalTexts widen nameSpace rootName sample))
    (lettered : Fingerprint.sha256.LetteredOn (canonicalTexts widen nameSpace rootName sample)) :
    ∃ result, infer widen nameSpace rootName sample = .ok result ∧
      result.graph.Admits widen sample := by
  obtain ⟨result, _, _, _, hresult, run, stands⟩ := infer_run h injective lettered
  exact ⟨result, hresult, admits_root h run stands⟩

/-- Items with a null among them, a field that is missing or null, and numbers that widen. -/
theorem infer_admits_items :
    let sample : Json.Document := .array
      [.object [("a;b", .object [("x", .number "1"), ("y", .null)])], .null,
        .object [("a;b", .object [("y", .string "s"), ("x", .number "1.5")]),
          ("c", .array [.object [], .null])]]
    Json.IsSample sample ∧
      Fingerprint.sha256.InjectiveOn (canonicalTexts true "" "Root" sample) ∧
      Fingerprint.sha256.LetteredOn (canonicalTexts true "" "Root" sample) ∧
      ∃ result, infer true "" "Root" sample = .ok result ∧ result.graph.Admits true sample := by
  intro sample
  have h : Json.IsSample sample := ⟨by decide, by decide, by decide⟩
  have hdigest : Fingerprint.sha256.InjectiveOn (canonicalTexts true "" "Root" sample) ∧
      Fingerprint.sha256.LetteredOn (canonicalTexts true "" "Root" sample) := by decide +kernel
  exact ⟨h, hdigest.1, hdigest.2, infer_admits h true "" "Root" hdigest.1 hdigest.2⟩

end Inference

end Specimen
