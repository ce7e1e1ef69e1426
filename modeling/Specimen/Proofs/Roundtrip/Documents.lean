import Specimen.Proofs.Inference.Conformance

/-! Documents that represent the types of a graph: every key of a record with a document of its type, one
item in an array of records and none in any other. They conform to the types that they represent. -/
namespace Specimen.TypeGraph
open Json (Document)

/-- Representation of a type by a document. A record is represented by all its keys in their order,
optional ones included; a type without values of its own by the absent value. -/
inductive Represents (graph : TypeGraph) : TypeRef → Document → Prop
  | null : Represents graph .null .null
  | any : Represents graph .any .null
  | boolean : Represents graph (.scalar .boolean) (.bool false)
  | integer : Represents graph (.scalar .integer) (.number "0")
  | float : Represents graph (.scalar .float) (.number "0.0")
  | string : Represents graph (.scalar .string) (.string [])
  | object {name : Text} {record : RecordType} {members : List (Text × Document)}
    (found : graph.find? name = some record)
    (keys : members.map (·.1) = record.fields.map (·.key))
    (values : ∀ pair ∈ record.fields.zip members, Represents graph pair.1.type pair.2.2) :
    Represents graph (.object name) (.object members)
  | item {name : Text} {item : Document} (each : Represents graph (.object name) item) :
    Represents graph (.array (.object name)) (.array [item])
  | empty {element : TypeRef} (other : ∀ name, element ≠ .object name) :
    Represents graph (.array element) (.array [])

/-- Records whose fields have distinct keys and types with values. -/
structure IsInhabited (graph : TypeGraph) : Prop where
  keys : ∀ record ∈ graph.records, (record.fields.map (·.key)).Nodup
  types : ∀ record ∈ graph.records, ∀ field ∈ record.fields, field.type ≠ .null

section Conformance
variable {graph : TypeGraph} {type : TypeRef} {document : Document}

private theorem mem_zip {fields : List Field} {members : List (Text × Document)}
    (keys : members.map (·.1) = fields.map (·.key)) (nodup : (fields.map (·.key)).Nodup) {field : Field}
    {value : Document} (hf : field ∈ fields) (hm : (field.key, value) ∈ members) :
    (field, (field.key, value)) ∈ fields.zip members := by
  induction fields generalizing members with
  | nil => cases hf
  | cons first rest ih =>
    obtain ⟨⟨key, other⟩, more, rfl, hkey, hrest⟩ := List.map_eq_cons_iff.mp keys
    obtain ⟨fresh, hnodup⟩ := List.nodup_cons.mp nodup
    rcases List.mem_cons.mp hf with rfl | hf
    · rcases List.mem_cons.mp hm with he | hm
      · rw [he]
        exact List.mem_cons_self
      · exact absurd (hrest ▸ List.mem_map.mpr ⟨_, hm, rfl⟩) fresh
    · rcases List.mem_cons.mp hm with he | hm
      · cases he
        exact absurd (hkey ▸ List.mem_map.mpr ⟨field, hf, rfl⟩) fresh
      · exact List.mem_cons_of_mem _ (ih hrest hnodup hf hm)

/-- A document conforms to a type that it represents. -/
theorem Represents.conforms (h : graph.Represents type document) (inhabited : graph.IsInhabited)
    (typed : type ≠ .null) (widen : Bool) : graph.Conforms widen type document := by
  induction h with
  | null => exact absurd rfl typed
  | any => exact .any .null
  | boolean => exact .boolean false
  | integer => exact @Conforms.integer _ _ _ 0 (by decide) (by decide) (by decide) (by decide)
  | float => exact .float fun integral => absurd integral (by decide)
  | string => exact .string []
  | @object name record members found keys values ih =>
    have hr := (mem_of_find? found).1
    have nodup := inhabited.keys record hr
    refine .object found (fun key hk => keys ▸ hk) (fun field hf _ absent => ?_)
      (fun field hf value hv _ => ?_)
    · rw [Json.Value.get?_eq_none_iff, Json.Value.names, keys] at absent
      exact absent (List.mem_map.mpr ⟨field, hf, rfl⟩)
    · rw [Json.Value.get?_eq_some_iff (by rw [Json.Value.names, keys]; exact nodup)] at hv
      exact ih _ (mem_zip keys nodup hf hv) (inhabited.types record hr field hf)
  | item _ ih =>
    refine .array fun item hi _ => ?_
    rw [List.mem_singleton.mp hi]
    exact ih (by simp)
  | empty => exact .array fun item hi => absurd hi List.not_mem_nil

end Conformance

end Specimen.TypeGraph
