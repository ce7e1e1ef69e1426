import Specimen.Proofs.Inference.Union
import Specimen.Proofs.Text.Gap

/-! The objects inside a shape, inner ones first, and the names of their fields. -/
namespace Specimen

/-- A sample as parsing gives it, with names that can be encoded. -/
structure Json.IsSample (sample : Json.Document) : Prop where
  distinct : sample.DistinctNames
  shallow : sample.depth ≤ Json.documentNesting
  encodable : sample.EveryObject fun names => ∀ name ∈ names, Text.Encodable name

theorem Json.isSample_of_parse {text : Text} {sample : Json.Document}
    (parsed : Json.parse text = .ok sample)
    (encodable : sample.EveryObject fun names => ∀ name ∈ names, Text.Encodable name) :
    Json.IsSample sample :=
  ⟨(Json.parse_ok parsed).1, (Json.parse_ok parsed).2, encodable⟩

namespace Shape
open Json (Document)

/-- The names of a record's fields: each once, and fit for encoding. -/
structure IsKeySet (names : List Text) : Prop where
  nodup : names.Nodup
  encodable : ∀ name ∈ names, Text.Encodable name

mutual

/-- The fields of the objects in a shape, those of an object behind those of the objects in it. -/
def objectsIn : Shape → List (List (Text × Shape × Bool))
  | .array (some element) => objectsIn element
  | .object fields => objectsInFields fields ++ [fields]
  | _ => []

def objectsInFields : List (Text × Shape × Bool) → List (List (Text × Shape × Bool))
  | [] => []
  | (_, shape, _) :: rest => objectsIn shape ++ objectsInFields rest

end

theorem objectsInFields_eq_flatMap (fields : List (Text × Shape × Bool)) :
    objectsInFields fields = fields.flatMap fun field => field.2.1.objectsIn := by
  induction fields with
  | nil => rfl
  | cons field rest ih => rw [objectsInFields, List.flatMap_cons, ih]

theorem mem_objectsIn_self (fields : List (Text × Shape × Bool)) :
    fields ∈ (Shape.object fields).objectsIn :=
  List.mem_append_right _ (List.mem_singleton_self _)

theorem mem_objectsIn_field {fields inner : List (Text × Shape × Bool)} {field : Text × Shape × Bool}
    (hf : field ∈ fields) (h : inner ∈ field.2.1.objectsIn) :
    inner ∈ (Shape.object fields).objectsIn := by
  refine List.mem_append_left _ ?_
  rw [objectsInFields_eq_flatMap]
  exact List.mem_flatMap.mpr ⟨field, hf, h⟩

mutual

private theorem objectsIn_settled : ∀ shape : Shape,
    shape.settled.objectsIn = shape.objectsIn.map settledFields
  | .null | .any | .scalar _ | .array none => by simp [settled, objectsIn]
  | .array (some element) => by simp [settled, objectsIn, objectsIn_settled element]
  | .object fields => by simp [settled, objectsIn, objectsInFields_settled fields]

private theorem objectsInFields_settled : ∀ fields : List (Text × Shape × Bool),
    objectsInFields (settledFields fields) = (objectsInFields fields).map settledFields
  | [] => rfl
  | (key, shape, optional) :: rest => by
    simp [settledFields, objectsInFields, objectsIn_settled shape, objectsInFields_settled rest]

end

section Values
variable {p : List Text → Prop} {values : List Document}

private theorem everyObject_itemsOf (h : ∀ value ∈ values, value.EveryObject p) :
    ∀ item ∈ itemsOf values, item.EveryObject p := by
  intro item hi
  obtain ⟨value, hv, hin⟩ := List.mem_flatMap.mp hi
  cases value with
  | array items => exact (Json.Value.everyObject_array p items).mp (h _ hv) item hin
  | _ => cases hin

private theorem everyObject_valuesAt {name : Text} (h : ∀ value ∈ values, value.EveryObject p) :
    ∀ inner ∈ valuesAt name values, inner.EveryObject p := by
  intro inner hi
  obtain ⟨value, hv, hin⟩ := List.mem_filterMap.mp hi
  obtain ⟨member, hm, rfl⟩ := Option.map_eq_some_iff.mp hin
  cases value with
  | object members =>
    exact ((Json.Value.everyObject_object p members).mp (h _ hv)).2 member
      (List.mem_of_find?_eq_some hm)
  | _ => cases hm

private theorem of_mem_namesOf {p : Text → Prop} {name : Text}
    (h : ∀ value ∈ values, value.EveryObject fun names => ∀ name ∈ names, p name)
    (hn : name ∈ namesOf values) : p name := by
  obtain ⟨value, hv, hin⟩ := mem_namesOf.mp hn
  cases value with
  | object members => exact ((Json.Value.everyObject_object _ members).mp (h _ hv)).1 name hin
  | _ => cases hin

/-- The objects in the shape of values have distinct names, taken from the values. -/
private theorem names_of_mem_objectsIn_ofAll {p : Text → Prop} (widen : Bool) (values : List Document)
    (h : ∀ value ∈ values, value.EveryObject fun names => ∀ name ∈ names, p name) :
    ∀ fields ∈ (ofAll widen values).objectsIn,
      (fields.map (·.1)).Nodup ∧ ∀ name ∈ fields.map (·.1), p name := by
  induction values using ofAll.induct widen with
  | case1 values hc => simp [ofAll_eq widen values, hc, objectsIn]
  | case2 values hc => simp [ofAll_eq widen values, hc, objectsIn]
  | case3 values kind hc => simp [ofAll_eq widen values, hc, objectsIn]
  | case4 values hc ih =>
    rw [ofAll_eq, hc]
    by_cases hi : itemsOf values = []
    · simp [hi, objectsIn]
    · simpa [hi, objectsIn] using ih hi (everyObject_itemsOf h)
  | case5 values hc ih =>
    rw [ofAll_eq, hc]
    intro fields hf
    simp only [objectsIn, objectsInFields_eq_flatMap, List.mem_append, List.mem_singleton,
      List.mem_flatMap, List.mem_map] at hf
    rcases hf with ⟨_, ⟨name, hn, rfl⟩, hin⟩ | rfl
    · exact ih name hn (everyObject_valuesAt h) fields hin
    · rw [List.map_map]
      have hmap : (namesOf values).map ((·.1) ∘ fun name => (name, ofAll widen (valuesAt name values),
          isMissing name values)) = namesOf values := List.map_id _
      rw [hmap]
      exact ⟨nodup_namesOf values, fun name hn => of_mem_namesOf h hn⟩

end Values

/-- The same of the shape of a document without repeated names. -/
theorem names_of_mem_objectsIn {p : Text → Prop} {document : Document} (distinct : document.DistinctNames)
    (h : document.EveryObject fun names => ∀ name ∈ names, p name) (widen : Bool) (path : Text) :
    ∀ fields ∈ (ofDocument widen path document).1.objectsIn,
      (fields.map (·.1)).Nodup ∧ ∀ name ∈ fields.map (·.1), p name := by
  intro fields hf
  have hall := names_of_mem_objectsIn_ofAll widen [document] (fun value hv => List.mem_singleton.mp hv ▸ h)
  rw [← settled_ofDocument widen path document distinct, objectsIn_settled] at hall
  have := hall _ (List.mem_map_of_mem hf)
  rwa [settledFields_eq_map, List.map_map] at this

theorem nodup_of_mem_objectsIn {document : Document} (distinct : document.DistinctNames) (widen : Bool)
    (path : Text) : ∀ fields ∈ (ofDocument widen path document).1.objectsIn, (fields.map (·.1)).Nodup :=
  have every : document.EveryObject fun names => ∀ name ∈ names, True :=
    Json.Value.EveryObject.imp (fun _ _ _ _ => trivial) document distinct
  fun fields hf => (names_of_mem_objectsIn distinct every widen path fields hf).1

theorem isKeySet_of_mem_objectsIn {sample : Document} (h : Json.IsSample sample) (widen : Bool)
    (path : Text) : ∀ fields ∈ (ofDocument widen path sample).1.objectsIn,
    IsKeySet (fields.map (·.1)) := fun fields hf =>
  let ⟨nodup, encodable⟩ := names_of_mem_objectsIn h.distinct h.encodable widen path fields hf
  ⟨nodup, encodable⟩

end Shape

end Specimen
