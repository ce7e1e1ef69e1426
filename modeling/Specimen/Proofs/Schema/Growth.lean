import Specimen.Schema.Graph

/-! Graphs that grow: records are only added at the end, so what a name leads to stays. -/
namespace Specimen.TypeGraph

/-- The later graph begins with the records of the earlier one and has the same root. -/
structure Grows (a b : TypeGraph) : Prop where
  records : a.records <+: b.records
  rootName : b.rootName = a.rootName
  rootIsArray : b.rootIsArray = a.rootIsArray

theorem Grows.refl (graph : TypeGraph) : graph.Grows graph := ⟨List.prefix_refl _, rfl, rfl⟩

theorem Grows.trans {a b c : TypeGraph} (hab : a.Grows b) (hbc : b.Grows c) : a.Grows c :=
  ⟨hab.records.trans hbc.records, hbc.rootName.trans hab.rootName,
    hbc.rootIsArray.trans hab.rootIsArray⟩

theorem Grows.mem {a b : TypeGraph} (h : a.Grows b) {record : RecordType}
    (hr : record ∈ a.records) : record ∈ b.records := h.records.subset hr

theorem Grows.find? {a b : TypeGraph} (h : a.Grows b) {name : Text} {record : RecordType}
    (hf : a.find? name = some record) : b.find? name = some record := by
  obtain ⟨more, hmore⟩ := h.records
  rw [TypeGraph.find?] at hf
  rw [TypeGraph.find?, ← hmore, List.find?_append, hf]
  rfl

theorem mem_of_find? {graph : TypeGraph} {name : Text} {record : RecordType}
    (h : graph.find? name = some record) : record ∈ graph.records ∧ record.name = name :=
  ⟨List.mem_of_find?_eq_some h, by simpa using List.find?_some h⟩

/-- Of records with distinct keys, the search for a key finds the one that has it. -/
private theorem find?_of_nodup {key : RecordType → Text} {records : List RecordType}
    {record : RecordType} (distinct : (records.map key).Nodup) (hr : record ∈ records) :
    records.find? (fun other => key other = key record) = some record := by
  induction records with
  | nil => cases hr
  | cons other rest ih =>
    rw [List.map_cons, List.nodup_cons] at distinct
    rcases List.mem_cons.mp hr with rfl | hr
    · simp
    · have hne : key other ≠ key record := fun he =>
        distinct.1 (he ▸ List.mem_map_of_mem hr)
      rw [List.find?_cons_of_neg (by simpa using hne)]
      exact ih distinct.2 hr

theorem find?_of_mem {graph : TypeGraph} (distinct : (graph.records.map (·.name)).Nodup)
    {record : RecordType} (hr : record ∈ graph.records) :
    graph.find? record.name = some record := find?_of_nodup distinct hr

theorem findFingerprint?_of_mem {graph : TypeGraph}
    (distinct : (graph.records.map (·.fingerprint)).Nodup) {record : RecordType}
    (hr : record ∈ graph.records) :
    graph.findFingerprint? record.fingerprint = some record := find?_of_nodup distinct hr

theorem nodup_added {key : RecordType → Text} {records : List RecordType} {record : RecordType}
    (distinct : (records.map key).Nodup) (fresh : ∀ other ∈ records, key other ≠ key record) :
    ((records ++ [record]).map key).Nodup := by
  rw [List.map_append, List.map_singleton, List.nodup_append]
  refine ⟨distinct, by simp, fun a ha b hb => ?_⟩
  obtain ⟨other, ho, rfl⟩ := List.mem_map.mp ha
  rw [List.mem_singleton.mp hb]
  exact fresh other ho

/-- A record of a new name is added behind the others. -/
theorem add_of_fresh {graph : TypeGraph} {record : RecordType}
    (fresh : ∀ other ∈ graph.records, other.name ≠ record.name) :
    graph.add record = .ok { graph with records := graph.records ++ [record] } := by
  have : graph.contains record.name = false := by
    rw [contains, TypeGraph.find?, List.find?_eq_none.mpr fun other ho => by simpa using fresh other ho]
    rfl
  rw [add, if_neg (by simp [this])]

theorem grows_added (graph : TypeGraph) (record : RecordType) :
    graph.Grows { graph with records := graph.records ++ [record] } :=
  ⟨List.prefix_append _ _, rfl, rfl⟩

/-- A name that is new leads to the record added under it. -/
theorem find?_of_fresh {graph : TypeGraph} {record : RecordType}
    (fresh : ∀ other ∈ graph.records, other.name ≠ record.name) :
    ({ graph with records := graph.records ++ [record] } : TypeGraph).find? record.name =
      some record := by
  rw [TypeGraph.find?, List.find?_append,
    List.find?_eq_none.mpr fun other ho => by simpa using fresh other ho]
  simp

/-- Whether the graph holds the record that a type leads to. -/
def Knows (graph : TypeGraph) (type : TypeRef) : Prop :=
  ∀ name, type.target? = some name → ∃ record, graph.find? name = some record

theorem Knows.grows {a b : TypeGraph} {type : TypeRef} (hk : a.Knows type) (h : a.Grows b) :
    b.Knows type := fun name hn => (hk name hn).imp fun _ hf => h.find? hf

theorem knows_object {graph : TypeGraph} {name : Text} {record : RecordType}
    (h : graph.find? name = some record) : graph.Knows (.object name) := by
  rintro other ⟨⟩
  exact ⟨record, h⟩

theorem knows_array {graph : TypeGraph} {element : TypeRef} :
    graph.Knows (.array element) ↔ graph.Knows element := Iff.rfl

theorem knows_of_target?_eq_none {graph : TypeGraph} {type : TypeRef} (h : type.target? = none) :
    graph.Knows type := by
  intro name hn
  rw [h] at hn
  cases hn

section Validate
variable {graph : TypeGraph}

theorem mem_dependencies {record : RecordType} {name : Text} :
    name ∈ record.dependencies ↔ ∃ field ∈ record.fields, field.type.target? = some name := by
  have held (names seen : List Text) : name ∈ names.foldl RecordType.addNew seen ↔ name ∈ seen ∨ name ∈ names := by
    induction names generalizing seen with
    | nil => simp
    | cons first rest ih =>
      rw [List.foldl_cons, ih, RecordType.addNew, List.mem_cons, ← or_assoc]
      refine or_congr_left ?_
      split
      · rename_i met
        exact ⟨.inl, Or.rec id fun same => same ▸ List.contains_iff_mem.mp met⟩
      · rw [List.mem_append, List.mem_singleton]
  rw [RecordType.dependencies, held, List.mem_filterMap]
  exact or_iff_right List.not_mem_nil

private theorem contains_of_mem_dependencies {record : RecordType}
    (known : ∀ field ∈ record.fields, graph.Knows field.type) :
    ∀ name ∈ record.dependencies, graph.contains name = true := by
  intro name hn
  obtain ⟨field, hf, ht⟩ := mem_dependencies.mp hn
  obtain ⟨found, hfound⟩ := known field hf name ht
  rw [contains, hfound]
  rfl

private theorem checkDependencies_ok (owner : Text) {names : List Text}
    (h : ∀ name ∈ names, graph.contains name = true) :
    graph.checkDependencies owner names = .ok () := by
  induction names with
  | nil => rfl
  | cons name rest ih =>
    rw [checkDependencies, if_pos (h name List.mem_cons_self)]
    exact ih fun other ho => h other (List.mem_cons_of_mem name ho)

private theorem checkRecords_ok {records : List RecordType}
    (known : ∀ record ∈ records, ∀ field ∈ record.fields, graph.Knows field.type) :
    graph.checkRecords records = .ok () := by
  induction records with
  | nil => rfl
  | cons record rest ih =>
    rw [checkRecords, checkDependencies_ok record.name
      (contains_of_mem_dependencies (known record List.mem_cons_self))]
    exact ih fun other ho => known other (List.mem_cons_of_mem record ho)

/-- A graph that holds its root and what its fields lead to is valid. -/
theorem validate_ok {root : RecordType} (found : graph.find? graph.rootName = some root)
    (known : ∀ record ∈ graph.records, ∀ field ∈ record.fields, graph.Knows field.type) :
    graph.validate = .ok () := by
  rw [validate, resolve, found]
  exact checkRecords_ok known

end Validate

end Specimen.TypeGraph
