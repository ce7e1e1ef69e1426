import Specimen.Proofs.Schema.Layers

/-! Graphs built by additions, some of which fail. The first record of each name stays, and each fingerprint keeps the
name it was first added under, so it finds the earliest record that has it. -/
namespace Specimen.TypeGraph

/-- A graph that grows, with the name under which each fingerprint was first added. -/
structure Registry where
  graph : TypeGraph
  firstNames : List (Text × Text)

namespace Registry

/-- The registry without records. -/
def empty (rootName nameSpace : Text) (rootIsArray : Bool) : Registry :=
  ⟨.empty rootName nameSpace rootIsArray, []⟩

/-- One more record, and what comes of it. A fingerprint that has a name keeps it. -/
def add (registry : Registry) (record : RecordType) : Except GraphFault Unit × Registry :=
  match registry.graph.add record with
  | .error fault => (.error fault, registry)
  | .ok graph => (.ok (), ⟨graph, if (registry.firstNames.lookup record.fingerprint).isSome then registry.firstNames
      else registry.firstNames ++ [(record.fingerprint, record.name)]⟩)

/-- The registry after additions, those that fail among them. -/
def addAll (registry : Registry) (records : List RecordType) : Registry :=
  records.foldl (fun registry record => (registry.add record).2) registry

/-- The record of the name that the fingerprint was first added under. -/
def find? (registry : Registry) (fingerprint : Text) : Except GraphFault (Option RecordType) :=
  match registry.firstNames.lookup fingerprint with
  | none => .ok none
  | some name => (registry.graph.resolve name).map some

end Registry

/-- The first record of each name, in order. -/
def firstOfEach : List RecordType → List RecordType
  | [] => []
  | record :: rest => record :: (firstOfEach rest).filter fun other => other.name ≠ record.name

variable {registry : Registry} {graph : TypeGraph} {record : RecordType} {additions : List RecordType}

theorem add_of_taken (taken : record.name ∈ graph.records.map (·.name)) :
    graph.add record = .error (.duplicateName record.name) := by
  rw [add, if_pos (contains_iff.mpr taken)]

theorem add_of_new (new : record.name ∉ graph.records.map (·.name)) :
    graph.add record = .ok { graph with records := graph.records ++ [record] } :=
  add_of_fresh fun _ ho same => new (same ▸ List.mem_map_of_mem ho)

theorem Registry.add_of_taken (taken : record.name ∈ registry.graph.records.map (·.name)) :
    registry.add record = (.error (.duplicateName record.name), registry) := by
  rw [Registry.add, TypeGraph.add_of_taken taken]

theorem Registry.add_of_new (new : record.name ∉ registry.graph.records.map (·.name)) :
    (registry.add record).1 = .ok () ∧
      (registry.add record).2.graph = { registry.graph with records := registry.graph.records ++ [record] } := by
  rw [Registry.add, TypeGraph.add_of_new new]
  exact ⟨rfl, rfl⟩

/-- What is added are the first records of the names that the graph has not. -/
private theorem Registry.addAll_graph (registry : Registry) (additions : List RecordType) :
    (registry.addAll additions).graph = { registry.graph with
      records := registry.graph.records ++ (firstOfEach additions).filter fun record =>
        record.name ∉ registry.graph.records.map (·.name) } := by
  induction additions generalizing registry with
  | nil => simp [addAll, firstOfEach]
  | cons record rest ih =>
    rw [addAll, List.foldl_cons, ← addAll, ih, firstOfEach]
    by_cases taken : record.name ∈ registry.graph.records.map (·.name)
    · rw [add_of_taken taken, List.filter_cons_of_neg (by simpa using taken), List.filter_filter]
      refine congrArg (TypeGraph.mk _ _ _) (congrArg (registry.graph.records ++ ·)
        (List.filter_congr fun other _ => ?_))
      -- the name of a record that is left out is in the graph, so its removal removes nothing more
      by_cases same : other.name = record.name <;> simp_all
    · rw [(add_of_new taken).2, List.filter_cons_of_pos (by simpa using taken), List.filter_filter, List.append_assoc]
      refine congrArg (TypeGraph.mk _ _ _) (congrArg (registry.graph.records ++ record :: ·)
        (List.filter_congr fun other _ => ?_))
      simp only [List.map_append, List.map_singleton, List.mem_append, List.mem_singleton, not_or, Bool.decide_and]

theorem Registry.records_addAll_empty (rootName nameSpace : Text) (rootIsArray : Bool) (additions : List RecordType) :
    ((empty rootName nameSpace rootIsArray).addAll additions).graph.records = firstOfEach additions := by
  rw [addAll_graph]
  simp [empty, TypeGraph.empty]

theorem mem_names_firstOfEach {name : Text} :
    name ∈ (firstOfEach additions).map (·.name) ↔ name ∈ additions.map (·.name) := by
  induction additions with
  | nil => rfl
  | cons record rest ih =>
    rw [firstOfEach, List.map_cons, List.map_cons, List.mem_cons, List.mem_cons, ← ih]
    simp only [List.mem_map, List.mem_filter, decide_eq_true_eq]
    by_cases same : name = record.name
    · simp [same]
    · refine or_congr_right ⟨fun ⟨other, ho, he⟩ => ⟨other, ho.1, he⟩, fun ⟨other, ho, he⟩ => ?_⟩
      exact ⟨other, ⟨ho, he ▸ same⟩, he⟩

theorem nodup_firstOfEach (additions : List RecordType) : ((firstOfEach additions).map (·.name)).Nodup := by
  induction additions with
  | nil => exact List.nodup_nil
  | cons record rest ih =>
    refine List.nodup_cons.mpr ⟨fun hin => ?_, ih.sublist (List.filter_sublist.map _)⟩
    obtain ⟨other, ho, same⟩ := List.mem_map.mp hin
    simp [same] at ho

/-- The names kept for fingerprints are those of the earliest records that have them. -/
private structure Registry.Agrees (registry : Registry) : Prop where
  distinct : (registry.graph.records.map (·.name)).Nodup
  first : ∀ fingerprint,
    registry.firstNames.lookup fingerprint = (registry.graph.findFingerprint? fingerprint).map (·.name)

private theorem Registry.Agrees.add (h : registry.Agrees) (record : RecordType) : (registry.add record).2.Agrees := by
  by_cases taken : record.name ∈ registry.graph.records.map (·.name)
  · rw [add_of_taken taken]
    exact h
  · have distinct := nodup_added h.distinct fun _ ho same => taken (same ▸ List.mem_map_of_mem ho)
    rw [Registry.add, TypeGraph.add_of_new taken]
    refine ⟨distinct, fun fingerprint => ?_⟩
    have first := h.first fingerprint
    dsimp only [findFingerprint?] at first ⊢
    rw [List.find?_append]
    split
    · rename_i known
      cases found : registry.graph.records.find? (·.fingerprint = fingerprint) with
      | some earlier => rw [first, found]; rfl
      | none =>
        -- the new record has a fingerprint with a name, hence not the one that no record has
        have other : record.fingerprint ≠ fingerprint := fun same => by
          rw [same, first, found] at known
          cases known
        rw [first, found]
        simp [other]
    · rename_i unknown
      rw [List.lookup_append, first]
      cases found : registry.graph.records.find? (·.fingerprint = fingerprint) with
      | some earlier => rfl
      | none =>
        by_cases same : record.fingerprint = fingerprint
        · simp [same]
        · simp [same, List.lookup_cons, beq_false_of_ne (Ne.symm same)]

/-- A fingerprint finds the earliest record that was added with it. -/
theorem Registry.find?_addAll_empty (rootName nameSpace : Text) (rootIsArray : Bool) (additions : List RecordType)
    (fingerprint : Text) :
    let registry := (empty rootName nameSpace rootIsArray).addAll additions
    registry.find? fingerprint = .ok (registry.graph.findFingerprint? fingerprint) := by
  have agrees : ∀ registry : Registry, registry.Agrees → (registry.addAll additions).Agrees := by
    induction additions with
    | nil => exact fun _ h => h
    | cons record rest ih => exact fun registry h => ih _ (h.add record)
  have h := agrees (empty rootName nameSpace rootIsArray) ⟨List.nodup_nil, fun _ => rfl⟩
  generalize (empty rootName nameSpace rootIsArray).addAll additions = registry at h
  change registry.find? fingerprint = .ok (registry.graph.findFingerprint? fingerprint)
  rw [Registry.find?, h.first]
  cases found : registry.graph.findFingerprint? fingerprint with
  | none => rfl
  | some record => simp [resolve, find?_of_mem h.distinct (List.mem_of_find?_eq_some found), Except.map]

end Specimen.TypeGraph
