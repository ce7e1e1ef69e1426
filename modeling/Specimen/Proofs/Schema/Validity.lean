import Specimen.Proofs.Schema.Growth
import Specimen.Proofs.Steps

/-! Graphs that pass validation. Every name that a walk can meet leads to a record, so no walk fails. -/
namespace Specimen.TypeGraph
variable {graph : TypeGraph}

private theorem contains_of_checkDependencies {owner : Text} {names : List Text}
    (h : graph.checkDependencies owner names = .ok ()) : ∀ name ∈ names, graph.contains name = true := by
  induction names with
  | nil => exact nofun
  | cons name rest ih =>
    rw [checkDependencies] at h
    split at h
    · rename_i held
      exact List.forall_mem_cons.mpr ⟨held, ih h⟩
    · cases h

private theorem contains_of_checkRecords {records : List RecordType} (h : graph.checkRecords records = .ok ()) :
    ∀ record ∈ records, ∀ name ∈ record.dependencies, graph.contains name = true := by
  induction records with
  | nil => exact nofun
  | cons record rest ih =>
    obtain ⟨_, first, others⟩ := ok_of_bind h
    exact List.forall_mem_cons.mpr ⟨contains_of_checkDependencies first, ih others⟩

private theorem contains_of_mem {record : RecordType} (h : record ∈ graph.records) :
    graph.contains record.name = true := by
  rw [contains, find?, List.find?_isSome]
  exact ⟨record, h, decide_eq_true rfl⟩

private theorem exists_resolve {name : Text} (h : graph.contains name = true) :
    ∃ record ∈ graph.records, graph.resolve name = .ok record := by
  obtain ⟨record, found⟩ := Option.isSome_iff_exists.mp h
  exact ⟨record, List.mem_of_find?_eq_some found, by rw [resolve, found]⟩

/-- A valid graph holds its root and whatever a record leads to. -/
structure IsClosed (graph : TypeGraph) : Prop where
  root : graph.contains graph.rootName = true
  targets : ∀ record ∈ graph.records, ∀ name ∈ record.dependencies, graph.contains name = true

theorem isClosed_of_validate (h : graph.validate = .ok ()) : graph.IsClosed := by
  obtain ⟨root, found, rest⟩ := ok_of_bind h
  refine ⟨?_, contains_of_checkRecords rest⟩
  rw [resolve] at found
  split at found
  · rename_i held
    rw [contains, held]
    rfl
  · cases found

private theorem exists_visitEach {step : Text → Walk → Except GraphFault Walk} {names : List Text}
    (h : ∀ name ∈ names, ∀ walk, ∃ after, step name walk = .ok after) (walk : Walk) :
    ∃ after, visitEach step names walk = .ok after := by
  induction names generalizing walk with
  | nil => exact ⟨walk, rfl⟩
  | cons name rest ih =>
    obtain ⟨first, others⟩ := List.forall_mem_cons.mp h
    obtain ⟨middle, hmiddle⟩ := first walk
    rw [visitEach, hmiddle]
    exact ih others middle

/-- In a closed graph, a visit of a name that the graph holds does not fail. -/
private theorem IsClosed.exists_visit (closed : graph.IsClosed) (fuel : Nat) {name : Text}
    (held : graph.contains name = true) (walk : Walk) : ∃ after, graph.visit fuel name walk = .ok after := by
  induction fuel generalizing name walk with
  | zero => exact ⟨walk, rfl⟩
  | succ fuel ih =>
    rw [visit]
    split
    · exact ⟨walk, rfl⟩
    · obtain ⟨record, hr, found⟩ := exists_resolve held
      obtain ⟨after, visited⟩ := exists_visitEach (fun next hn => ih (closed.targets record hr next hn))
        ⟨name :: walk.visited, walk.ordered⟩
      exact ⟨⟨after.visited, after.ordered ++ [record]⟩, by rw [found]; simp only [bind, Except.bind, visited]; rfl⟩

theorem IsClosed.exists_dependencyOrder (closed : graph.IsClosed) :
    ∃ records, graph.dependencyOrder = .ok records := by
  have held : ∀ name ∈ graph.rootName :: graph.records.map (·.name), graph.contains name = true := by
    refine List.forall_mem_cons.mpr ⟨closed.root, fun name hn => ?_⟩
    obtain ⟨record, hr, rfl⟩ := List.mem_map.mp hn
    exact contains_of_mem hr
  obtain ⟨walk, visited⟩ :=
    exists_visitEach (fun name hn => closed.exists_visit (graph.records.length + 1) (held name hn)) ⟨[], []⟩
  exact ⟨walk.ordered, by rw [dependencyOrder, visited]; rfl⟩

end Specimen.TypeGraph
