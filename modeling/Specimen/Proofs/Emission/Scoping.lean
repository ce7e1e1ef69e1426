import Specimen.Proofs.Emission.Attributes
import Specimen.Proofs.Inference.Traversal

/-! The dataclasses emitted for a sample are well scoped. An attribute may still have the name of a class:
where a key has no letter with case, the class and the attribute are both named by the key itself. -/
namespace Specimen.Emission
open Inference (infer)

/-- The text of dataclasses: a header, then the lines of each class in turn. -/
def textOf (graph : TypeGraph) (nameSpace rootName : Option Text) (classes : List Dataclass) : Text :=
  unlines (headerLines (nameSpace.getD graph.nameSpace)
    ((rootName.filter fun name => !name.isEmpty).getD graph.rootName) graph.rootIsArray ++
    classes.flatMap Dataclass.lines)

theorem valid_of_wellFormed {graph : TypeGraph} (wellFormed : graph.WellFormed) : graph.validate = .ok () := by
  obtain ⟨nested, root, hrecords, hname⟩ := wellFormed.rootLast
  have hroot : root ∈ graph.records := by simp [hrecords]
  exact TypeGraph.validate_ok (hname ▸ TypeGraph.find?_of_mem wellFormed.names hroot) wellFormed.resolved

/-- A valid graph is emitted as its dataclasses, in dependency order. -/
theorem emit_valid {graph : TypeGraph} (valid : graph.validate = .ok ()) {records : List RecordType}
    (order : graph.dependencyOrder = .ok records) (nameSpace rootName : Option Text) :
    emit graph .dataclass nameSpace rootName =
      .ok (textOf graph nameSpace rootName (records.map dataclassOf)) := by
  rw [emit.eq_def, valid, textOf]
  simp only [bind, Except.bind, order, pure, Except.pure, dataclassSource, List.flatMap_map]
  rcases rootName with _ | _ | ⟨c, rest⟩ <;> rfl

theorem emit_dataclass {graph : TypeGraph} (wellFormed : graph.WellFormed) {records : List RecordType}
    (order : graph.dependencyOrder = .ok records) (nameSpace rootName : Option Text) :
    emit graph .dataclass nameSpace rootName =
      .ok (textOf graph nameSpace rootName (records.map dataclassOf)) :=
  emit_valid (valid_of_wellFormed wellFormed) order nameSpace rootName

/-- Every sample's graph is emitted as dataclasses that are well scoped. -/
theorem infer_emits {sample : Json.Document} (h : Json.IsSample sample) (widen : Bool)
    (nameSpace rootName : Text) :
    ∃ result records, infer widen nameSpace rootName sample = .ok result ∧
      result.graph.dependencyOrder = .ok records ∧ IsScoped (records.map dataclassOf) ∧
      ∀ nameSpace rootName, emit result.graph .dataclass nameSpace rootName =
        .ok (textOf result.graph nameSpace rootName (records.map dataclassOf)) := by
  have hex := Fingerprint.sha256_isHexadecimal
  obtain ⟨result, _, _, _, hresult, run⟩ := Inference.inferWith_run hex h widen nameSpace rootName
  have wellFormed := run.wellFormed hex
  obtain ⟨nested, root, hrecords, hname⟩ := wellFormed.rootLast
  have hroot : result.graph.rootName ∈ result.graph.records.map (·.name) :=
    List.mem_map.mpr ⟨root, by simp [hrecords], hname⟩
  obtain ⟨records, order, hperm, layered⟩ :=
    TypeGraph.dependencyOrder_layered (run.layered hex) hroot
  refine ⟨result, records, hresult, order, ?_, emit_dataclass wellFormed order⟩
  exact isScoped_of_layered layered fun record hr => run.named hex record (hperm.mem_iff.mp hr)

/-- A record under a key that class bodies use as a name. -/
theorem infer_emits_nested :
    let sample : Json.Document := .object [("str", .object [("a", .number "1")])]
    Json.IsSample sample ∧ ∃ result records, infer true "" "Root" sample = .ok result ∧
      result.graph.dependencyOrder = .ok records ∧ IsScoped (records.map dataclassOf) ∧
      ∀ nameSpace rootName, emit result.graph .dataclass nameSpace rootName =
        .ok (textOf result.graph nameSpace rootName (records.map dataclassOf)) := by
  intro sample
  have h : Json.IsSample sample := ⟨by decide, by decide, by decide⟩
  exact ⟨h, infer_emits h true "" "Root"⟩

/-- A key of a letter without case: the attribute takes the name of the class that it leads to. -/
theorem attribute_shadows_class :
    let sample : Json.Document := .object [([0x540D], .object [("a", .number "1")])]
    Json.IsSample sample ∧ ∃ result records, infer true "" "Root" sample = .ok result ∧
      result.graph.dependencyOrder = .ok records ∧
      ∃ declared ∈ records.map dataclassOf, ∃ attr ∈ declared.attributes,
        attr.type.names = [attr.name] ∧ attr.name ∈ (records.map dataclassOf).map (·.name) := by
  intro sample
  have h : Json.IsSample sample := ⟨by decide, by decide, by decide⟩
  obtain ⟨result, records, hresult, order, -⟩ := infer_emits h true "" "Root"
  have runs : (match infer true "" "Root" sample with
      | .error _ => false
      | .ok result => match result.graph.dependencyOrder with
        | .error _ => false
        | .ok records => decide (∃ declared ∈ records.map dataclassOf, ∃ attr ∈ declared.attributes,
            attr.type.names = [attr.name] ∧ attr.name ∈ (records.map dataclassOf).map (·.name))) =
      true := by decide +kernel
  simp only [hresult, order] at runs
  exact ⟨h, result, records, hresult, order, of_decide_eq_true runs⟩

end Specimen.Emission
