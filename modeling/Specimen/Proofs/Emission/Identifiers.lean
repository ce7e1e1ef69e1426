import Specimen.Proofs.Emission.Scoping
import Specimen.Proofs.Inference.Origins
import Specimen.Proofs.Inference.Unencodable

/-! The names in emitted dataclasses. Each begins with a letter and is no keyword; and it is an identifier exactly if
the key or the root name that it is made from can be spelled. -/
namespace Specimen.Emission
open Inference (infer wrapperKey IsNamedFor)
open Naming (IsSpellable IsSpelling IsNameOf Scope hardKeywords)
open Text (IsIdentifier isLetter)

/-- A name that begins with a letter and is no keyword. -/
structure IsFree (name : Text) : Prop where
  letter : ∃ c rest, name = c :: rest ∧ isLetter c = true
  free : name ∉ hardKeywords

/-- A key of a sample, or that of the field which wraps a sample without a record at its root. -/
def IsKey (sample : Json.Document) (key : Text) : Prop := key = wrapperKey ∨ sample.HasName key

/-- Classes whose names and attributes begin with letters and are no keywords. An attribute is an identifier exactly if
its key can be spelled, the root's class exactly if the root name can, and any other one exactly if the key can that it
is named for. -/
structure IsSpelled (sample : Json.Document) (rootName root : Text) (classes : List Dataclass) : Prop where
  free : ∀ declared ∈ classes, IsFree declared.name ∧ ∀ attr ∈ declared.attributes, IsFree attr.name
  attributes : ∀ declared ∈ classes, ∀ attr ∈ declared.attributes,
    IsKey sample attr.key ∧ (IsIdentifier attr.name ↔ IsSpellable attr.key)
  ofRoot : ∀ declared ∈ classes, declared.name = root → (IsIdentifier declared.name ↔ IsSpellable rootName)
  ofKeys : ∀ declared ∈ classes, declared.name ≠ root →
    ∃ key, IsKey sample key ∧ IsNamedFor key declared.name ∧ (IsIdentifier declared.name ↔ IsSpellable key)

/-- Where the root name and all keys can be spelled, all names are identifiers. -/
theorem IsSpelled.isIdentifier {sample : Json.Document} {rootName root : Text} {classes : List Dataclass}
    (h : IsSpelled sample rootName root classes) (hroot : IsSpellable rootName)
    (hkeys : sample.EveryObject fun names => ∀ name ∈ names, IsSpellable name) :
    ∀ declared ∈ classes, IsIdentifier declared.name ∧ ∀ attr ∈ declared.attributes, IsIdentifier attr.name := by
  have keys : ∀ key, IsKey sample key → IsSpellable key := by
    rintro key (rfl | own)
    · decide +kernel
    · exact Json.Value.everyObject_iff_hasName.mp hkeys key own
  intro declared hd
  refine ⟨?_, fun attr ha => ?_⟩
  · by_cases same : declared.name = root
    · exact (h.ofRoot declared hd same).mpr hroot
    · obtain ⟨key, hkey, -, iff⟩ := h.ofKeys declared hd same
      exact iff.mpr (keys key hkey)
  · obtain ⟨hkey, iff⟩ := h.attributes declared hd attr ha
    exact iff.mpr (keys attr.key hkey)

/-- An attribute has the name that some scope hands out for that of its field. -/
private theorem exists_claim {fields : List Field} {scope : Scope} {attr : Attribute}
    (h : attr ∈ attributesFrom scope fields) :
    ∃ field ∈ fields, ∃ scope : Scope, attr = attributeOf (scope.claim (Naming.snakeCase field.name)).1 field := by
  induction fields generalizing scope with
  | nil => cases h
  | cons field rest ih =>
    rcases List.mem_cons.mp h with rfl | h
    · exact ⟨field, List.mem_cons_self, scope, rfl⟩
    · obtain ⟨other, ho, claimed⟩ := ih h
      exact ⟨other, List.mem_cons_of_mem field ho, claimed⟩

end Specimen.Emission

namespace Specimen.Inference.GraphRun
open Emission (IsFree IsKey IsSpelled)
open Naming (IsSpelling)
variable {digest : Fingerprint.Digest} {nameSpace rootName : Text} {sample : Json.Document} {widen : Bool}
  {fields : List Field} {builder : Builder} {print : Text} {graph : TypeGraph}

/-- The names of a sample's records are spelled. -/
private theorem isSpelled
    (run : GraphRun digest nameSpace rootName (Shape.ofDocument widen "$" sample).1 fields builder print
    graph) (hex : digest.IsHexadecimal) (distinct : sample.DistinctNames) {records : List RecordType}
    (within : ∀ record ∈ records, record ∈ graph.records) :
    IsSpelled sample rootName graph.rootName (records.map Emission.dataclassOf) := by
  have every : sample.EveryObject fun names => ∀ name ∈ names, IsKey sample name :=
    Json.Value.everyObject_iff_hasName.mpr fun _ => .inr
  have wrapped : ∀ key ∈ [wrapperKey], IsKey sample key := List.forall_mem_singleton.mpr (.inl rfl)
  obtain ⟨own, inner⟩ := (@forall_rootFields (fun names => ∀ key ∈ names, IsKey sample key) wrapped _).mpr
    fun fields hf => (Shape.names_of_mem_objectsIn distinct every widen "$" fields hf).2
  have spelling {record : RecordType} (hr : record ∈ records) {attr : Emission.Attribute}
      (ha : attr ∈ (Emission.dataclassOf record).attributes) :
      IsKey sample attr.key ∧ IsSpelling attr.key attr.name ∧ attr.name ∉ Naming.hardKeywords := by
    obtain ⟨field, hf, scope, rfl⟩ := Emission.exists_claim ha
    obtain ⟨_, _, -, fits, -⟩ := run.exists_fits (within record hr)
    obtain ⟨spelled, free⟩ := scope.isSpelling_claim_snakeCase field.name
    exact ⟨run.keyed own inner record (within record hr) field hf, (fits.named field hf).isSpelling.trans spelled, free⟩
  refine ⟨?_, ?_, ?_, ?_⟩ <;> simp only [List.forall_mem_map]
  · intro record hr
    obtain ⟨text, named⟩ := run.named hex record (within record hr)
    have unreserved := (run.wellFormed hex).unreserved record (within record hr)
    refine ⟨⟨named.isSpelling.letter, named.isHeaded.notMem_hardKeywords unreserved⟩, fun attr ha => ?_⟩
    obtain ⟨-, spelled, free⟩ := spelling hr ha
    exact ⟨spelled.letter, free⟩
  · intro record hr attr ha
    obtain ⟨key, spelled, -⟩ := spelling hr ha
    exact ⟨key, spelled.isIdentifier_iff⟩
  · intro record _ same
    rw [same]
    exact run.isNameOf_root.isSpelling.isIdentifier_iff
  · intro record hr other
    obtain ⟨key, hkey, named⟩ := run.namedFor own inner record (within record hr) other
    exact ⟨key, hkey, named, named.isSpelling.isIdentifier_iff⟩

end Specimen.Inference.GraphRun

namespace Specimen.Emission
open Inference (infer)
open Naming (IsSpellable)
open Text (IsIdentifier)

/-- Every graph of a sample is emitted as dataclasses whose names and attributes begin with letters and are no keywords.
They are identifiers exactly where the keys and the root name that they are made from can be spelled: these have no
letter or number that cannot stand in identifiers, and do not begin with a letter that cannot begin one. -/
theorem infer_identifiers {sample : Json.Document} (distinct : sample.DistinctNames) {widen : Bool}
    {nameSpace rootName : Text} {result : Inference.Result}
    (inferred : infer widen nameSpace rootName sample = .ok result) :
    ∃ records, result.graph.dependencyOrder = .ok records ∧
      IsSpelled sample rootName result.graph.rootName (records.map dataclassOf) ∧
      (IsSpellable rootName → (sample.EveryObject fun names => ∀ name ∈ names, IsSpellable name) →
        ∀ declared ∈ records.map dataclassOf,
          IsIdentifier declared.name ∧ ∀ attr ∈ declared.attributes, IsIdentifier attr.name) ∧
      ∀ shownSpace shownRoot, emit result.graph .dataclass shownSpace shownRoot =
        .ok (textOf result.graph shownSpace shownRoot (records.map dataclassOf)) := by
  have hex := Fingerprint.sha256_isHexadecimal
  obtain ⟨_, _, _, run⟩ := Inference.run_of_inferWith hex Fingerprint.sha256_isStrict distinct inferred
  obtain ⟨records, order, hperm, -⟩ := run.exists_order hex
  have spelled := run.isSpelled hex distinct fun record hr => hperm.mem_iff.mp hr
  exact ⟨records, order, spelled, spelled.isIdentifier, emit_dataclass (run.wellFormed hex) order⟩

/-- A keyword as a key, of an array of records with a key in two words. -/
theorem infer_identifiers_keyword :
    let sample : Json.Document := .object [("class", .array [.object [("item no", .number "1")]])]
    let names : List (Text × List Text) := [("Class", ["item_no"]), ("Root", ["class_"])]
    sample.DistinctNames ∧ ∃ result records, infer true "" "Root" sample = .ok result ∧
      result.graph.dependencyOrder = .ok records ∧
      (records.map dataclassOf).map (fun declared => (declared.name, declared.attributes.map (·.name))) = names ∧
      IsSpelled sample "Root" result.graph.rootName (records.map dataclassOf) ∧
      (∀ declared ∈ records.map dataclassOf,
        IsIdentifier declared.name ∧ ∀ attr ∈ declared.attributes, IsIdentifier attr.name) ∧
      ∀ shownSpace shownRoot, emit result.graph .dataclass shownSpace shownRoot =
        .ok (textOf result.graph shownSpace shownRoot (records.map dataclassOf)) := by
  intro sample names
  have distinct : sample.DistinctNames := by decide
  have runs : (infer true "" "Root" sample).toOption.map (fun result =>
      result.graph.dependencyOrder.toOption.map fun records => (records.map dataclassOf).map fun declared =>
        (declared.name, declared.attributes.map (·.name))) = some (some names) := by decide +kernel
  obtain ⟨result, inferred, runs⟩ := exists_ok_of_map runs
  obtain ⟨records, order, named⟩ := exists_ok_of_map runs
  obtain ⟨_, order', spelled, identifiers, emitted⟩ := infer_identifiers distinct inferred
  cases order.symm.trans order'
  exact ⟨distinct, result, records, inferred, order, named, spelled,
    identifiers (by decide +kernel) (by decide +kernel), emitted⟩

/-- A key that ends in a fraction: a number that is no digit is kept, and the attribute is no identifier. -/
theorem attribute_of_fraction :
    let sample : Json.Document := .object [([0x61, 0xBD], .number "1")]
    sample.DistinctNames ∧ ∃ result records, infer true "" "Root" sample = .ok result ∧
      result.graph.dependencyOrder = .ok records ∧
      ∃ declared ∈ records.map dataclassOf, ∃ attr ∈ declared.attributes,
        attr.name = [0x61, 0xBD] ∧ ¬ IsIdentifier attr.name := by
  intro sample
  have runs : (infer true "" "Root" sample).toOption.map (fun result =>
      result.graph.dependencyOrder.toOption.map fun records => decide (∃ declared ∈ records.map dataclassOf,
        ∃ attr ∈ declared.attributes, attr.name = [0x61, 0xBD] ∧ ¬ IsIdentifier attr.name)) = some (some true) := by
    decide +kernel
  obtain ⟨result, inferred, runs⟩ := exists_ok_of_map runs
  obtain ⟨records, order, found⟩ := exists_ok_of_map runs
  exact ⟨by decide, result, records, inferred, order, of_decide_eq_true found⟩

end Specimen.Emission
