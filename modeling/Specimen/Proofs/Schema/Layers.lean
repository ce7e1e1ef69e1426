import Specimen.Proofs.Schema.Growth
import Mathlib.Data.List.Infix
import Mathlib.Logic.Relation

/-! References between the records of a graph. Records in layers lead to earlier ones only, so following
references from one record never leads back to it. -/
namespace Specimen.TypeGraph

/-- Whether a name leads to a record with a field whose type leads to the other name. -/
def Refers (graph : TypeGraph) (name other : Text) : Prop :=
  ∃ record, graph.find? name = some record ∧
    ∃ field ∈ record.fields, field.type.target? = some other

/-- Whether references lead from one name to another in any number of steps. -/
abbrev Leads (graph : TypeGraph) : Text → Text → Prop := Relation.ReflTransGen graph.Refers

/-- No references lead from a name back to it. -/
def IsAcyclic (graph : TypeGraph) : Prop := ∀ name, ¬ Relation.TransGen graph.Refers name name

/-- The names that fields lead to, in their order. -/
def targetsOf (fields : List Field) : List Text := fields.filterMap (·.type.target?)

theorem mem_targetsOf {fields : List Field} {name : Text} :
    name ∈ targetsOf fields ↔ ∃ field ∈ fields, field.type.target? = some name :=
  List.mem_filterMap

theorem targetsOf_cons (field : Field) (fields : List Field) :
    targetsOf (field :: fields) = field.type.target?.toList ++ targetsOf fields := by
  rw [targetsOf, List.filterMap_cons]
  cases field.type.target? <;> rfl

theorem contains_iff {graph : TypeGraph} {name : Text} :
    graph.contains name = true ↔ name ∈ graph.records.map (·.name) := by
  simp [contains, TypeGraph.find?, List.find?_isSome]

/-- Records in an order in which every name is new and fields lead to earlier records only. -/
inductive Layered : List RecordType → Prop
  | nil : Layered []
  | snoc {records : List RecordType} {record : RecordType} (below : Layered records)
    (fresh : record.name ∉ records.map (·.name))
    (leads : ∀ name ∈ targetsOf record.fields, name ∈ records.map (·.name)) :
    Layered (records ++ [record])

namespace Layered
variable {records : List RecordType}

theorem nodup (h : Layered records) : (records.map (·.name)).Nodup := by
  induction h with
  | nil => exact List.nodup_nil
  | snoc below fresh _ ih =>
    exact nodup_added ih fun other ho he => fresh (List.mem_map.mpr ⟨other, ho, he⟩)

theorem of_prefix (h : Layered records) {before : List RecordType} (hb : before <+: records) :
    Layered before := by
  induction h with
  | nil => exact List.prefix_nil.mp hb ▸ .nil
  | snoc below fresh leads ih =>
    rcases List.prefix_concat_iff.mp hb with rfl | hb
    · exact .snoc below fresh leads
    · exact ih hb

/-- What the fields of the last record lead to stands before it. -/
theorem mem_before {record : RecordType} (h : Layered (records ++ [record])) {name : Text}
    (hn : name ∈ targetsOf record.fields) : name ∈ records.map (·.name) := by
  generalize hw : records ++ [record] = whole at h
  cases h with
  | nil => simp at hw
  | snoc below fresh leads =>
    obtain ⟨rfl, he⟩ := List.append_inj' hw rfl
    cases he
    exact leads name hn

/-- What the fields of a record lead to stands before it. -/
theorem idxOf_lt (h : Layered records) {record : RecordType} (hr : record ∈ records) {name : Text}
    (hn : name ∈ targetsOf record.fields) :
    (records.map (·.name)).idxOf name < (records.map (·.name)).idxOf record.name := by
  induction h with
  | nil => cases hr
  | @snoc records last below fresh leads ih =>
    rw [List.map_append, List.map_singleton]
    rcases List.mem_append.mp hr with hr | hr
    · have hlt := ih hr
      have hin : record.name ∈ records.map (·.name) := List.mem_map_of_mem hr
      have hbound := hlt.trans (List.idxOf_lt_length_of_mem hin)
      rw [List.idxOf_append_of_mem (List.idxOf_lt_length_iff.mp hbound),
        List.idxOf_append_of_mem hin]
      exact hlt
    · rw [List.mem_singleton.mp hr] at hn ⊢
      rw [List.idxOf_append_of_mem (leads name hn), List.idxOf_append_of_notMem fresh]
      exact (List.idxOf_lt_length_of_mem (leads name hn)).trans_le (Nat.le_add_right _ _)

/-- What the fields of a record lead to has a lower number. -/
theorem exists_lower {k : Nat} {record : RecordType} (h : Layered records) (hk : records[k]? = some record)
    {name : Text} (hn : name ∈ targetsOf record.fields) :
    ∃ j < k, ∃ other, records[j]? = some other ∧ other.name = name := by
  obtain ⟨hlt, rfl⟩ := List.getElem?_eq_some_iff.mp hk
  have upTo : Layered (records.take k ++ [records[k]]) := by
    rw [List.take_append_getElem hlt]
    exact h.of_prefix (List.take_prefix _ _)
  obtain ⟨other, ho, hname⟩ := List.mem_map.mp (upTo.mem_before hn)
  obtain ⟨j, hj, rfl⟩ := List.mem_take_iff_getElem.mp ho
  exact ⟨j, by omega, _, List.getElem?_eq_getElem (by omega), hname⟩

theorem closed (h : Layered records) {record : RecordType} (hr : record ∈ records) {name : Text}
    (hn : name ∈ targetsOf record.fields) : name ∈ records.map (·.name) := by
  have hlt := h.idxOf_lt hr hn
  exact List.idxOf_lt_length_iff.mp
    (hlt.trans (List.idxOf_lt_length_of_mem (List.mem_map_of_mem hr)))

end Layered

section Graph
variable {graph : TypeGraph} (layered : Layered graph.records)
include layered

/-- A prefix of the records is closed under references. -/
theorem Refers.mem_prefix {before : List RecordType} (hb : before <+: graph.records)
    {name other : Text} (h : graph.Refers name other) (hn : name ∈ before.map (·.name)) :
    other ∈ before.map (·.name) := by
  obtain ⟨record, hf, field, hfield, ht⟩ := h
  obtain ⟨own, ho, rfl⟩ := List.mem_map.mp hn
  rw [find?_of_mem layered.nodup (hb.subset ho)] at hf
  cases hf
  exact (layered.of_prefix hb).closed ho (mem_targetsOf.mpr ⟨field, hfield, ht⟩)

theorem Leads.mem_prefix {before : List RecordType} (hb : before <+: graph.records)
    {name other : Text} (h : graph.Leads name other) (hn : name ∈ before.map (·.name)) :
    other ∈ before.map (·.name) := by
  induction h with
  | refl => exact hn
  | tail _ step ih => exact step.mem_prefix layered hb ih

theorem Refers.idxOf_lt {name other : Text} (h : graph.Refers name other) :
    (graph.records.map (·.name)).idxOf other < (graph.records.map (·.name)).idxOf name := by
  obtain ⟨record, hf, field, hfield, ht⟩ := h
  obtain ⟨hr, rfl⟩ := mem_of_find? hf
  exact layered.idxOf_lt hr (mem_targetsOf.mpr ⟨field, hfield, ht⟩)

theorem isAcyclic_of_layered : graph.IsAcyclic := by
  have descends : ∀ {name other}, Relation.TransGen graph.Refers name other →
      (graph.records.map (·.name)).idxOf other < (graph.records.map (·.name)).idxOf name := by
    intro name other h
    induction h with
    | single step => exact step.idxOf_lt layered
    | tail _ step ih => exact (step.idxOf_lt layered).trans ih
  exact fun name h => Nat.lt_irrefl _ (descends h)

end Graph

end Specimen.TypeGraph
