import Specimen.Projection.Member
import Specimen.Proofs.Loading.Class
import Specimen.Proofs.Loading.Scope

/-! The names of a dataclass's fields: those of the classes above it, the farthest first, then its own annotated names,
each at its first place. -/
namespace Specimen
open World (addName)
variable {world : World} {c : ClassRef} {body settled : Body} {count : Nat}

section Names

/-- The names of the fields that a class has, be it by inheritance. -/
def World.fieldNames (world : World) (c : ClassRef) : List Text :=
  match world.fieldTable? c with
  | some (.known fields) => fields.map (·.name)
  | _ => []

/-- Names that classes give, each at its first place. -/
def World.gather (names : ClassRef → List Text) (classes : List ClassRef) : List Text :=
  (classes.flatMap names).foldl addName []

/-- The fields of a dataclass: those of the classes above it, the farthest first, and then its own annotated names,
of which at most one is a mark and no field; a name declared again keeps its place. -/
def World.ExtendsFields (world : World) (ancestors : List ClassRef) (annotated names : List Text) : Prop :=
  ∃ own : List Text, own.Sublist annotated ∧ annotated.length ≤ own.length + 1 ∧
    names = own.foldl addName (gather world.fieldNames ancestors.reverse)

namespace Dataclass
variable {className moduleName : Text} {ancestors classes : List ClassRef} {kept fields own : List DataField}

private theorem names_foldl_put (fields : List DataField) {entries : List (Text × DataField)}
    (named : ∀ entry ∈ entries, entry.1 = entry.2.name) :
    ((fields.foldl (fun kept field => Json.put field.name field kept) entries).map (·.2)).map (·.name) =
      (fields.map (·.name)).foldl addName (entries.map (·.1)) := by
  induction fields generalizing entries with
  | nil =>
    rw [List.foldl_nil, List.map_map]
    exact List.map_congr_left fun entry he => (named entry he).symm
  | cons field rest ih =>
    have kept : ∀ entry ∈ Json.put field.name field entries, entry.1 = entry.2.name := fun entry he => by
      rcases Json.mem_put he with rfl | he
      · rfl
      · exact named entry he
    rw [List.foldl_cons, ih kept, List.map_cons, List.foldl_cons, Json.names_put, addName]
    simp only [List.contains_iff_mem]

private theorem names_addFields (kept fields : List DataField) :
    (addFields kept fields).map (·.name) = (fields.map (·.name)).foldl addName (kept.map (·.name)) := by
  have named : ∀ entry ∈ kept.map fun field => (field.name, field), entry.1 = entry.2.name := fun entry he => by
    obtain ⟨field, -, rfl⟩ := List.mem_map.mp he
    rfl
  rw [addFields, names_foldl_put fields named, List.map_map]
  rfl

private theorem names_inheritableFields (h : world.inheritableFields c = .ok fields) :
    fields.map (·.name) = world.fieldNames c := by
  rw [World.inheritableFields] at h
  rw [World.fieldNames]
  split at h
  · rename_i table
    cases h
    rw [table]
    rfl
  · rename_i table
    cases h
    rw [table]
    rfl
  · rename_i table _ found
    obtain ⟨read, reads, h⟩ := ok_of_bind h
    obtain ⟨-, -, ⟨⟩⟩ := ok_of_bind h
    rw [found]
    cases table with
    | known fields =>
      cases reads
      rfl
    | other bound =>
      rw [World.readFields.eq_def] at reads
      split at reads
      · cases ‹FieldTable.other bound = _›
      · cases reads
        rfl
      · cases reads
      · cases reads

private theorem names_inheritedFields (h : inheritedFields world kept classes = .ok fields) :
    fields.map (·.name) = (classes.flatMap world.fieldNames).foldl addName (kept.map (·.name)) := by
  induction classes generalizing kept with
  | nil =>
    cases h
    rfl
  | cons k rest ih =>
    obtain ⟨more, inherits, h⟩ := ok_of_bind h
    rw [ih h, names_addFields, names_inheritableFields inherits, List.flatMap_cons, List.foldl_append]

end Dataclass

end Names

section Bodies

/-- What a body binds is known, and no name is bound twice. -/
structure Body.IsScoped (count : Nat) (body : Body) : Prop where
  known : ∀ entry ∈ body.attributes, entry.2.referent.IsKnown count
  distinct : (body.attributes.map (·.1)).Nodup

namespace Body.IsScoped
variable {name : Text} {value : ClassAttribute} {more : Nat}

theorem mono (h : body.IsScoped count) (le : count ≤ more) : body.IsScoped more :=
  ⟨fun entry he => (h.known entry he).mono le, h.distinct⟩

theorem bind (h : body.IsScoped count) (known : value.referent.IsKnown count) :
    (body.bind name value).IsScoped count := by
  refine ⟨fun entry he => ?_, Json.nodup_put h.distinct⟩
  rcases Json.mem_put he with rfl | he
  · exact known
  · exact h.known entry he

theorem without (h : body.IsScoped count) (names : List Text) : (body.without names).IsScoped count :=
  ⟨fun entry he => h.known entry (List.mem_filter.mp he).1,
    h.distinct.sublist (List.filter_sublist.map _)⟩

theorem allKnown_names (h : body.IsScoped count) : AllKnown count body.names := by
  intro entry he
  obtain ⟨bound, hb, rfl⟩ := List.mem_map.mp he
  exact h.known bound hb

end Body.IsScoped

/-- Reading field specifications binds names to the absent value and takes names away. -/
private theorem Dataclass.settle_keeps {className : Text} {ancestors : List ClassRef} {names : List Text}
    (scope : body.IsScoped count) (h : settle world className ancestors body names = .ok settled) :
    settled.annotations = body.annotations ∧ settled.IsScoped count := by
  induction names generalizing body with
  | nil =>
    cases h
    exact ⟨rfl, scope⟩
  | cons name rest ih =>
    rw [settle] at h
    split at h
    · have bound : (body.bind name (.plain .none)).IsScoped count := scope.bind trivial
      obtain ⟨annotations, scope⟩ := ih bound h
      exact ⟨annotations, scope⟩
    · by_cases fixed : fixedNames.contains name = true
      · rw [if_pos fixed] at h
        cases h
      · by_cases absent : (List.lookup name body.attributes).isNone = true
        · rw [if_neg fixed, if_pos absent] at h
          cases h
        · rw [if_neg fixed, if_neg absent] at h
          obtain ⟨annotations, scope⟩ := ih (scope.without [name]) h
          exact ⟨annotations, scope⟩
    · exact ih scope h

/-- The fields that a body makes of its annotated names come behind those of the classes above it. -/
theorem Dataclass.make_names {label : ModuleLabel} {className : Text} {ancestors : List ClassRef}
    {fields : List DataField} (scope : body.IsScoped count)
    (h : make world label className ancestors body = .ok (fields, settled)) :
    settled.IsScoped count ∧
      world.ExtendsFields ancestors (settled.annotations.entries.map (·.1)) (fields.map (·.name)) := by
  obtain ⟨-, -, h⟩ := ok_of_bind h
  obtain ⟨inherited, inherits, h⟩ := ok_of_bind h
  obtain ⟨annotated, listed, h⟩ := ok_of_bind h
  obtain ⟨own, makes, h⟩ := ok_of_bind h
  obtain ⟨kept, settles, h⟩ := ok_of_bind h
  obtain ⟨-, -, ⟨⟩⟩ := ok_of_bind h
  have started : (keep World.parametersName body).IsScoped count := scope.bind trivial
  obtain ⟨annotations, scope⟩ := settle_keeps started settles
  have entries : annotated = body.annotations.entries := by
    rw [World.tableOf.eq_def] at listed
    split at listed
    · rename_i entries table
      cases listed
      exact table ▸ rfl
    · cases listed
    · cases listed
  obtain ⟨sublist, length⟩ := ownFields_spec makes
  have same : (keep fieldsName kept).annotations.entries = annotated := entries ▸ congrArg _ annotations
  refine ⟨scope.bind trivial, own.map (·.name), same ▸ sublist, ?_, ?_⟩
  · rw [same, List.length_map, List.length_map]
    exact length
  · rw [names_addFields, names_inheritedFields inherits]
    rfl

end Bodies

end Specimen
