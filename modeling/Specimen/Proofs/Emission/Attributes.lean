import Specimen.Emission.Source
import Specimen.Proofs.Naming.Casing
import Specimen.Proofs.Schema.Walk

/-! The dataclasses of a graph: their attributes have distinct names, apart from the names that every
class body uses, and their annotations lead to builtin types and to classes that stand before them. -/
namespace Specimen

mutual

/-- The dotted names in a type expression. -/
def TypeExpr.names : TypeExpr → List Text
  | .none | .ellipsis | .literal _ => []
  | .name dotted => [dotted]
  | .quoted inner | .annotated inner _ => names inner
  | .subscript head args => head :: namesOfEach args
  | .union operands => namesOfEach operands

/-- The dotted names in several type expressions. -/
def TypeExpr.namesOfEach : List TypeExpr → List Text
  | [] => []
  | expr :: rest => names expr ++ namesOfEach rest

end

namespace Emission
open Naming (Scope IsNameOf)
open Text (IsLowered)
open TypeGraph (Layered targetsOf mem_targetsOf)

/-- The types of annotations that are no classes of the module. -/
def builtinTypes : List Text :=
  ["bool", "int", "float", "str", "typing.Any", "typing.List", "typing.Optional"].map Text.ofString

section Attributes

/-- The scope in which the names of attributes are claimed. -/
def bodyScope : Scope := Scope.empty.reserveAll reservedAttributes

/-- The names of the attributes for fields, in their order. -/
def attributeNames (fields : List Field) : List Text :=
  bodyScope.claimAll (fields.map fun field => Naming.snakeCase field.name)

private theorem attributesFrom_eq (scope : Scope) (fields : List Field) :
    attributesFrom scope fields =
      ((scope.claimAll (fields.map fun field => Naming.snakeCase field.name)).zip fields).map
        fun (name, field) => attributeOf name field := by
  induction fields generalizing scope with
  | nil => rfl
  | cons field rest ih =>
    rw [attributesFrom]
    dsimp only
    rw [ih]
    rfl

theorem attributes_eq (record : RecordType) : (dataclassOf record).attributes =
    ((attributeNames record.fields).zip record.fields).map fun (name, field) =>
      attributeOf name field :=
  attributesFrom_eq _ _

theorem length_attributeNames (fields : List Field) :
    (attributeNames fields).length = fields.length := by
  rw [attributeNames, Scope.length_claimAll, List.length_map]

theorem names_attributes (record : RecordType) :
    (dataclassOf record).attributes.map (·.name) = attributeNames record.fields := by
  rw [attributes_eq, List.map_map]
  exact List.map_fst_zip (length_attributeNames record.fields).le

theorem nodup_attributeNames (fields : List Field) : (attributeNames fields).Nodup :=
  Scope.nodup_claimAll _ _

private theorem attributeNames_unreserved {fields : List Field} :
    ∀ name ∈ attributeNames fields, name ∉ reservedAttributes := by
  intro name hn hr
  have free := Scope.claimAll_fresh name hn
  rw [bodyScope, Scope.isTaken_reserveAll.mpr (.inl hr)] at free
  cases free

private theorem isLowered_attributeNames {fields : List Field} :
    ∀ name ∈ attributeNames fields, ∀ c ∈ name, IsLowered c := by
  refine Scope.isLowered_claimAll fun base hb => ?_
  obtain ⟨field, -, rfl⟩ := List.mem_map.mp hb
  exact Naming.isLowered_snakeCase field.name

theorem attributeNames_public {fields : List Field} :
    ∀ name ∈ attributeNames fields, name.startsWith "_" = false := by
  have bases : fields.map (fun field => Naming.snakeCase field.name) =
      (fields.map (·.name)).map Naming.snakeCase := by
    rw [List.map_map]
    rfl
  rw [attributeNames, bases]
  exact Scope.isPublic_claimAll

end Attributes

section Annotations

private theorem names_typeExpr (type : TypeRef) :
    ∀ name ∈ (typeExpr type).names, name ∈ builtinTypes ∨ type.target? = some name := by
  induction type with
  | null | any => exact fun name hn => .inl (List.mem_singleton.mp hn ▸ by decide)
  | scalar kind =>
    cases kind <;> exact fun name hn => .inl (List.mem_singleton.mp hn ▸ by decide)
  | object other => exact fun name hn => .inr (List.mem_singleton.mp hn ▸ rfl)
  | array element ih =>
    intro name hn
    rcases List.mem_cons.mp hn with rfl | hn
    · exact .inl (by decide)
    · rw [TypeExpr.namesOfEach, TypeExpr.namesOfEach, List.append_nil] at hn
      exact ih name hn

/-- An annotation has the names of builtin types, and of the record that its field leads to. -/
private theorem names_attributeOf (claimed : Text) (field : Field) :
    ∀ name ∈ (attributeOf claimed field).type.names,
      name ∈ builtinTypes ∨ field.type.target? = some name := by
  intro name hn
  rw [attributeOf] at hn
  dsimp only at hn
  split at hn
  · rcases List.mem_cons.mp hn with rfl | hn
    · exact .inl (by decide)
    · rw [TypeExpr.namesOfEach, TypeExpr.namesOfEach, List.append_nil] at hn
      exact names_typeExpr field.type name hn
  · exact names_typeExpr field.type name hn

end Annotations

/-- Classes whose attributes have distinct names, none of them in use in every class body, and the name
of a class only where lowering does not change it; and whose annotations have the names of builtin types
and of earlier classes. -/
structure IsScoped (classes : List Dataclass) : Prop where
  distinct : ∀ declared ∈ classes, (declared.attributes.map (·.name)).Nodup
  unreserved : ∀ declared ∈ classes, ∀ attr ∈ declared.attributes, attr.name ∉ reservedAttributes
  unshadowed : ∀ declared ∈ classes, ∀ attr ∈ declared.attributes, ∀ other ∈ classes,
    Text.lower other.name ≠ other.name → attr.name ≠ other.name
  apart : ∀ declared ∈ classes, declared.name ∉ builtinTypes
  earlier : ∀ before declared after, classes = before ++ declared :: after →
    ∀ attr ∈ declared.attributes, ∀ name ∈ attr.type.names,
      name ∈ builtinTypes ∨ name ∈ before.map (·.name)

private theorem builtinTypes_small : ∀ name ∈ builtinTypes, ¬ Naming.IsHeaded name := by
  rintro name hn ⟨c, rest, rfl, small⟩
  have first : ∀ builtin ∈ builtinTypes, ∀ c ∈ builtin.head?, Text.IsSmall c := by decide
  exact small (first _ hn c rfl)

private theorem exists_field {record : RecordType} {attr : Attribute}
    (h : attr ∈ (dataclassOf record).attributes) :
    ∃ claimed ∈ attributeNames record.fields, ∃ field ∈ record.fields,
      attr = attributeOf claimed field := by
  rw [attributes_eq] at h
  obtain ⟨⟨claimed, field⟩, hin, rfl⟩ := List.mem_map.mp h
  exact ⟨claimed, (List.of_mem_zip hin).1, field, (List.of_mem_zip hin).2, rfl⟩

/-- The dataclasses of records in layers, named by identifiers, are well scoped. -/
theorem isScoped_of_layered {records : List RecordType} (layered : Layered records)
    (named : ∀ record ∈ records, ∃ text, IsNameOf text record.name) :
    IsScoped (records.map dataclassOf) where
  distinct := by
    simp only [List.forall_mem_map, names_attributes]
    exact fun record _ => nodup_attributeNames record.fields
  unreserved := by
    simp only [List.forall_mem_map]
    intro record _ attr ha
    obtain ⟨claimed, hc, field, -, rfl⟩ := exists_field ha
    exact attributeNames_unreserved claimed hc
  unshadowed := by
    simp only [List.forall_mem_map]
    intro record _ attr ha other _ changed he
    obtain ⟨claimed, hc, field, -, rfl⟩ := exists_field ha
    have hlow := Text.lower_eq_self (isLowered_attributeNames claimed hc)
    rw [show claimed = other.name from he] at hlow
    exact changed hlow
  apart := by
    simp only [List.forall_mem_map]
    intro record hr hin
    obtain ⟨text, hname⟩ := named record hr
    exact builtinTypes_small _ hin hname.isHeaded
  earlier := by
    intro before declared after split attr ha name hn
    obtain ⟨first, others, rfl, rfl, hrest⟩ := List.map_eq_append_iff.mp split
    obtain ⟨record, last, rfl, rfl, -⟩ := List.map_eq_cons_iff.mp hrest
    obtain ⟨claimed, -, field, hf, rfl⟩ := exists_field ha
    refine (names_attributeOf claimed field name hn).imp_right fun ht => ?_
    have upTo : Layered (first ++ [record]) := layered.of_prefix ⟨last, by simp⟩
    rw [List.map_map]
    exact upTo.mem_before (mem_targetsOf.mpr ⟨field, hf, ht⟩)

end Emission

end Specimen
