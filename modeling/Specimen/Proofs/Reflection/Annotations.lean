import Specimen.Loading.Dataclass
import Specimen.Projection.Reading
import Specimen.Reflection.Evaluation
import Specimen.Schema.Record

/-! What emitted annotations denote, and what is made of it: following strings leaves such types as they
are, and reading one gives the type of its field. -/
namespace Specimen

/-- The class of the values of a scalar kind. -/
def Scalar.standardClass : Scalar → StandardClass
  | .boolean => .bool
  | .integer => .int
  | .float => .float
  | .string => .str

/-- What a type denotes, where these names are bound. -/
inductive TypeRef.Denotes (names : Bindings) : TypeRef → Referent → Prop
  | null : Denotes names .null .any
  | any : Denotes names .any .any
  | scalar (kind : Scalar) : Denotes names (.scalar kind) (.standard kind.standardClass)
  | object {name : Text} {index : Nat} (bound : List.lookup name names = some (.cls (.declared index))) :
    Denotes names (.object name) (.cls (.declared index))
  | array {element : TypeRef} {d : Referent} (items : Denotes names element d) :
    Denotes names (.array element) (.generic false (.standard .list) [d])

/-- What the annotation of a field denotes, where these names are bound. -/
inductive Field.Denotes (names : Bindings) (field : Field) : Referent → Prop
  | required {d : Referent} (given : field.optional = false) (type : field.type.Denotes names d) :
    Denotes names field d
  | optional {d : Referent} (omitted : field.optional = true) (type : field.type.Denotes names d) :
    Denotes names field (.union false [d, .noneType])

namespace TypeRef

/-- The type of what a field shows: for an array that of its items. -/
def shown : TypeRef → TypeRef
  | .array element => element
  | type => type

namespace Denotes
variable {names : Bindings} {type : TypeRef} {d : Referent}

theorem compare_self (h : type.Denotes names d) (agree : Nat → Nat → Bool) :
    Referent.compare agree d d = .ok true := by
  induction h with
  | null | any => rfl
  | scalar kind => cases kind <;> rfl
  | object => simp [Referent.compare]
  | array _ ih =>
    rw [Referent.compare, Referent.compareList, ih]
    rfl

theorem replace_self (h : type.Denotes names d) (world : World)
    (find : TypeExpr → Bool → Nat → Evaluator Referent) : d.replace world find = pure d := by
  induction h with
  | null | any | object => rfl
  | scalar kind => cases kind <;> rfl
  | array _ ih => simp only [Referent.replace, Referent.replaceAll, ih, pure_bind]

private theorem not_isNoneType (h : type.Denotes names d) : d.isNoneType = false := by
  cases h with
  | scalar kind => cases kind <;> rfl
  | _ => rfl

private theorem strip_self (h : type.Denotes names d) : d.strip = (d, false) := by
  cases h <;> rfl

private theorem strip_optional (h : type.Denotes names d) :
    (Referent.union false [d, .noneType]).strip = (d, true) := by
  have members : Referent.stripMembers [d, .noneType] = ([(d, false)], true) := by
    rw [Referent.stripMembers, h.not_isNoneType, h.strip_self]
    rfl
  rw [Referent.strip, members]
  rfl

private theorem element_list (h : type.Denotes names d) :
    (Referent.generic false (.standard .list) [d]).element = d := by
  cases h <;> rfl

/-- What a type denotes is read as a collection exactly for an array, and its items are shown then. -/
private theorem exists_shown (h : type.Denotes names d) (optional : Bool) :
    ∃ item, type.shown.Denotes names item ∧
      (if d.isCollection then ⟨d.element, true, optional⟩ else ⟨d, false, optional⟩ : Referent.Reading) =
        ⟨item, type.isArray, optional⟩ := by
  cases h with
  | null => exact ⟨_, .null, rfl⟩
  | any => exact ⟨_, .any, rfl⟩
  | scalar kind => exact ⟨_, .scalar kind, by cases kind <;> rfl⟩
  | object bound => exact ⟨_, .object bound, rfl⟩
  | array items => exact ⟨_, items, congrArg (Referent.Reading.mk · true optional) items.element_list⟩

theorem ne_text (h : type.Denotes names d) (expr : TypeExpr) : d ≠ .text expr := by
  rintro rfl
  cases h

theorem roleOf_eq (h : type.Denotes names d) : Dataclass.roleOf d = some .regular := by
  cases h with
  | scalar kind => cases kind <;> rfl
  | _ => rfl

theorem not_isStatic (h : type.Denotes names d) : d.isStatic = false := by
  cases h <;> rfl

theorem not_isUnserialized (h : type.Denotes names d) : d.isUnserialized = false := by
  cases h <;> rfl

end Denotes

end TypeRef

namespace Field.Denotes
variable {names : Bindings} {field : Field} {d : Referent}

theorem ne_text (h : field.Denotes names d) (expr : TypeExpr) : d ≠ .text expr := by
  cases h with
  | required _ type => exact type.ne_text expr
  | optional => nofun

theorem roleOf_eq (h : field.Denotes names d) : Dataclass.roleOf d = some .regular := by
  cases h with
  | required _ type => exact type.roleOf_eq
  | optional => rfl

theorem not_isStatic (h : field.Denotes names d) : d.isStatic = false := by
  cases h with
  | required _ type => exact type.not_isStatic
  | optional => rfl

theorem not_isUnserialized (h : field.Denotes names d) : d.isUnserialized = false := by
  cases h with
  | required _ type => exact type.not_isUnserialized
  | optional => rfl

/-- Reading an annotation gives the type of what the field shows. -/
theorem read_eq (h : field.Denotes names d) : ∃ item, field.type.shown.Denotes names item ∧
    d.read = ⟨item, field.type.isArray, field.optional⟩ := by
  have reading : ∀ {type optional}, d.strip = (type, optional) →
      d.read =
        if type.isCollection then ⟨type.element, true, optional⟩ else ⟨type, false, optional⟩ := by
    intro type optional hstrip
    cases d with
    | text expr => exact absurd rfl (h.ne_text expr)
    | _ =>
      simp only [Referent.read]
      rw [hstrip]
  cases h with
  | required given type =>
    obtain ⟨item, hitem, hread⟩ := type.exists_shown field.optional
    exact ⟨item, hitem, (reading (given ▸ type.strip_self)).trans hread⟩
  | optional omitted type =>
    obtain ⟨item, hitem, hread⟩ := type.exists_shown field.optional
    exact ⟨item, hitem, (reading (omitted ▸ type.strip_optional)).trans hread⟩

end Field.Denotes

end Specimen
