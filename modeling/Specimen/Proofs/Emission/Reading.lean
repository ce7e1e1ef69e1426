import Specimen.Proofs.Emission.Quoting
import Specimen.Proofs.Emission.Scoping
import Specimen.Proofs.Text.Pieces

/-! The lines of attributes read back. A line tells the key of its field, the type, and whether the field is
optional. -/
namespace Specimen

theorem Emission.unlines_cons (line : Text) {rest : List Text} (filled : rest ≠ []) :
    unlines (line :: rest) = line ++ 0x0A :: unlines rest := by
  obtain ⟨next, more, rfl⟩ := List.exists_cons_of_ne_nil filled
  simp [unlines]

/-- The pieces between line ends are the lines, and nothing behind the last one. -/
theorem Emission.splitOn_unlines {lines : List Text} (filled : lines ≠ []) (h : ∀ line ∈ lines, 0x0A ∉ line) :
    List.splitOn 0x0A (unlines lines) = lines ++ [[]] := by
  induction lines with
  | nil => exact absurd rfl filled
  | cons line rest ih =>
    obtain ⟨hline, hrest⟩ := List.forall_mem_cons.mp h
    cases rest with
    | nil =>
      rw [unlines, List.intercalate_singleton]
      exact List.splitOn_append_cons_self_of_not_mem hline []
    | cons next rest =>
      rw [unlines_cons line (by simp), List.splitOn_append_cons_self_of_not_mem hline, ih (by simp) hrest]
      rfl

namespace Emission
open Json (stringLiteral escaped)

/-- The rest of a text behind a beginning, if it begins so. -/
def behind? (beginning text : Text) : Option Text :=
  if beginning.isPrefixOf text then some (text.drop beginning.length) else none

/-- What a text has between a beginning and an ending. -/
def between? (beginning ending text : Text) : Option Text :=
  (behind? beginning text).bind fun rest => (behind? ending.reverse rest.reverse).map List.reverse

theorem behind?_append (beginning rest : Text) : behind? beginning (beginning ++ rest) = some rest := by
  simp [behind?]

theorem between?_append (beginning inner ending : Text) :
    between? beginning ending (beginning ++ inner ++ ending) = some inner := by
  rw [between?, List.append_assoc, behind?_append, Option.bind_some, List.reverse_append, behind?_append]
  simp

theorem eq_of_behind? {beginning text rest : Text} (h : behind? beginning text = some rest) :
    text = beginning ++ rest := by
  rw [behind?] at h
  split at h
  · rename_i begins
    obtain ⟨more, rfl⟩ := List.isPrefixOf_iff_prefix.mp begins
    simpa using h
  · cases h

private theorem length_of_between? {beginning ending text inner : Text}
    (h : between? beginning ending text = some inner) :
    text.length = beginning.length + inner.length + ending.length := by
  obtain ⟨rest, hrest, hinner⟩ := Option.bind_eq_some_iff.mp h
  obtain ⟨reversed, hreversed, rfl⟩ := Option.map_eq_some_iff.mp hinner
  have := congrArg List.length (eq_of_behind? hreversed)
  rw [eq_of_behind? hrest]
  simp only [List.length_append, List.length_reverse] at this ⊢
  omega

/-- The types that are written by their names. -/
def builtins : List (Text × TypeRef) :=
  [("bool", .scalar .boolean), ("int", .scalar .integer), ("float", .scalar .float), ("str", .scalar .string),
    ("typing.Any", .any)]

/-- The type that an annotation is written for. -/
def readType (written : Text) : TypeRef :=
  match builtins.find? (·.1 = written) with
  | some (_, type) => type
  | none => match _h : between? "typing.List[" "]" written with
    | some element => .array (readType element)
    | none => .object written
termination_by written.length
decreasing_by
  have := length_of_between? _h
  simp only [show ("typing.List[" : Text).length = 12 from rfl] at this
  omega

/-- What an attribute of a dataclass tells of a field. -/
structure Entry where
  key : Text
  type : TypeRef
  optional : Bool
  deriving DecidableEq, Repr

/-- What the line of an attribute tells. -/
def readField (line : Text) : Option Entry := do
  let rest ← behind? indent line
  let rest ← behind? ": " (rest.dropWhile (· ≠ 0x3A))
  let written := rest.takeWhile (· ≠ 0x20)
  let rest ← behind? " = dataclasses.field(" (rest.dropWhile (· ≠ 0x20))
  let optional := (behind? "default=None, " rest).isSome
  let rest ← behind? "metadata=\x7b\"json\": \"" ((behind? "default=None, " rest).getD rest)
  let (key, rest) ← readString 0 rest
  if rest ≠ ("\x7d)" : Text) then none
  let written ← if optional then between? "typing.Optional[" "]" written else some written
  return ⟨key, readType written, optional⟩

section Types
variable {name : Text}

private theorem readType_builtin {type : TypeRef} (h : (name, type) ∈ builtins) : readType name = type := by
  simp only [builtins, List.mem_cons, Prod.mk.injEq, List.not_mem_nil, or_false] at h
  rcases h with ⟨rfl, rfl⟩ | ⟨rfl, rfl⟩ | ⟨rfl, rfl⟩ | ⟨rfl, rfl⟩ | ⟨rfl, rfl⟩ <;> rw [readType] <;> rfl

private theorem readType_object (headed : Naming.IsHeaded name) : readType name = .object name := by
  obtain ⟨c, rest, rfl, small⟩ := headed
  have other {letter : CodePoint} (h : Text.IsSmall letter) : (letter = c) = False :=
    eq_false fun he => small (he ▸ h)
  have unnamed : builtins.find? (·.1 = c :: rest) = none := by
    simp (disch := decide) [builtins, Text.ofString, other]
  have plain : between? "typing.List[" "]" (c :: rest) = none := by
    simp (disch := decide) [between?, behind?, Text.ofString, other]
  rw [readType, unnamed]
  simp only
  split
  · rename_i h
    rw [plain] at h
    cases h
  · rfl

private theorem readType_list (element : Text) :
    readType ("typing.List[" ++ element ++ "]") = .array (readType element) := by
  have other : builtins.find? (·.1 = ("typing.List[" ++ element ++ "]" : Text)) = none := by
    simp [builtins, Text.ofString]
  rw [readType, other]
  simp only
  split
  · rename_i h
    rw [between?_append] at h
    cases h
    rfl
  · rename_i h
    rw [between?_append] at h
    cases h

private theorem text_typeExpr_array (element : TypeRef) :
    (typeExpr (.array element)).text = "typing.List[" ++ (typeExpr element).text ++ "]" := by
  show ("typing.List" : Text) ++ "[" ++ List.intercalate ", " [(typeExpr element).text] ++ "]" = _
  rw [List.intercalate_singleton]
  rfl

/-- The text of an annotation is read as the type that it is written for. -/
private theorem readType_text {type : TypeRef} (typed : type.innermost ≠ .null)
    (headed : ∀ name, type.target? = some name → Naming.IsHeaded name) :
    readType (typeExpr type).text = type := by
  induction type with
  | null => exact absurd rfl typed
  | any => exact readType_builtin (by decide)
  | scalar kind => cases kind <;> exact readType_builtin (by decide)
  | object name => exact readType_object (headed name rfl)
  | array element ih => rw [text_typeExpr_array, readType_list, ih typed headed]

/-- The texts around the names in annotations. -/
def annotationParts : List Text :=
  ["typing.Any", "bool", "int", "float", "str", "typing.List[", "typing.Optional[", "]"]

/-- What holds of the characters of names and of the parts around them holds of those of annotations. -/
theorem forall_mem_text {p : CodePoint → Prop} (parts : ∀ part ∈ annotationParts, ∀ c ∈ part, p c)
    {type : TypeRef} (named : ∀ name, type.target? = some name → ∀ c ∈ name, p c) :
    ∀ c ∈ (typeExpr type).text, p c := by
  induction type with
  | null | any => exact parts "typing.Any" (by decide)
  | scalar kind => cases kind <;> exact parts _ (by decide)
  | object name => exact named name rfl
  | array element ih =>
    rw [text_typeExpr_array]
    intro c hc
    simp only [List.mem_append] at hc
    rcases hc with (hc | hc) | hc
    · exact parts _ (by decide) c hc
    · exact ih named c hc
    · exact parts _ (by decide) c hc

end Types

section Fields
variable {claimed : Text} {field : Field}

/-- A type that is written by names that can be told apart: no null type, and identifiers for records. -/
structure IsWritten (type : TypeRef) : Prop where
  typed : type.innermost ≠ .null
  named : ∀ name, type.target? = some name → ∃ text, Naming.IsNameOf text name

/-- The annotation of a field. -/
def annotationOf (field : Field) : Text :=
  if field.optional then "typing.Optional[" ++ (typeExpr field.type).text ++ "]"
  else (typeExpr field.type).text

private theorem text_attributeOf (claimed : Text) (field : Field) :
    (attributeOf claimed field).type.text = annotationOf field := by
  rw [attributeOf, annotationOf]
  cases field.optional with
  | false => rfl
  | true =>
    show ("typing.Optional" : Text) ++ "[" ++ List.intercalate ", " [(typeExpr field.type).text] ++ "]" = _
    rw [List.intercalate_singleton]
    rfl

theorem plain_annotationOf (written : IsWritten field.type) :
    ∀ c ∈ annotationOf field, c ≠ 0x20 ∧ c ≠ 0x0A := by
  have parts : ∀ part ∈ annotationParts, ∀ c ∈ part, c ≠ 0x20 ∧ c ≠ 0x0A := by decide
  have inner : ∀ c ∈ (typeExpr field.type).text, c ≠ 0x20 ∧ c ≠ 0x0A := by
    refine forall_mem_text parts fun name hn c hc => ?_
    obtain ⟨text, hname⟩ := written.named name hn
    have misses := hname.misses Text.gap_controls (by decide) c hc
    constructor <;> rintro rfl <;> exact absurd misses (by decide)
  rw [annotationOf]
  split
  · intro c hc
    simp only [List.mem_append] at hc
    rcases hc with (hc | hc) | hc
    · exact parts _ (by decide) c hc
    · exact inner c hc
    · exact parts _ (by decide) c hc
  · exact inner

/-- The line of an attribute, part by part. -/
theorem line_attributeOf (claimed : Text) (field : Field) : (attributeOf claimed field).line =
    indent ++ (claimed ++ 0x3A :: 0x20 :: (annotationOf field ++ 0x20 :: (("= dataclasses.field(" : Text) ++
      ((if field.optional then ("default=None, " : Text) else []) ++ (("metadata=\x7b\"json\": \"" : Text) ++
        (field.key.flatMap escaped ++ 0x22 :: ("\x7d)" : Text))))))) := by
  have optional : (attributeOf claimed field).optional = field.optional := rfl
  have name : (attributeOf claimed field).name = claimed := rfl
  have key : (attributeOf claimed field).key = field.key := rfl
  rw [Attribute.line, text_attributeOf, optional, name, key, stringLiteral, stringLiteral]
  simp only [List.append_assoc, List.cons_append]
  rfl

/-- The line of an attribute is read as what it tells of its field. -/
theorem readField_line (plain : 0x3A ∉ claimed) (written : IsWritten field.type) :
    readField (attributeOf claimed field).line = some ⟨field.key, field.type, field.optional⟩ := by
  have colon (rest : Text) : behind? ": " (0x3A :: 0x20 :: rest) = some rest := behind?_append ": " rest
  have equals (rest : Text) :
      behind? " = dataclasses.field(" (0x20 :: (("= dataclasses.field(" : Text) ++ rest)) = some rest :=
    behind?_append " = dataclasses.field(" rest
  have type := readType_text written.typed fun name hn => (written.named name hn).choose_spec.isHeaded
  have blank : 0x20 ∉ annotationOf field := fun hin => (plain_annotationOf written _ hin).1 rfl
  rw [readField, line_attributeOf, behind?_append]
  simp only [Option.bind_eq_bind, Option.bind_some, dropWhile_ne plain, colon, dropWhile_ne blank,
    takeWhile_ne blank, equals]
  cases hopt : field.optional with
  | false =>
    have none : behind? "default=None, " (("metadata=\x7b\"json\": \"" : Text) ++
        (field.key.flatMap escaped ++ 0x22 :: ("\x7d)" : Text))) = none := rfl
    simp [none, behind?_append, readString_stringLiteral, annotationOf, hopt, type]
  | true =>
    have inner : between? "typing.Optional[" "]" (annotationOf field) = some (typeExpr field.type).text := by
      rw [annotationOf, if_pos hopt, between?_append]
    simp [behind?_append, readString_stringLiteral, inner, type]

end Fields

end Emission

end Specimen
