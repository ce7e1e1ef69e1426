import Specimen.Inference.Shape

/-! Shapes with their optional marks settled: a field of which only nulls were observed counts as
optional. Settling before a merge and settling after it are the same. -/
namespace Specimen.Shape

mutual

/-- The shape in which a field that was only ever null is marked optional. -/
def settled : Shape → Shape
  | .null => .null
  | .any => .any
  | .scalar kind => .scalar kind
  | .array none => .array none
  | .array (some element) => .array (some (settled element))
  | .object fields => .object (settledFields fields)

def settledFields : List (Text × Shape × Bool) → List (Text × Shape × Bool)
  | [] => []
  | (key, shape, optional) :: rest =>
    (key, settled shape, optional || shape.isNull) :: settledFields rest

end

theorem settledFields_eq_map (fields : List (Text × Shape × Bool)) :
    settledFields fields =
      fields.map fun field => (field.1, field.2.1.settled, field.2.2 || field.2.1.isNull) := by
  induction fields with
  | nil => rfl
  | cons field rest ih => simp [settledFields, ih]

theorem settled_array (element : Option Shape) :
    (Shape.array element).settled = .array (element.map settled) := by
  cases element <;> simp [settled]

private theorem settledFields_append (left right : List (Text × Shape × Bool)) :
    settledFields (left ++ right) = settledFields left ++ settledFields right := by
  simp [settledFields_eq_map]

@[simp] theorem isNull_settled (shape : Shape) : shape.settled.isNull = shape.isNull := by
  cases shape with
  | array element => cases element <;> simp [settled, isNull]
  | _ => simp [settled, isNull]

section Merge
variable (widen : Bool) (path : Text)

@[simp] theorem merge_null_left (b : Shape) : (merge widen path .null b).1 = b := by
  cases b <;> rfl

@[simp] theorem merge_null_right (a : Shape) : (merge widen path a .null).1 = a := by
  cases a with
  | array element => cases element <;> rfl
  | _ => rfl

@[simp] theorem merge_any_left (b : Shape) : (merge widen path .any b).1 = .any := by
  cases b <;> rfl

@[simp] theorem merge_any_right (a : Shape) : (merge widen path a .any).1 = .any := by
  cases a with
  | array element => cases element <;> rfl
  | _ => rfl

theorem merge_scalar (a b : Scalar) :
    (merge widen path (.scalar a) (.scalar b)).1 =
      ((mergeScalars widen a b).map Shape.scalar).getD .any := by
  cases widen <;> cases a <;> cases b <;> rfl

theorem merge_array_none_left (b : Option Shape) :
    (merge widen path (.array none) (.array b)).1 = .array b := rfl

theorem merge_array_none_right (a : Option Shape) :
    (merge widen path (.array a) (.array none)).1 = .array a := by
  cases a <;> rfl

theorem merge_array_some (a b : Shape) :
    (merge widen path (.array (some a)) (.array (some b))).1 =
      .array (some (merge widen (itemPath path) a b).1) := rfl

theorem merge_object (left right : List (Text × Shape × Bool)) :
    (merge widen path (.object left) (.object right)).1 =
      .object ((mergeFields widen path right left).1 ++ onlyRight left right) := rfl

/-- Two shapes are merged to null only when both are null. -/
private theorem isNull_merge (a b : Shape) :
    (merge widen path a b).1.isNull = (a.isNull && b.isNull) := by
  cases a with
  | null => simp [isNull]
  | any => simp [isNull]
  | scalar kind =>
    cases b with
    | scalar other =>
      rw [merge_scalar]
      cases mergeScalars widen kind other <;> rfl
    | _ => simp [merge, disagree, isNull]
  | array element =>
    cases b with
    | array other =>
      cases element <;> cases other <;> simp [merge, isNull]
    | _ => simp [merge, disagree, isNull]
  | object fields => cases b <;> simp [merge, disagree, isNull]

end Merge

theorem lookup_map (key : Text) (names : List Text) (f : Text → Shape × Bool) :
    lookup key (names.map fun name => (name, f name)) =
      if key ∈ names then some (f key) else none := by
  induction names with
  | nil => rfl
  | cons name rest ih =>
    rw [List.map_cons, lookup, ih]
    by_cases h : name = key
    · simp [h]
    · simp [h, Ne.symm h]

theorem mergeFields_map (widen : Bool) (path : Text) (right : List (Text × Shape × Bool))
    (names : List Text) (f : Text → Shape × Bool) :
    (mergeFields widen path right (names.map fun name => (name, f name))).1 =
      names.map fun name => (name, match lookup name right with
        | none => ((f name).1, true)
        | some other => ((merge widen (memberPath path name) (f name).1 other.1).1,
            (f name).2 || other.2 || (f name).1.isNull != other.1.isNull)) := by
  induction names with
  | nil => rfl
  | cons name rest ih =>
    simp only [List.map_cons, mergeFields]
    cases lookup name right <;> simp [ih]

theorem onlyRight_map (left right : List Text) (f g : Text → Shape × Bool) :
    onlyRight (left.map fun name => (name, f name)) (right.map fun name => (name, g name)) =
      (right.filter fun name => !left.contains name).map fun name => (name, (g name).1, true) := by
  simp only [onlyRight, List.filter_map, List.map_map, lookup_map, Function.comp_def]
  congr 1
  apply List.filter_congr
  intro name _
  by_cases h : name ∈ left <;> simp [h]

theorem lookup_settledFields (key : Text) (fields : List (Text × Shape × Bool)) :
    lookup key (settledFields fields) =
      (lookup key fields).map fun field => (field.1.settled, field.2 || field.1.isNull) := by
  induction fields with
  | nil => rfl
  | cons field rest ih =>
    simp only [settledFields, lookup]
    split
    · rfl
    · exact ih

private theorem onlyRight_settledFields (left right : List (Text × Shape × Bool)) :
    onlyRight (settledFields left) (settledFields right) = settledFields (onlyRight left right) := by
  simp only [onlyRight, settledFields_eq_map, List.filter_map, List.map_map]
  simp only [← settledFields_eq_map, Function.comp_def, lookup_settledFields, Option.isNone_map,
    Bool.true_or]

mutual

/-- Settling commutes with merging. -/
theorem settled_merge (widen : Bool) (path : Text) : ∀ a b : Shape,
    (merge widen path a b).1.settled = (merge widen path a.settled b.settled).1
  | .null, b => by simp [settled]
  | .any, b => by simp [settled]
  | .scalar kind, b => by
    cases b with
    | scalar other =>
      rw [settled, settled, merge_scalar]
      cases mergeScalars widen kind other <;> rfl
    | array element => cases element <;> simp [merge, settled, disagree]
    | _ => simp [merge, settled, disagree]
  | .array none, b => by
    cases b with
    | array element => cases element <;> simp [merge, settled]
    | _ => simp [merge, settled, disagree]
  | .array (some element), b => by
    cases b with
    | array other =>
      cases other with
      | none => simp [merge, settled]
      | some other =>
        simp only [merge_array_some, settled]
        rw [settled_merge widen (itemPath path) element other]
    | _ => simp [merge, settled, disagree]
  | .object fields, b => by
    cases b with
    | object others =>
      simp only [merge_object, settled, settledFields_append, onlyRight_settledFields]
      rw [settled_mergeFields widen path others fields]
    | array element => cases element <;> simp [merge, settled, disagree]
    | _ => simp [merge, settled, disagree]

private theorem settled_mergeFields (widen : Bool) (path : Text)
    (right : List (Text × Shape × Bool)) : ∀ left : List (Text × Shape × Bool),
    settledFields (mergeFields widen path right left).1 =
      (mergeFields widen path (settledFields right) (settledFields left)).1
  | [] => by simp [mergeFields, settledFields]
  | (key, shape, optional) :: rest => by
    have ih := settled_mergeFields widen path right rest
    simp only [settledFields, mergeFields, lookup_settledFields]
    cases lookup key right with
    | none => simp [settledFields, ih]
    | some other =>
      have hm := settled_merge widen (memberPath path key) shape other.1
      simp only [Option.map_some, settledFields, ih, hm, isNull_merge, isNull_settled]
      congr 3
      cases shape.isNull <;> cases other.1.isNull <;> cases optional <;> cases other.2 <;> rfl

end

end Specimen.Shape
