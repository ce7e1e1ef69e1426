import Specimen.Proofs.Inference.Settled
import Specimen.Proofs.Json.Names

/-! The shape of several values read off all of them at once, and its agreement with merging their
shapes one after the other. -/
namespace Specimen.Shape
open Json (Document)

/-- What is looked at first in a value that is not null. -/
inductive Kind where
  | scalar (kind : Scalar)
  | array
  | object
  deriving DecidableEq, Repr

namespace Kind

/-- The kind of a value; null has none. -/
def of? : Document → Option Kind
  | .null => none
  | .bool _ => some (.scalar .boolean)
  | .number literal => some (.scalar (if Json.isIntegral literal then .integer else .float))
  | .string _ => some (.scalar .string)
  | .array _ => some .array
  | .object _ => some .object

def isNumber (kind : Kind) : Bool := kind = .scalar .integer || kind = .scalar .float

end Kind

/-- What the values of a position have in common. -/
inductive Common where
  | nothing
  | all (kind : Kind)
  | mixed
  deriving DecidableEq, Repr

namespace Common

/-- All of one kind, or numbers of both kinds where they widen. -/
def ofKinds (widen : Bool) : List Kind → Common
  | [] => .nothing
  | kind :: rest =>
    if rest.all (· = kind) then .all kind
    else if widen && (kind :: rest).all Kind.isNumber then .all (.scalar .float)
    else .mixed

/-- What the values have in common, nulls left out. -/
def of (widen : Bool) (values : List Document) : Common :=
  ofKinds widen (values.filterMap Kind.of?)

/-- What two groups of values have in common together. -/
def join (widen : Bool) : Common → Common → Common
  | .nothing, b => b
  | a, .nothing => a
  | .all a, .all b =>
    if a = b then .all a
    else if widen && a.isNumber && b.isNumber then .all (.scalar .float)
    else .mixed
  | _, _ => .mixed

private theorem join_assoc (widen : Bool) (a b c : Common) :
    join widen (join widen a b) c = join widen a (join widen b c) := by
  cases a <;> cases b <;> cases c <;> grind [join, Kind.isNumber]

private theorem ofKinds_cons (widen : Bool) (kind : Kind) (kinds : List Kind) :
    ofKinds widen (kind :: kinds) = join widen (.all kind) (ofKinds widen kinds) := by
  cases kinds with
  | nil => rfl
  | cons other rest =>
    simp only [ofKinds, List.all_cons]
    by_cases he : other = kind
    · subst he
      grind [join, Kind.isNumber]
    · grind [join, Kind.isNumber]

private theorem ofKinds_append (widen : Bool) (left right : List Kind) :
    ofKinds widen (left ++ right) = join widen (ofKinds widen left) (ofKinds widen right) := by
  induction left with
  | nil => simp [ofKinds, join]
  | cons kind rest ih => rw [List.cons_append, ofKinds_cons, ih, ofKinds_cons, join_assoc]

private theorem of_append (widen : Bool) (left right : List Document) :
    of widen (left ++ right) = join widen (of widen left) (of widen right) := by
  rw [of, List.filterMap_append, ofKinds_append, of, of]

/-- Each kind among those in common is the common one, unless numbers were widened. -/
theorem kind_of_all {widen : Bool} {values : List Document} {common : Kind}
    (h : of widen values = .all common) {value : Document} (hv : value ∈ values) {kind : Kind}
    (hk : Kind.of? value = some kind) :
    kind = common ∨ widen = true ∧ common = .scalar .float ∧ kind.isNumber = true := by
  have hm : kind ∈ values.filterMap Kind.of? := List.mem_filterMap.mpr ⟨value, hv, hk⟩
  rw [of] at h
  cases hl : values.filterMap Kind.of? with
  | nil => simp [hl] at hm
  | cons first rest =>
    rw [hl] at h hm
    rw [ofKinds] at h
    split at h
    · rename_i same
      cases Common.all.inj h
      rcases List.mem_cons.mp hm with rfl | hm
      · exact .inl rfl
      · exact .inl (by simpa using List.all_eq_true.mp same kind hm)
    · split at h
      · rename_i numbers
        obtain ⟨hw, hn⟩ := Bool.and_eq_true_iff.mp numbers
        exact .inr ⟨hw, (Common.all.inj h).symm, List.all_eq_true.mp hn kind hm⟩
      · cases h

end Common

/-- The items of an array; other values have none. -/
def itemsIn : Document → List Document
  | .array items => items
  | _ => []

/-- The members of an object; other values have none. -/
def membersIn : Document → List (Text × Document)
  | .object members => members
  | _ => []

/-- The items of all arrays, in order. -/
def itemsOf (values : List Document) : List Document := values.flatMap itemsIn

/-- The names in all objects, each at its first place. -/
def namesOf (values : List Document) : List Text :=
  (values.flatMap fun value => Json.Value.names (membersIn value)).eraseDups

/-- The values of a name in all objects, in order. -/
def valuesAt (name : Text) (values : List Document) : List Document :=
  values.filterMap fun value => Json.Value.get? (membersIn value) name

/-- Whether some object lacks the name or holds null for it. -/
def isMissing (name : Text) (values : List Document) : Bool :=
  values.any fun value => Kind.of? value = some .object &&
    (Json.Value.get? (membersIn value) name).all fun value => Kind.of? value = none

private theorem depth_itemsOf {values : List Document} {item : Document}
    (h : item ∈ itemsOf values) : item.depth < Json.Value.depthOfItems values := by
  obtain ⟨value, hv, hi⟩ := List.mem_flatMap.mp h
  have hle := Json.Value.depthOfItems_le.mp (Nat.le_refl _) value hv
  cases value with
  | array items =>
    have := Json.Value.depthOfItems_le.mp (Nat.le_refl (Json.Value.depthOfItems items)) item hi
    rw [Json.Value.depth] at hle
    omega
  | _ => simp [itemsIn] at hi

private theorem depth_valuesAt {name : Text} {values : List Document} {inner : Document}
    (h : inner ∈ valuesAt name values) : inner.depth < Json.Value.depthOfItems values := by
  obtain ⟨value, hv, hi⟩ := List.mem_filterMap.mp h
  have hle := Json.Value.depthOfItems_le.mp (Nat.le_refl _) value hv
  cases value with
  | object members =>
    obtain ⟨member, hm, rfl⟩ := Option.map_eq_some_iff.mp hi
    have := Json.Value.depthOfMembers_le.mp (Nat.le_refl (Json.Value.depthOfMembers members)) member
      (List.mem_of_find?_eq_some hm)
    rw [Json.Value.depth] at hle
    omega
  | _ => simp [membersIn, Json.Value.get?] at hi

private theorem depthOfItems_lt {bound : Nat} {items : List Document} (hne : items ≠ [])
    (h : ∀ item ∈ items, item.depth < bound) : Json.Value.depthOfItems items < bound := by
  obtain ⟨item, rest, rfl⟩ := List.exists_cons_of_ne_nil hne
  have hb := h item List.mem_cons_self
  have := Json.Value.depthOfItems_le.mpr fun other ho => Nat.le_sub_one_of_lt (h other ho)
  omega

theorem valuesAt_ne_nil {name : Text} {values : List Document}
    (h : name ∈ namesOf values) : valuesAt name values ≠ [] := by
  rw [namesOf, List.mem_eraseDups, List.mem_flatMap] at h
  obtain ⟨value, hv, hn⟩ := h
  cases hg : Json.Value.get? (membersIn value) name with
  | none => exact absurd hn (Json.Value.get?_eq_none_iff.mp hg)
  | some inner => exact List.ne_nil_of_mem (List.mem_filterMap.mpr ⟨value, hv, hg⟩)

/-- The shape of the values of one position, all of them taken together. -/
def ofAll (widen : Bool) (values : List Document) : Shape :=
  match Common.of widen values with
  | .nothing => .null
  | .mixed => .any
  | .all (.scalar kind) => .scalar kind
  | .all .array =>
    .array (if itemsOf values = [] then none else some (ofAll widen (itemsOf values)))
  | .all .object => .object ((namesOf values).attach.map fun ⟨name, _⟩ =>
    (name, ofAll widen (valuesAt name values), isMissing name values))
termination_by Json.Value.depthOfItems values
decreasing_by
  · exact depthOfItems_lt ‹_› fun _ h => depth_itemsOf h
  · exact depthOfItems_lt (valuesAt_ne_nil ‹_›) fun _ h => depth_valuesAt h

theorem ofAll_eq (widen : Bool) (values : List Document) :
    ofAll widen values = match Common.of widen values with
      | .nothing => .null
      | .mixed => .any
      | .all (.scalar kind) => .scalar kind
      | .all .array =>
        .array (if itemsOf values = [] then none else some (ofAll widen (itemsOf values)))
      | .all .object => .object ((namesOf values).map fun name =>
        (name, ofAll widen (valuesAt name values), isMissing name values)) := by
  rw [ofAll]
  split <;> simp

section Inversion
variable {widen : Bool} {values : List Document}

theorem of_ofAll_scalar {kind : Scalar} (h : ofAll widen values = .scalar kind) :
    Common.of widen values = .all (.scalar kind) := by
  rw [ofAll_eq] at h
  split at h
  case h_3 hc => rw [hc, Shape.scalar.inj h]
  all_goals cases h

theorem of_ofAll_array {element : Option Shape} (h : ofAll widen values = .array element) :
    Common.of widen values = .all .array ∧
      element = if itemsOf values = [] then none else some (ofAll widen (itemsOf values)) := by
  rw [ofAll_eq] at h
  split at h
  case h_4 hc => exact ⟨hc, (Shape.array.inj h).symm⟩
  all_goals cases h

theorem of_ofAll_object {fields : List (Text × Shape × Bool)}
    (h : ofAll widen values = .object fields) :
    Common.of widen values = .all .object ∧ fields = (namesOf values).map fun name =>
      (name, ofAll widen (valuesAt name values), isMissing name values) := by
  rw [ofAll_eq] at h
  split at h
  case h_5 hc => exact ⟨hc, (Shape.object.inj h).symm⟩
  all_goals cases h

end Inversion

section EraseDups
variable {α : Type} [BEq α] [LawfulBEq α]

private theorem eraseDups_filter (keep : α → Bool) (list : List α) :
    (list.filter keep).eraseDups = list.eraseDups.filter keep := by
  induction h : list.length using Nat.strongRecOn generalizing list with
  | ind n ih =>
    cases list with
    | nil => rfl
    | cons head rest =>
      have hlt : (rest.filter fun b => !b == head).length < n := by
        rw [← h]
        exact Nat.lt_succ_of_le (List.length_filter_le _ _)
      have hrec := ih _ hlt (rest.filter fun b => !b == head) rfl
      rw [List.eraseDups_cons, List.filter_cons, List.filter_cons]
      split
      · rw [List.eraseDups_cons, ← hrec, List.filter_filter, List.filter_filter]
        simp only [Bool.and_comm]
      · rename_i hk
        rw [← hrec, List.filter_filter]
        congr 1
        apply List.filter_congr
        intro b _
        by_cases hb : b = head
        · simp_all
        · simp [hb]

private theorem eraseDups_of_nodup {list : List α} (h : list.Nodup) : list.eraseDups = list := by
  induction list with
  | nil => rfl
  | cons head rest ih =>
    obtain ⟨hout, hrest⟩ := List.nodup_cons.mp h
    rw [List.eraseDups_cons, List.filter_eq_self.mpr, ih hrest]
    intro b hb
    have : b ≠ head := fun he => hout (he ▸ hb)
    simp [this]

private theorem nodup_eraseDups (list : List α) : list.eraseDups.Nodup := by
  induction list with
  | nil => exact List.nodup_nil
  | cons head rest ih =>
    rw [List.eraseDups_cons, eraseDups_filter, List.nodup_cons]
    exact ⟨by simp, ih.sublist List.filter_sublist⟩

end EraseDups

theorem nodup_namesOf (values : List Document) : (namesOf values).Nodup := nodup_eraseDups _

section Append

theorem itemsOf_append (left right : List Document) :
    itemsOf (left ++ right) = itemsOf left ++ itemsOf right := List.flatMap_append

theorem valuesAt_append (name : Text) (left right : List Document) :
    valuesAt name (left ++ right) = valuesAt name left ++ valuesAt name right :=
  List.filterMap_append

private theorem isMissing_append (name : Text) (left right : List Document) :
    isMissing name (left ++ right) = (isMissing name left || isMissing name right) :=
  List.any_append

private theorem namesOf_append (left right : List Document) :
    namesOf (left ++ right) =
      namesOf left ++ (namesOf right).filter fun name => !(namesOf left).contains name := by
  rw [namesOf, List.flatMap_append, List.eraseDups_append, List.removeAll, eraseDups_filter, namesOf,
    namesOf]
  congr 2
  funext name
  rw [Bool.eq_iff_iff]
  simp

theorem mem_namesOf {name : Text} {values : List Document} :
    name ∈ namesOf values ↔ ∃ value ∈ values, name ∈ Json.Value.names (membersIn value) := by
  rw [namesOf, List.mem_eraseDups, List.mem_flatMap]

private theorem valuesAt_eq_nil {name : Text} {values : List Document}
    (h : name ∉ namesOf values) : valuesAt name values = [] := by
  refine List.filterMap_eq_nil_iff.mpr fun value hv => Json.Value.get?_eq_none_iff.mpr fun hn => ?_
  exact h (mem_namesOf.mpr ⟨value, hv, hn⟩)

end Append

section Nulls
variable {widen : Bool} {values : List Document}

theorem of_eq_nothing_iff :
    Common.of widen values = .nothing ↔ ∀ value ∈ values, Kind.of? value = none := by
  rw [← List.filterMap_eq_nil_iff, Common.of]
  cases values.filterMap Kind.of? with
  | nil => simp [Common.ofKinds]
  | cons kind rest =>
    simp only [Common.ofKinds, reduceCtorEq, iff_false]
    split
    · simp
    · split <;> simp

private theorem isNull_ofAll :
    (ofAll widen values).isNull = true ↔ ∀ value ∈ values, Kind.of? value = none := by
  rw [← @of_eq_nothing_iff widen values, ofAll_eq]
  split <;> simp_all [isNull]

private theorem itemsIn_of_null {value : Document} (h : Kind.of? value = none) :
    itemsIn value = [] := by
  cases value <;> simp_all [Kind.of?, itemsIn]

private theorem membersIn_of_null {value : Document} (h : Kind.of? value = none) :
    membersIn value = [] := by
  cases value <;> simp_all [Kind.of?, membersIn]

private theorem nulls_read (h : ∀ value ∈ values, Kind.of? value = none) :
    itemsOf values = [] ∧ namesOf values = [] ∧ (∀ name, valuesAt name values = []) ∧
      ∀ name, isMissing name values = false := by
  have hn : namesOf values = [] := by
    refine List.eq_nil_iff_forall_not_mem.mpr fun name hm => ?_
    obtain ⟨value, hv, hin⟩ := mem_namesOf.mp hm
    simp [membersIn_of_null (h value hv), Json.Value.names] at hin
  refine ⟨?_, hn, fun name => valuesAt_eq_nil (by simp [hn]), fun name => ?_⟩
  · exact List.flatMap_eq_nil_iff.mpr fun value hv => itemsIn_of_null (h value hv)
  · refine List.any_eq_false.mpr fun value hv => ?_
    simp [h value hv]

private theorem ofAll_nulls_left (h : Common.of widen values = .nothing) (right : List Document) :
    ofAll widen (values ++ right) = ofAll widen right := by
  obtain ⟨hi, hn, hv, hm⟩ := nulls_read (of_eq_nothing_iff.mp h)
  have hc : Common.of widen (values ++ right) = Common.of widen right := by
    rw [Common.of_append, h]
    cases Common.of widen right <;> rfl
  have hnames : namesOf (values ++ right) = namesOf right := by
    rw [namesOf_append, hn, List.nil_append]
    exact List.filter_eq_self.mpr fun _ _ => rfl
  rw [ofAll_eq, ofAll_eq widen right, hc, hnames]
  simp [itemsOf_append, valuesAt_append, isMissing_append, hi, hv, hm]

private theorem ofAll_nulls_right (h : Common.of widen values = .nothing) (left : List Document) :
    ofAll widen (left ++ values) = ofAll widen left := by
  obtain ⟨hi, hn, hv, hm⟩ := nulls_read (of_eq_nothing_iff.mp h)
  have hc : Common.of widen (left ++ values) = Common.of widen left := by
    rw [Common.of_append, h]
    cases Common.of widen left <;> rfl
  rw [ofAll_eq, ofAll_eq widen left, hc]
  simp [itemsOf_append, namesOf_append, valuesAt_append, isMissing_append, hi, hn, hv, hm]

end Nulls

private theorem merge_arrays {widen : Bool} {left right : List Document}
    (ih : ∀ path, (merge widen path (ofAll widen (itemsOf left)) (ofAll widen (itemsOf right))).1 =
      ofAll widen (itemsOf left ++ itemsOf right)) (path : Text) :
    (merge widen path
      (.array (if itemsOf left = [] then none else some (ofAll widen (itemsOf left))))
      (.array (if itemsOf right = [] then none else some (ofAll widen (itemsOf right))))).1 =
    .array (if itemsOf (left ++ right) = [] then none
      else some (ofAll widen (itemsOf (left ++ right)))) := by
  rw [itemsOf_append]
  by_cases hl : itemsOf left = []
  · simp [hl, merge_array_none_left]
  · by_cases hr : itemsOf right = []
    · simp [hr, merge_array_none_right]
    · simp [hl, hr, merge_array_some, ih]

private theorem exists_object {widen : Bool} {values : List Document}
    (h : Common.of widen values = .all .object) :
    ∃ value ∈ values, Kind.of? value = some .object := by
  rw [Common.of] at h
  cases hk : values.filterMap Kind.of? with
  | nil => simp [hk, Common.ofKinds] at h
  | cons kind rest =>
    have hkind : kind = .object := by
      rw [hk, Common.ofKinds] at h
      split at h
      · exact Common.all.inj h
      · split at h <;> simp at h
    exact List.mem_filterMap.mp (by rw [hk, hkind]; exact List.mem_cons_self)

private theorem isMissing_iff {name : Text} {values : List Document} :
    isMissing name values = true ↔ ∃ value ∈ values, Kind.of? value = some .object ∧
      ∀ inner, Json.Value.get? (membersIn value) name = some inner → Kind.of? inner = none := by
  simp [isMissing, Option.all_eq_true]

/-- Where no object lacks a name or has null for it, each has a value under it. -/
theorem exists_value {name : Text} {values : List Document} (h : isMissing name values = false)
    {members : List (Text × Document)} (hv : .object members ∈ values) :
    ∃ inner, Json.Value.get? members name = some inner ∧ inner ≠ .null := by
  refine Classical.byContradiction fun habsent => ?_
  rw [isMissing_iff.mpr ⟨_, hv, rfl, fun inner hg => ?_⟩] at h
  · cases h
  · cases inner with
    | null => rfl
    | _ => exact absurd ⟨_, hg, by simp⟩ habsent

private theorem isMissing_of_not_mem {widen : Bool} {name : Text} {values : List Document}
    (hc : Common.of widen values = .all .object) (h : name ∉ namesOf values) :
    isMissing name values = true := by
  obtain ⟨value, hv, hk⟩ := exists_object hc
  refine isMissing_iff.mpr ⟨value, hv, hk, fun inner hg => absurd ?_ h⟩
  refine mem_namesOf.mpr ⟨value, hv, Classical.byContradiction fun hn => ?_⟩
  rw [Json.Value.get?_eq_none_iff.mpr hn] at hg
  cases hg

private theorem isMissing_of_null {widen : Bool} {name : Text} {values : List Document}
    (h : name ∈ namesOf values) (hn : (ofAll widen (valuesAt name values)).isNull = true) :
    isMissing name values = true := by
  obtain ⟨value, hv, hin⟩ := mem_namesOf.mp h
  have hk : Kind.of? value = some .object := by
    cases value <;> simp_all [membersIn, Json.Value.names, Kind.of?]
  refine isMissing_iff.mpr ⟨value, hv, hk, fun inner hg => ?_⟩
  exact isNull_ofAll.mp hn inner (List.mem_filterMap.mpr ⟨value, hv, hg⟩)

private theorem marks_absorb (a b left right : Bool) (ha : a = true → left = true)
    (hb : b = true → right = true) : (left || right || a != b) = (left || right) := by
  cases a <;> cases b <;> simp_all

private theorem merge_objects {widen : Bool} {left right : List Document}
    (hl : Common.of widen left = .all .object) (hr : Common.of widen right = .all .object)
    (ih : ∀ name ∈ namesOf (left ++ right), ∀ path,
      (merge widen path (ofAll widen (valuesAt name left)) (ofAll widen (valuesAt name right))).1 =
        ofAll widen (valuesAt name left ++ valuesAt name right)) (path : Text) :
    (merge widen path
      (.object ((namesOf left).map fun name =>
        (name, ofAll widen (valuesAt name left), isMissing name left)))
      (.object ((namesOf right).map fun name =>
        (name, ofAll widen (valuesAt name right), isMissing name right)))).1 =
    .object ((namesOf (left ++ right)).map fun name =>
      (name, ofAll widen (valuesAt name (left ++ right)), isMissing name (left ++ right))) := by
  rw [merge_object, mergeFields_map, onlyRight_map, namesOf_append, List.map_append]
  congr 2
  · apply List.map_congr_left
    intro name hn
    have hin : name ∈ namesOf (left ++ right) := by simp [namesOf_append, hn]
    rw [lookup_map, valuesAt_append, isMissing_append]
    by_cases hm : name ∈ namesOf right
    · simp only [if_pos hm, ih name hin]
      rw [marks_absorb _ _ _ _ (isMissing_of_null hn) (isMissing_of_null hm)]
    · simp [hm, valuesAt_eq_nil hm, isMissing_of_not_mem hr hm]
  · apply List.map_congr_left
    intro name hn
    obtain ⟨hm, hout⟩ := List.mem_filter.mp hn
    have hout' : name ∉ namesOf left := by simpa using hout
    rw [valuesAt_append, isMissing_append, valuesAt_eq_nil hout', isMissing_of_not_mem hl hout']
    simp

/-- The shape of two groups of values is that of all of them. -/
private theorem merge_ofAll (widen : Bool) (path : Text) (left right : List Document) :
    (merge widen path (ofAll widen left) (ofAll widen right)).1 = ofAll widen (left ++ right) := by
  induction h : Json.Value.depthOfItems (left ++ right) using Nat.strongRecOn
    generalizing path left right with
  | ind n ih =>
    have hc := Common.of_append widen left right
    cases hl : Common.of widen left with
    | nothing =>
      rw [ofAll_nulls_left hl, ofAll_eq widen left, hl]
      simp
    | mixed =>
      rw [ofAll_eq widen left, ofAll_eq widen (left ++ right), hc, hl]
      cases Common.of widen right <;> simp [Common.join]
    | all kind =>
      cases hr : Common.of widen right with
      | nothing =>
        rw [ofAll_nulls_right hr, ofAll_eq widen right, hr]
        simp
      | mixed =>
        rw [ofAll_eq widen right, ofAll_eq widen (left ++ right), hc, hl, hr]
        simp [Common.join]
      | all other =>
        rw [ofAll_eq widen left, ofAll_eq widen right, ofAll_eq widen (left ++ right), hc, hl, hr]
        cases kind with
        | scalar a =>
          cases other with
          | scalar b =>
            rw [merge_scalar]
            cases widen <;> cases a <;> cases b <;> rfl
          | array => simp [merge, disagree, Common.join, Kind.isNumber]
          | object => simp [merge, disagree, Common.join, Kind.isNumber]
        | array =>
          cases other with
          | array =>
            simp only [Common.join, if_true]
            by_cases hi : itemsOf (left ++ right) = []
            · rw [itemsOf_append, List.append_eq_nil_iff] at hi
              simp [hi.1, hi.2, itemsOf_append, merge_array_none_left]
            · refine merge_arrays (fun path => ?_) path
              have hlt := depthOfItems_lt hi fun _ hm => depth_itemsOf hm
              rw [h, itemsOf_append] at hlt
              exact ih _ hlt path _ _ rfl
          | scalar b => cases itemsOf left <;> simp [merge, disagree, Common.join, Kind.isNumber]
          | object => cases itemsOf left <;> simp [merge, disagree, Common.join, Kind.isNumber]
        | object =>
          cases other with
          | object =>
            simp only [Common.join, if_true]
            refine merge_objects hl hr (fun name hn path => ?_) path
            have hlt := depthOfItems_lt (valuesAt_ne_nil hn) fun _ hm => depth_valuesAt hm
            rw [h, valuesAt_append] at hlt
            exact ih _ hlt path _ _ rfl
          | scalar b => simp [merge, disagree, Common.join, Kind.isNumber]
          | array => simp [merge, disagree, Common.join, Kind.isNumber]

section Singleton
variable (widen : Bool)

private theorem ofAll_null : ofAll widen [.null] = .null := by
  have h : Common.of widen [.null] = .nothing := rfl
  rw [ofAll_eq, h]

private theorem ofAll_scalar {document : Document} {kind : Scalar}
    (h : Kind.of? document = some (.scalar kind)) : ofAll widen [document] = .scalar kind := by
  rw [ofAll_eq]
  simp [Common.of, h, Common.ofKinds]

private theorem ofAll_array (items : List Document) :
    ofAll widen [.array items] =
      .array (if items = [] then none else some (ofAll widen items)) := by
  rw [ofAll_eq]
  simp [Common.of, Kind.of?, Common.ofKinds, itemsOf, itemsIn]

private theorem get?_member {members : List (Text × Document)}
    (distinct : (Json.Value.names members).Nodup) {member : Text × Document} (h : member ∈ members) :
    Json.Value.get? members member.1 = some member.2 :=
  (Json.Value.get?_eq_some_iff distinct).mpr h

private theorem ofAll_object {members : List (Text × Document)}
    (distinct : (Json.Value.names members).Nodup) :
    ofAll widen [.object members] = .object (members.map fun member =>
      (member.1, ofAll widen [member.2], (ofAll widen [member.2]).isNull)) := by
  have hnames : namesOf [.object members] = members.map (·.1) := by
    simpa [namesOf, membersIn, Json.Value.names] using eraseDups_of_nodup distinct
  rw [ofAll_eq]
  simp only [Common.of, Kind.of?, List.filterMap_cons, List.filterMap_nil, Common.ofKinds,
    List.all_nil, if_true, hnames, List.map_map]
  congr 1
  apply List.map_congr_left
  intro member hm
  have hg := get?_member distinct hm
  have hv : valuesAt member.1 [.object members] = [member.2] := by
    simp [valuesAt, membersIn, hg]
  have hn : isMissing member.1 [.object members] = (ofAll widen [member.2]).isNull := by
    rw [Bool.eq_iff_iff, isMissing_iff, isNull_ofAll]
    simp [membersIn, hg, Kind.of?]
  simp [hv, hn]

end Singleton

mutual

/-- The settled shape of a document is that of the document as the only value. -/
theorem settled_ofDocument (widen : Bool) : ∀ (path : Text) (document : Document),
    document.DistinctNames → (ofDocument widen path document).1.settled = ofAll widen [document]
  | _, .null, _ => by rw [ofAll_null, ofDocument, settled]
  | _, .bool _, _ => by rw [ofAll_scalar widen rfl, ofDocument, settled]
  | _, .number _, _ => by rw [ofAll_scalar widen rfl, ofDocument, settled]
  | _, .string _, _ => by rw [ofAll_scalar widen rfl, ofDocument, settled]
  | path, .array items, h => by
    have hi := settled_ofItems widen (itemPath path) items
      ((Json.Value.everyObject_array _ items).mp h) none [] rfl
    rw [List.nil_append] at hi
    change (Shape.array (ofItems widen (itemPath path) none items).1).settled = _
    rw [ofAll_array, settled_array, hi]
  | path, .object members, h => by
    obtain ⟨distinct, inner⟩ := (Json.Value.everyObject_object _ members).mp h
    rw [ofAll_object widen distinct, ofDocument, settled]
    exact congrArg Shape.object (settled_ofMembers widen path members inner)

/-- Merging item after item: what was observed before stands for the values before. -/
private theorem settled_ofItems (widen : Bool) (path : Text) : ∀ items : List Document,
    (∀ item ∈ items, item.DistinctNames) → ∀ (seen : Option Shape) (before : List Document),
    seen.map settled = (if before = [] then none else some (ofAll widen before)) →
    (ofItems widen path seen items).1.map settled =
      if before ++ items = [] then none else some (ofAll widen (before ++ items))
  | [], _, seen, before, hs => by simpa [ofItems] using hs
  | item :: rest, h, seen, before, hs => by
    have hi := settled_ofDocument widen path item (h item List.mem_cons_self)
    have hrest := fun other ho => h other (List.mem_cons_of_mem item ho)
    rw [ofItems, List.append_cons]
    refine settled_ofItems widen path rest hrest _ (before ++ [item]) ?_
    cases seen with
    | none =>
      have hb : before = [] := Classical.byContradiction fun hne => by simp [hne] at hs
      simp [hb, hi]
    | some shape =>
      have hb : before ≠ [] := by
        intro he
        simp [he] at hs
      have hshape : shape.settled = ofAll widen before := by simpa [hb] using hs
      simp [settled_merge, hshape, hi, merge_ofAll]

private theorem settled_ofMembers (widen : Bool) (path : Text) :
    ∀ members : List (Text × Document), (∀ member ∈ members, member.2.DistinctNames) →
    settledFields (ofMembers widen path members).1 = members.map fun member =>
      (member.1, ofAll widen [member.2], (ofAll widen [member.2]).isNull)
  | [], _ => by simp [ofMembers, settledFields]
  | (key, value) :: rest, h => by
    have hv := settled_ofDocument widen (memberPath path key) value (h _ List.mem_cons_self)
    have hrest := settled_ofMembers widen path rest
      fun member hm => h member (List.mem_cons_of_mem _ hm)
    simp [ofMembers, settledFields, hrest, ← hv]

end

/-- Merging the shapes of values one after the other agrees, once settled, with reading the shape off
all of them at once. -/
theorem merged_eq_ofAll (widen : Bool) (path : Text) (values : List Document)
    (nonempty : values ≠ []) (distinct : ∀ value ∈ values, value.DistinctNames) :
    (ofItems widen path none values).1.map settled = some (ofAll widen values) := by
  have h := settled_ofItems widen path values distinct none [] rfl
  rwa [List.nil_append, if_neg nonempty] at h

/-- Arrays inside arrays, a null between objects, and a name that is null, an object or missing. -/
theorem merged_eq_ofAll_nested :
    let values : List Document :=
      [.object [("a", .array [.array [], .array [.number "1"]]), ("b", .null)], .null,
       .object [("b", .object [("c", .bool true)]), ("a", .array [.null, .array [.number "1.5"]])],
       .object [("a", .array []), ("b", .object [])]]
    values ≠ [] ∧ (∀ value ∈ values, value.DistinctNames) ∧
      ofAll true values = .object [("a", .array (some (.array (some (.scalar .float)))), false),
        ("b", .object [("c", .scalar .boolean, true)], true)] := by
  intro values
  have distinct : ∀ value ∈ values, value.DistinctNames := by decide
  refine ⟨by decide, distinct, ?_⟩
  have h := merged_eq_ofAll true "$" values (by decide) distinct
  exact (Option.some.inj h).symm

end Specimen.Shape
