import Specimen.Proofs.Inference.Union
import Mathlib.Data.List.Induction

/-! Positions inside samples and shapes: their texts, the values and the shape found at a position, and the
positions that an untyped one absorbs. -/
namespace Specimen
open Json (Document)

/-- A step from a position to one inside it: to the items of arrays, or to a member of objects. -/
inductive Step where
  | item
  | member (key : Text)
  deriving DecidableEq, Repr

/-- A position by the steps to it, from the outside inwards. -/
abbrev Position := List Step

namespace Position

/-- The text of a position that lies behind another one. -/
def path (base : Text) : Position → Text
  | [] => base
  | .item :: rest => path (Shape.itemPath base) rest
  | .member key :: rest => path (Shape.memberPath base key) rest

/-- The values at a position of samples. -/
def values : Position → List Document → List Document
  | [], samples => samples
  | .item :: rest, samples => values rest (Shape.itemsOf samples)
  | .member key :: rest, samples => values rest (Shape.valuesAt key samples)

/-- The number of arrays in samples that a position leads through. -/
def arrays : Position → List Document → Nat
  | [], _ => 0
  | .item :: rest, samples =>
    samples.countP (Shape.Kind.of? · = some .array) + arrays rest (Shape.itemsOf samples)
  | .member key :: rest, samples => arrays rest (Shape.valuesAt key samples)

mutual

/-- Whether a value is an array or holds one at some depth. -/
def holdsArray : Document → Bool
  | .array _ => true
  | .object members => memberHoldsArray members
  | _ => false

def memberHoldsArray : List (Text × Document) → Bool
  | [] => false
  | (_, value) :: rest => holdsArray value || memberHoldsArray rest

end

mutual

/-- Whether a value has an array inside an array. -/
def nestsArrays : Document → Bool
  | .array items => items.any holdsArray
  | .object members => memberNestsArrays members
  | _ => false

def memberNestsArrays : List (Text × Document) → Bool
  | [] => false
  | (_, value) :: rest => nestsArrays value || memberNestsArrays rest

end

/-- A key whose text in a path cannot be taken for several steps. -/
def IsPlainKey (key : Text) : Prop := 0x2E ∉ key ∧ ¬ ("[]" : Text) <:+ key

instance (key : Text) : Decidable (IsPlainKey key) := inferInstanceAs (Decidable (_ ∧ _))

section Path
variable (base : Text) (p : Position)

private theorem path_append (q : Position) : path base (p ++ q) = path (path base p) q := by
  induction p generalizing base with
  | nil => rfl
  | cons step rest ih => cases step <;> exact ih _

private theorem length_le_path : base.length ≤ (path base p).length := by
  induction p generalizing base with
  | nil => exact Nat.le_refl _
  | cons step rest ih =>
    cases step with
    | item =>
      have := ih (Shape.itemPath base)
      rw [Shape.itemPath, List.length_append] at this
      exact Nat.le_trans (Nat.le_add_right _ _) this
    | member key =>
      have := ih (Shape.memberPath base key)
      rw [Shape.memberPath, List.length_append, List.length_append] at this
      exact Nat.le_trans (by omega) this

private theorem base_ne_path_concat (step : Step) : base ≠ path base (p ++ [step]) := by
  intro h
  have hlt := length_le_path base p
  have hlen := congrArg List.length h
  rw [path_append] at hlen
  cases step with
  | item =>
    rw [path, path, Shape.itemPath, List.length_append] at hlen
    have : ("[]" : Text).length = 2 := rfl
    omega
  | member key =>
    rw [path, path, Shape.memberPath, List.length_append, List.length_append] at hlen
    have : ("." : Text).length = 1 := rfl
    omega

end Path

/-- The text of a member's position does not end like that of items. -/
private theorem memberPath_ne_itemPath {key : Text} (plain : IsPlainKey key) (s t : Text) :
    Shape.memberPath s key ≠ Shape.itemPath t := by
  intro he
  rcases List.append_eq_append_iff.mp he with ⟨more, -, hkey⟩ | ⟨more, hs, hkey⟩
  · exact plain.2 ⟨more, hkey.symm⟩
  · rcases List.eq_nil_or_concat more with rfl | ⟨front, last, rfl⟩
    · exact plain.2 ⟨[], hkey⟩
    -- the point before the key would stand among the brackets
    · have hlast : (0x2E : CodePoint) = last := by
        rw [List.concat_eq_append, ← List.append_assoc] at hs
        exact (List.append_inj' hs rfl).2 |> List.singleton_inj.mp
      have hin : last ∈ ("[]" : Text) := by simp [hkey]
      rw [← hlast] at hin
      exact absurd hin (by decide)

/-- The last point of a member's position stands before its key. -/
private theorem memberPath_inj {s t key other : Text} (plain : IsPlainKey key) (plain' : IsPlainKey other)
    (h : Shape.memberPath s key = Shape.memberPath t other) : s = t ∧ key = other := by
  have point : ∀ {s t key other more : Text}, 0x2E ∉ key → t ++ "." = s ++ "." ++ more →
      key = more ++ other → more = [] := by
    intro s t key other more hout hs hkey
    rcases List.eq_nil_or_concat more with rfl | ⟨front, last, rfl⟩
    · rfl
    · rw [List.concat_eq_append, ← List.append_assoc] at hs
      have hlast : (0x2E : CodePoint) = last := (List.append_inj' hs rfl).2 |> List.singleton_inj.mp
      exact absurd (by simp [hkey, hlast]) hout
  rcases List.append_eq_append_iff.mp h with ⟨more, ht, hkey⟩ | ⟨more, hs, hkey⟩
  · cases point plain.1 ht hkey
    exact ⟨(List.append_inj' (ht.trans (List.append_nil _)) rfl).1.symm, hkey⟩
  · cases point plain'.1 hs hkey
    exact ⟨(List.append_inj' (hs.trans (List.append_nil _)) rfl).1, hkey.symm⟩

/-- Positions along plain keys are told apart by their texts. -/
theorem path_injective (base : Text) {p q : Position} (hp : ∀ key, .member key ∈ p → IsPlainKey key)
    (hq : ∀ key, .member key ∈ q → IsPlainKey key) (h : path base p = path base q) : p = q := by
  induction p using List.reverseRecOn generalizing q with
  | nil =>
    rcases List.eq_nil_or_concat q with rfl | ⟨front, last, rfl⟩
    · rfl
    · exact absurd (List.concat_eq_append ▸ h) (base_ne_path_concat base front last)
  | append_singleton front last ih =>
    rcases List.eq_nil_or_concat q with rfl | ⟨front', last', rfl⟩
    · exact absurd h.symm (base_ne_path_concat base front last)
    · rw [List.concat_eq_append] at h hq ⊢
      have inFront := fun key hk => hp key (List.mem_append_left [last] hk)
      have inFront' := fun key hk => hq key (List.mem_append_left [last'] hk)
      rw [path_append, path_append] at h
      cases last with
      | item =>
        cases last' with
        | item => rw [ih inFront inFront' (List.append_inj' h rfl).1]
        | member key => exact absurd h.symm (memberPath_ne_itemPath (hq key (by simp)) _ _)
      | member key =>
        cases last' with
        | item => exact absurd h (memberPath_ne_itemPath (hp key (by simp)) _ _)
        | member other =>
          obtain ⟨hfront, rfl⟩ := memberPath_inj (hp key (by simp)) (hq other (by simp)) h
          rw [ih inFront inFront' hfront]

section Values
variable (p : Position) (left right : List Document)

theorem values_nil : values p [] = [] := by
  induction p with
  | nil => rfl
  | cons step rest ih => cases step <;> exact ih

theorem values_append : values p (left ++ right) = values p left ++ values p right := by
  induction p generalizing left right with
  | nil => rfl
  | cons step rest ih =>
    cases step with
    | item => rw [values, Shape.itemsOf_append, ih, values, values]
    | member key => rw [values, Shape.valuesAt_append, ih, values, values]

private theorem arrays_nil : arrays p [] = 0 := by
  induction p with
  | nil => rfl
  | cons step rest ih =>
    cases step with
    | item => rw [arrays, List.countP_nil, Nat.zero_add]; exact ih
    | member key => exact ih

theorem arrays_append : arrays p (left ++ right) = arrays p left + arrays p right := by
  induction p generalizing left right with
  | nil => rfl
  | cons step rest ih =>
    cases step with
    | item =>
      rw [arrays, List.countP_append, Shape.itemsOf_append, ih, arrays, arrays]
      omega
    | member key => rw [arrays, Shape.valuesAt_append, ih, arrays, arrays]

theorem valuesAt_object (name : Text) (members : List (Text × Document)) :
    Shape.valuesAt name [.object members] = (Json.Value.get? members name).toList := by
  cases h : Json.Value.get? members name <;> simp [Shape.valuesAt, Shape.membersIn, h]

end Values

section Nesting

private theorem holdsArray_of_mem {members : List (Text × Document)}
    (h : memberHoldsArray members = false) : ∀ member ∈ members, holdsArray member.2 = false := by
  induction members with
  | nil => nofun
  | cons member rest ih =>
    obtain ⟨hvalue, hrest⟩ := Bool.or_eq_false_iff.mp h
    exact List.forall_mem_cons.mpr ⟨hvalue, ih hrest⟩

private theorem nestsArrays_of_mem {members : List (Text × Document)}
    (h : memberNestsArrays members = false) : ∀ member ∈ members, nestsArrays member.2 = false := by
  induction members with
  | nil => nofun
  | cons member rest ih =>
    obtain ⟨hvalue, hrest⟩ := Bool.or_eq_false_iff.mp h
    exact List.forall_mem_cons.mpr ⟨hvalue, ih hrest⟩

private theorem arrays_eq_zero (p : Position) : ∀ {samples : List Document},
    (∀ sample ∈ samples, holdsArray sample = false) → arrays p samples = 0 := by
  induction p with
  | nil => exact fun _ => rfl
  | cons step rest ih =>
    intro samples none
    cases step with
    | item =>
      have hitems : Shape.itemsOf samples = [] := List.flatMap_eq_nil_iff.mpr fun sample hs => by
        have := none sample hs
        cases sample with
        | array items => cases this
        | _ => rfl
      rw [arrays, hitems, arrays_nil, Nat.add_zero, List.countP_eq_zero]
      intro sample hs harray
      have := none sample hs
      cases sample <;> simp_all [Shape.Kind.of?, holdsArray]
    | member name =>
      refine ih fun value hv => ?_
      obtain ⟨sample, hs, hv⟩ := List.mem_filterMap.mp hv
      have := none sample hs
      cases sample with
      | object members =>
        obtain ⟨member, hm, rfl⟩ := Option.map_eq_some_iff.mp hv
        exact holdsArray_of_mem this member (List.mem_of_find?_eq_some hm)
      | _ => cases hv

/-- Where no array lies inside another, at most one lies on the way to a position. -/
theorem arrays_le_one {sample : Document} (flat : nestsArrays sample = false) (p : Position) :
    arrays p [sample] ≤ 1 := by
  induction p generalizing sample with
  | nil => exact Nat.zero_le _
  | cons step rest ih =>
    cases step with
    | item =>
      cases sample with
      | array items =>
        have none := arrays_eq_zero rest fun item hi => by
          simpa using (List.any_eq_false.mp flat) item hi
        rw [arrays, Shape.itemsOf, List.flatMap_singleton, Shape.itemsIn, none]
        exact Nat.le_refl 1
      | _ => simp [arrays, Shape.itemsOf, Shape.itemsIn, Shape.Kind.of?, arrays_nil]
    | member name =>
      cases sample with
      | object members =>
        rw [arrays, valuesAt_object]
        cases hg : Json.Value.get? members name with
        | none => exact Nat.le_trans (Nat.le_of_eq (arrays_nil rest)) (Nat.zero_le 1)
        | some value =>
          obtain ⟨member, hm, rfl⟩ := Option.map_eq_some_iff.mp hg
          exact ih (nestsArrays_of_mem flat member (List.mem_of_find?_eq_some hm))
      | _ => exact Nat.le_trans (Nat.le_of_eq (arrays_nil rest)) (Nat.zero_le 1)

end Nesting

/-- The keys on the way to a value are names in the samples. -/
theorem key_of_values {plain : Text → Prop} {p : Position} : ∀ {samples : List Document},
    (∀ sample ∈ samples, sample.EveryObject fun names => ∀ name ∈ names, plain name) →
    values p samples ≠ [] → ∀ key, .member key ∈ p → plain key := by
  induction p with
  | nil => exact fun _ _ _ hk => nomatch hk
  | cons step rest ih =>
    intro samples each found key hk
    cases step with
    | item =>
      refine ih (fun item hi => ?_) found key ((List.mem_cons.mp hk).resolve_left nofun)
      obtain ⟨sample, hs, hi⟩ := List.mem_flatMap.mp hi
      have := each sample hs
      cases sample with
      | array items => exact (Json.Value.everyObject_array _ items).mp this item hi
      | _ => cases hi
    | member name =>
      have inside : ∀ value ∈ Shape.valuesAt name samples,
          plain name ∧ value.EveryObject fun names => ∀ name ∈ names, plain name := by
        intro value hv
        obtain ⟨sample, hs, hv⟩ := List.mem_filterMap.mp hv
        have := each sample hs
        cases sample with
        | object members =>
          obtain ⟨hnames, hvalues⟩ := (Json.Value.everyObject_object _ members).mp this
          have hin : name ∈ Json.Value.names members := Classical.byContradiction fun hout => by
            rw [Shape.membersIn, Json.Value.get?_eq_none_iff.mpr hout] at hv
            cases hv
          obtain ⟨member, hm, rfl⟩ := Option.map_eq_some_iff.mp hv
          exact ⟨hnames name hin, hvalues member (List.mem_of_find?_eq_some hm)⟩
        | _ => cases hv
      rcases List.mem_cons.mp hk with he | hk
      · cases he
        by_contra hplain
        refine found ?_
        rw [values, List.eq_nil_iff_forall_not_mem.mpr fun value hv => hplain (inside value hv).1]
        exact values_nil rest
      · exact ih (fun value hv => (inside value hv).2) found key hk

end Position

namespace Shape

/-- The shape one step inside another one. -/
def enter : Step → Shape → Option Shape
  | .item, .array element => element
  | .member key, .object fields => (lookup key fields).map (·.1)
  | _, _ => none

/-- The shape at a position. -/
def at? : Position → Shape → Option Shape
  | [], shape => some shape
  | step :: rest, shape => (shape.enter step).bind (at? rest)

/-- Whether a position is untyped, or one that it lies in. -/
def Absorbs (shape : Shape) (p : Position) : Prop := ∃ q, q <+: p ∧ shape.at? q = some .any

section Absorbs
variable {shape : Shape} {p : Position} {step : Step}

@[simp] theorem absorbs_any (p : Position) : Absorbs .any p := ⟨[], List.nil_prefix, rfl⟩

@[simp] theorem absorbs_nil : shape.Absorbs [] ↔ shape = .any := by
  constructor
  · rintro ⟨q, hq, h⟩
    rw [List.prefix_nil.mp hq] at h
    exact Option.some.inj h
  · rintro rfl
    exact absorbs_any []

theorem absorbs_cons : shape.Absorbs (step :: p) ↔
    shape = .any ∨ ∃ inner, shape.enter step = some inner ∧ inner.Absorbs p := by
  constructor
  · rintro ⟨q, hq, h⟩
    rcases List.prefix_cons_iff.mp hq with rfl | ⟨rest, rfl, hrest⟩
    · exact .inl (Option.some.inj h)
    · obtain ⟨inner, hinner, hany⟩ := Option.bind_eq_some_iff.mp h
      exact .inr ⟨inner, hinner, rest, hrest, hany⟩
  · rintro (rfl | ⟨inner, hinner, rest, hrest, hany⟩)
    · exact absorbs_any _
    · exact ⟨step :: rest, List.prefix_cons_iff.mpr (.inr ⟨rest, rfl, hrest⟩),
        Option.bind_eq_some_iff.mpr ⟨inner, hinner, hany⟩⟩

private theorem at?_append (p q : Position) (shape : Shape) :
    shape.at? (p ++ q) = (shape.at? p).bind (at? q) := by
  induction p generalizing shape with
  | nil => rfl
  | cons step rest ih =>
    rw [List.cons_append, at?, at?, Option.bind_assoc]
    exact congrArg _ (funext ih)

/-- Nothing lies inside an untyped position. -/
theorem eq_of_absorbs {q : Position} (h : shape.at? p = some .any) (hq : q <+: p)
    (habsorbs : shape.Absorbs q) : q = p := by
  obtain ⟨r, ⟨more, rfl⟩, hany⟩ := habsorbs
  obtain ⟨last, rfl⟩ := hq
  rw [List.append_assoc, at?_append, hany] at h
  cases hmore : more ++ last with
  | nil => rw [(List.append_eq_nil_iff.mp hmore).2, List.append_nil]
  | cons step rest =>
    rw [hmore] at h
    cases step <;> cases h

end Absorbs

section Values
variable {widen : Bool} {samples : List Document} {p : Position}

private theorem enter_settled (step : Step) (shape : Shape) :
    shape.settled.enter step = (shape.enter step).map settled := by
  cases shape with
  | array element => cases step <;> cases element <;> rfl
  | object fields =>
    cases step with
    | item => rfl
    | member key => simp [settled, enter, lookup_settledFields, Function.comp_def]
  | _ => cases step <;> rfl

theorem at?_settled (p : Position) (shape : Shape) : shape.settled.at? p = (shape.at? p).map settled := by
  induction p generalizing shape with
  | nil => rfl
  | cons step rest ih =>
    rw [at?, at?, enter_settled]
    cases shape.enter step with
    | none => rfl
    | some inner => exact ih inner

/-- What several values have one step inside them, taken together. -/
theorem enter_ofAll {step : Step} {inner : Shape} (h : (ofAll widen samples).enter step = some inner) :
    Position.values [step] samples ≠ [] ∧ inner = ofAll widen (Position.values [step] samples) := by
  cases hs : ofAll widen samples with
  | array element =>
    rw [hs] at h
    cases step with
    | item =>
      have he : element = some inner := h
      rw [(of_ofAll_array hs).2] at he
      split at he
      · cases he
      · rename_i hne
        exact ⟨hne, (Option.some.inj he).symm⟩
    | member key => cases h
  | object fields =>
    rw [hs] at h
    cases step with
    | item => cases h
    | member key =>
      obtain ⟨-, rfl⟩ := of_ofAll_object hs
      rw [enter, lookup_map] at h
      split at h
      · rename_i hin
        exact ⟨valuesAt_ne_nil hin, (Option.some.inj h).symm⟩
      · cases h
  | _ =>
    rw [hs] at h
    cases step <;> cases h

/-- Where several values, taken together, have a shape, there is a value. -/
theorem values_ne_nil (widen : Bool) (hne : samples ≠ []) (h : ((ofAll widen samples).at? p).isSome) :
    p.values samples ≠ [] := by
  induction p generalizing samples with
  | nil => exact hne
  | cons step rest ih =>
    rw [at?] at h
    cases he : (ofAll widen samples).enter step with
    | none => simp [he] at h
    | some inner =>
      obtain ⟨hvalues, rfl⟩ := enter_ofAll he
      rw [he, Option.bind_some] at h
      cases step <;> exact ih hvalues h

end Values

end Shape

end Specimen
