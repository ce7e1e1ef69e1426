import Specimen.Proofs.Inference.Positions
import Mathlib.Data.List.Nodup

/-! Merging shapes, by positions: one conflict is recorded at each position that the merge makes untyped, and
none at a position that was untyped before or that lies inside such a one. -/
namespace Specimen
open Json (Document)

namespace Shape

/-- No object, at any depth, has two fields of one key. -/
inductive IsKeyed : Shape → Prop
  | null : IsKeyed .null
  | any : IsKeyed .any
  | scalar (kind : Scalar) : IsKeyed (.scalar kind)
  | empty : IsKeyed (.array none)
  | array {element : Shape} (items : IsKeyed element) : IsKeyed (.array (some element))
  | object {fields : List (Text × Shape × Bool)} (nodup : (fields.map (·.1)).Nodup)
    (each : ∀ field ∈ fields, IsKeyed field.2.1) : IsKeyed (.object fields)

/-- Conflicts lie, in order, at these positions behind a path. -/
def Located (base : Text) (conflicts : List Conflict) (places : List Position) : Prop :=
  conflicts.map (·.path) = places.map (Position.path base)

/-- What merging two shapes does to positions, with the places of the conflicts. -/
structure Merged (a b merged : Shape) (places : List Position) : Prop where
  nodup : places.Nodup
  fresh : ∀ p ∈ places, ¬ a.Absorbs p ∧ ¬ b.Absorbs p
  met : ∀ p ∈ places, (b.at? p).isSome
  absorbs : ∀ p, merged.Absorbs p ↔ a.Absorbs p ∨ b.Absorbs p ∨ ∃ q ∈ places, q <+: p

section Fields
variable (widen : Bool) (path : Text) {left right fields : List (Text × Shape × Bool)} {key : Text}

theorem List.lookup_append (key : Text) (left right : List (Text × Shape × Bool)) :
    lookup key (left ++ right) = (lookup key left).or (lookup key right) := by
  induction left with
  | nil => rfl
  | cons field rest ih =>
    rw [List.cons_append, lookup, lookup]
    split
    · rfl
    · exact ih

private theorem lookup_isSome : (lookup key fields).isSome ↔ key ∈ fields.map (·.1) := by
  induction fields with
  | nil => simp [lookup]
  | cons field rest ih =>
    rw [lookup, List.map_cons, List.mem_cons]
    split
    · simp [*]
    · rename_i h
      rw [ih, or_iff_right fun he => h he.symm]

theorem mem_of_lookup {field : Shape × Bool} (h : lookup key fields = some field) :
    (key, field) ∈ fields := by
  induction fields with
  | nil => cases h
  | cons head rest ih =>
    rw [lookup] at h
    split at h
    · rename_i hk
      cases h
      rw [← hk]
      exact List.mem_cons_self
    · exact List.mem_cons_of_mem _ (ih h)

private theorem lookup_onlyRight (key : Text) (left right : List (Text × Shape × Bool)) :
    (lookup key (onlyRight left right)).map (·.1) =
      if (lookup key left).isSome then none else (lookup key right).map (·.1) := by
  induction right with
  | nil => simp [onlyRight, lookup]
  | cons field rest ih =>
    obtain ⟨name, shape, optional⟩ := field
    rw [onlyRight] at ih ⊢
    rw [List.filter_cons, lookup]
    by_cases hk : name = key
    · subst hk
      cases hl : lookup name left with
      | none => simp [lookup]
      | some field => simpa [hl] using ih
    · rw [if_neg hk, ← ih]
      split
      · rw [List.map_cons, lookup, if_neg hk]
      · rfl

private theorem lookup_mergeFields (key : Text) (left right : List (Text × Shape × Bool)) :
    (lookup key (mergeFields widen path right left).1).map (·.1) =
      (lookup key left).map fun field => match lookup key right with
        | none => field.1
        | some other => (merge widen (memberPath path key) field.1 other.1).1 := by
  induction left with
  | nil => rfl
  | cons field rest ih =>
    obtain ⟨name, shape, optional⟩ := field
    rw [mergeFields, lookup]
    by_cases hk : name = key
    · subst hk
      cases lookup name right <;> simp [lookup]
    · rw [if_neg hk, ← ih]
      cases lookup name right <;> simp [lookup, hk]

/-- The shape that a key has in the merge of two objects. -/
private theorem enter_merge_object (key : Text) (left right : List (Text × Shape × Bool)) :
    enter (.member key) (merge widen path (.object left) (.object right)).1 =
      match enter (.member key) (.object left), enter (.member key) (.object right) with
      | some a, some b => some (merge widen (memberPath path key) a b).1
      | some a, none => some a
      | none, other => other := by
  rw [merge_object, enter, enter, enter, List.lookup_append, Option.map_or, lookup_mergeFields,
    lookup_onlyRight]
  cases lookup key left with
  | none => simp
  | some field => cases lookup key right <;> simp

end Fields

section Absorbs
variable (p : Position)

theorem not_absorbs_of_enter {shape : Shape} (h : shape ≠ .any)
    (none : ∀ step, shape.enter step = none) : ¬ shape.Absorbs p := by
  cases p with
  | nil => exact fun ha => h (absorbs_nil.mp ha)
  | cons step rest =>
    rw [absorbs_cons, none]
    simp [h]

@[simp] theorem not_absorbs_null : ¬ Absorbs .null p := not_absorbs_of_enter p nofun fun step => by
  cases step <;> rfl

@[simp] theorem not_absorbs_scalar (kind : Scalar) : ¬ Absorbs (.scalar kind) p :=
  not_absorbs_of_enter p nofun fun step => by cases step <;> rfl

@[simp] theorem not_absorbs_empty : ¬ Absorbs (.array none) p := not_absorbs_of_enter p nofun fun step => by
  cases step <;> rfl

theorem absorbs_item {element : Option Shape} :
    Absorbs (.array element) (.item :: p) ↔ ∃ inner, element = some inner ∧ inner.Absorbs p := by
  simp [absorbs_cons, enter]

theorem absorbs_member {fields : List (Text × Shape × Bool)} {key : Text} :
    Absorbs (.object fields) (.member key :: p) ↔
      ∃ inner, enter (.member key) (.object fields) = some inner ∧ inner.Absorbs p := by
  simp [absorbs_cons]

end Absorbs

section Merge
variable {a b merged : Shape} {places : List Position}

private theorem merged_same (h : ∀ p, merged.Absorbs p ↔ a.Absorbs p ∨ b.Absorbs p) :
    Merged a b merged [] where
  nodup := List.nodup_nil
  fresh := nofun
  met := nofun
  absorbs p := by simp [h p]

private theorem merged_disagree (ha : a ≠ .any) (hb : b ≠ .any) : Merged a b .any [[]] where
  nodup := List.nodup_singleton _
  fresh p hp := by
    rw [List.mem_singleton.mp hp, absorbs_nil, absorbs_nil]
    exact ⟨ha, hb⟩
  met p hp := by
    rw [List.mem_singleton.mp hp]
    rfl
  absorbs p := by simp

private theorem Merged.array (h : Merged a b merged places) :
    Merged (.array (some a)) (.array (some b)) (.array (some merged)) (places.map (.item :: ·)) where
  nodup := h.nodup.map (List.cons_injective)
  fresh p hp := by
    obtain ⟨rest, hrest, rfl⟩ := List.mem_map.mp hp
    simpa [absorbs_item] using h.fresh rest hrest
  met p hp := by
    obtain ⟨rest, hrest, rfl⟩ := List.mem_map.mp hp
    exact h.met rest hrest
  absorbs p := by
    cases p with
    | nil => simp
    | cons step rest =>
      cases step with
      | item => simp [absorbs_item, h.absorbs rest, List.cons_prefix_cons]
      | member key => simp [absorbs_cons, enter, List.cons_prefix_cons]

/-- What merging the fields of two objects does to positions, with the places of the conflicts. -/
private structure MergedFields (widen : Bool) (path : Text) (left right : List (Text × Shape × Bool))
    (places : List Position) : Prop where
  nodup : places.Nodup
  inside : ∀ p ∈ places, ∃ key a b rest, p = .member key :: rest ∧
    enter (.member key) (.object left) = some a ∧ enter (.member key) (.object right) = some b ∧
    ¬ a.Absorbs rest ∧ ¬ b.Absorbs rest ∧ (b.at? rest).isSome
  absorbs : ∀ key a b, enter (.member key) (.object left) = some a →
    enter (.member key) (.object right) = some b →
    ∀ p, (merge widen (memberPath path key) a b).1.Absorbs p ↔
      a.Absorbs p ∨ b.Absorbs p ∨ ∃ q ∈ places, q <+: .member key :: p

section Head
variable {widen : Bool} {path name key : Text} {shape : Shape} {optional : Bool}
  {rest right : List (Text × Shape × Bool)}

theorem enter_head :
    enter (.member name) (.object ((name, shape, optional) :: rest)) = some shape := by
  simp [enter, lookup]

theorem enter_behind (h : name ≠ key) :
    enter (.member key) (.object ((name, shape, optional) :: rest)) =
      enter (.member key) (.object rest) := by
  simp [enter, lookup, h]

private theorem ne_of_enter (hout : name ∉ rest.map (·.1)) {inner : Shape}
    (h : enter (.member key) (.object rest) = some inner) : name ≠ key := by
  rintro rfl
  obtain ⟨field, hf, -⟩ := Option.map_eq_some_iff.mp h
  exact hout (lookup_isSome.mp (hf ▸ rfl))

/-- A field that only the left object has changes no position. -/
private theorem MergedFields.skip (h : MergedFields widen path rest right places)
    (hout : name ∉ rest.map (·.1)) (lacks : lookup name right = none) :
    MergedFields widen path ((name, shape, optional) :: rest) right places where
  nodup := h.nodup
  inside p hp := by
    obtain ⟨key, a, b, q, hq, ha, hfresh⟩ := h.inside p hp
    exact ⟨key, a, b, q, hq, (enter_behind (ne_of_enter hout ha)).trans ha, hfresh⟩
  absorbs key a b ha hb := by
    have hne : name ≠ key := by
      rintro rfl
      simp [enter, lacks] at hb
    exact h.absorbs key a b ((enter_behind hne).symm.trans ha) hb

/-- A field that both objects have adds the places of its own merge. -/
private theorem MergedFields.add (h : MergedFields widen path rest right places)
    (hout : name ∉ rest.map (·.1)) {other : Shape}
    (hother : enter (.member name) (.object right) = some other) {inner : List Position}
    (hinner : Merged shape other (merge widen (memberPath path name) shape other).1 inner) :
    MergedFields widen path ((name, shape, optional) :: rest) right
      (inner.map (.member name :: ·) ++ places) where
  nodup := by
    refine List.nodup_append.mpr ⟨hinner.nodup.map List.cons_injective, h.nodup, ?_⟩
    rintro p hp q hq rfl
    obtain ⟨_, -, rfl⟩ := List.mem_map.mp hp
    obtain ⟨key, _, _, _, hk, ha, -⟩ := h.inside _ hq
    cases hk
    exact ne_of_enter hout ha rfl
  inside p hp := by
    rcases List.mem_append.mp hp with hp | hp
    · obtain ⟨q, hq, rfl⟩ := List.mem_map.mp hp
      obtain ⟨hfa, hfb⟩ := hinner.fresh q hq
      exact ⟨name, shape, other, q, rfl, enter_head, hother, hfa, hfb, hinner.met q hq⟩
    · obtain ⟨key, a, b, q, hq, ha, hfresh⟩ := h.inside p hp
      exact ⟨key, a, b, q, hq, (enter_behind (ne_of_enter hout ha)).trans ha, hfresh⟩
  absorbs key a b ha hb p := by
    -- the places behind a key are those of its own merge
    by_cases hk : name = key
    · subst hk
      cases enter_head.symm.trans ha
      cases hother.symm.trans hb
      have none : ¬ ∃ q ∈ places, q <+: .member name :: p := by
        rintro ⟨q, hq, hprefix⟩
        obtain ⟨key, _, _, _, rfl, ha, -⟩ := h.inside q hq
        cases (List.cons_prefix_cons.mp hprefix).1
        exact ne_of_enter hout ha rfl
      rw [hinner.absorbs p]
      simp [List.mem_append, or_and_right, exists_or, none, List.cons_prefix_cons]
    · have none : ∀ q ∈ inner.map (.member name :: ·), ¬ q <+: .member key :: p := by
        intro q hq hprefix
        obtain ⟨_, -, rfl⟩ := List.mem_map.mp hq
        cases (List.cons_prefix_cons.mp hprefix).1
        exact hk rfl
      rw [h.absorbs key a b ((enter_behind hk).symm.trans ha) hb]
      simp only [List.mem_append, or_and_right, exists_or]
      rw [or_iff_right (a := ∃ q, q ∈ List.map _ _ ∧ _) fun ⟨q, hq, hp⟩ => none q hq hp]

end Head

/-- Of each field that is like this, the merge of two objects has the places behind its key. -/
private theorem exists_mergedFields (widen : Bool) (path : Text) (right : List (Text × Shape × Bool)) :
    ∀ left : List (Text × Shape × Bool), (left.map (·.1)).Nodup →
    (∀ field ∈ left, ∀ b path, ∃ places, Located path (merge widen path field.2.1 b).2 places ∧
      Merged field.2.1 b (merge widen path field.2.1 b).1 places) →
    ∃ places, Located path (mergeFields widen path right left).2 places ∧
      MergedFields widen path left right places
  | [], _, _ => ⟨[], rfl, List.nodup_nil, nofun, nofun⟩
  | (name, shape, optional) :: rest, nodup, each => by
    obtain ⟨hout, hrest⟩ := List.nodup_cons.mp nodup
    obtain ⟨places, located, h⟩ := exists_mergedFields widen path right rest hrest fun field hf =>
      each field (List.mem_cons_of_mem _ hf)
    cases hright : lookup name right with
    | none =>
      refine ⟨places, ?_, h.skip hout hright⟩
      rw [mergeFields, hright]
      exact located
    | some other =>
      obtain ⟨inner, located', h'⟩ := each _ List.mem_cons_self other.1 (memberPath path name)
      refine ⟨inner.map (.member name :: ·) ++ places, ?_, h.add hout (by simp [enter, hright]) h'⟩
      rw [mergeFields, hright, Located, List.map_append, List.map_append, List.map_map]
      exact congrArg₂ (· ++ ·) located' located

private theorem MergedFields.object {widen : Bool} {path : Text} {left right : List (Text × Shape × Bool)}
    (h : MergedFields widen path left right places) :
    Merged (.object left) (.object right) (merge widen path (.object left) (.object right)).1 places where
  nodup := h.nodup
  fresh p hp := by
    obtain ⟨key, a, b, q, rfl, ha, hb, hfa, hfb, -⟩ := h.inside p hp
    simp [absorbs_member, ha, hb, hfa, hfb]
  met p hp := by
    obtain ⟨key, a, b, q, rfl, -, hb, -, -, hmet⟩ := h.inside p hp
    rw [at?, hb]
    exact hmet
  absorbs p := by
    have outside : ∀ p, (∀ key rest, p ≠ .member key :: rest) → ¬ ∃ q ∈ places, q <+: p := by
      rintro p hp ⟨q, hq, hprefix⟩
      obtain ⟨key, _, _, rest, rfl, -⟩ := h.inside q hq
      obtain ⟨more, rfl⟩ := hprefix
      exact hp _ _ rfl
    cases p with
    | nil => simpa [merge_object] using outside [] (by simp)
    | cons step rest =>
      cases step with
      | item => simp [merge_object, absorbs_cons, enter, outside (.item :: rest) (by simp)]
      | member key =>
        have others : ∀ a b, enter (.member key) (.object left) = a →
            enter (.member key) (.object right) = b → (a = none ∨ b = none) →
            ¬ ∃ q ∈ places, q <+: .member key :: rest := by
          rintro a b ha hb hnone ⟨q, hq, hprefix⟩
          obtain ⟨key', a', b', rest', rfl, ha', hb', -⟩ := h.inside q hq
          cases (List.cons_prefix_cons.mp hprefix).1
          cases ha.symm.trans ha'
          cases hb.symm.trans hb'
          simp at hnone
        rw [merge_object, absorbs_member, absorbs_member, absorbs_member, ← merge_object,
          enter_merge_object]
        cases ha : enter (.member key) (.object left) with
        | none => simp [others _ _ ha rfl (.inl rfl)]
        | some a =>
          cases hb : enter (.member key) (.object right) with
          | none => simp [others _ _ ha hb (.inr rfl)]
          | some b => simp [h.absorbs key a b ha hb rest]

section Cases
variable {widen : Bool} {path : Text}

private theorem exists_quiet {conflicts : List Conflict} (h : merge widen path a b = (merged, conflicts))
    (quiet : conflicts = []) (same : ∀ p, merged.Absorbs p ↔ a.Absorbs p ∨ b.Absorbs p) :
    ∃ places, Located path (merge widen path a b).2 places ∧
      Merged a b (merge widen path a b).1 places := by
  rw [h, quiet]
  exact ⟨[], rfl, merged_same same⟩

private theorem exists_disagree (h : merge widen path a b = disagree path a b) (ha : a ≠ .any)
    (hb : b ≠ .any) : ∃ places, Located path (merge widen path a b).2 places ∧
      Merged a b (merge widen path a b).1 places := by
  rw [h]
  exact ⟨[[]], rfl, merged_disagree ha hb⟩

private theorem exists_null_right (a : Shape) : ∃ places,
    Located path (merge widen path a .null).2 places ∧ Merged a .null (merge widen path a .null).1 places := by
  refine exists_quiet (show merge widen path a .null = (a, []) from ?_) rfl (by simp)
  cases a with
  | array element => cases element <;> rfl
  | _ => rfl

private theorem exists_any_right (a : Shape) : ∃ places,
    Located path (merge widen path a .any).2 places ∧ Merged a .any (merge widen path a .any).1 places := by
  refine exists_quiet (show merge widen path a .any = (.any, []) from ?_) rfl (by simp)
  cases a with
  | array element => cases element <;> rfl
  | _ => rfl

end Cases

/-- A merge records one conflict at each position that it makes untyped. -/
theorem exists_merged (widen : Bool) (keyed : a.IsKeyed) : ∀ (b : Shape) (path : Text), ∃ places,
    Located path (merge widen path a b).2 places ∧ Merged a b (merge widen path a b).1 places := by
  induction keyed with
  | null =>
    intro b path
    have same : merge widen path .null b = (b, []) := by cases b <;> rfl
    exact exists_quiet same rfl (by simp)
  | any => exact fun b path => exists_quiet (by cases b <;> rfl) rfl (by simp)
  | scalar kind =>
    intro b path
    cases b with
    | null => exact exists_null_right _
    | any => exact exists_any_right _
    | scalar other =>
      cases hm : mergeScalars widen kind other with
      | none => exact exists_disagree (by simp only [merge, hm]) nofun nofun
      | some both =>
        have joined : merge widen path (.scalar kind) (.scalar other) = (.scalar both, []) := by
          simp only [merge, hm]
        exact exists_quiet joined rfl (by simp)
    | array | object => exact exists_disagree rfl nofun nofun
  | empty =>
    intro b path
    cases b with
    | null => exact exists_null_right _
    | any => exact exists_any_right _
    | array other => exact exists_quiet (show _ = (Shape.array other, []) from rfl) rfl (by simp)
    | scalar | object => exact exists_disagree rfl nofun nofun
  | @array element _ ih =>
    intro b path
    cases b with
    | null => exact exists_null_right _
    | any => exact exists_any_right _
    | array other =>
      cases other with
      | none => exact exists_quiet (show _ = (Shape.array (some element), []) from rfl) rfl (by simp)
      | some other =>
        obtain ⟨places, located, h⟩ := ih other (itemPath path)
        refine ⟨places.map (.item :: ·), ?_, h.array⟩
        rw [Located, List.map_map]
        exact located
    | scalar | object => exact exists_disagree rfl nofun nofun
  | @object left nodup _ ih =>
    intro b path
    cases b with
    | null => exact exists_null_right _
    | any => exact exists_any_right _
    | object right =>
      obtain ⟨places, located, h⟩ := exists_mergedFields widen path right left nodup ih
      exact ⟨places, located, h.object⟩
    | scalar | array => exact exists_disagree rfl nofun nofun

end Merge

section Keyed
variable {widen : Bool} {path : Text} {left right : List (Text × Shape × Bool)}

private theorem keys_mergeFields : (mergeFields widen path right left).1.map (·.1) = left.map (·.1) := by
  induction left with
  | nil => rfl
  | cons field rest ih =>
    rw [mergeFields]
    cases lookup field.1 right <;> simp [ih]

private theorem nodup_keys (hleft : (left.map (·.1)).Nodup) (hright : (right.map (·.1)).Nodup) :
    (((mergeFields widen path right left).1 ++ onlyRight left right).map (·.1)).Nodup := by
  rw [List.map_append, keys_mergeFields]
  refine List.nodup_append.mpr ⟨hleft, ?_, ?_⟩
  · rw [onlyRight, List.map_map]
    exact hright.sublist (List.filter_sublist.map _)
  · rintro key hk _ ho rfl
    obtain ⟨_, ho, hkey⟩ := List.mem_map.mp ho
    obtain ⟨field, hf, rfl⟩ := List.mem_map.mp ho
    cases hkey
    have := lookup_isSome.mpr hk
    simp_all [List.mem_filter]

private theorem mem_mergeFields {field : Text × Shape × Bool}
    (h : field ∈ (mergeFields widen path right left).1) : ∃ own ∈ left, field.2.1 = own.2.1 ∨
      ∃ other, lookup own.1 right = some other ∧
        field.2.1 = (merge widen (memberPath path own.1) own.2.1 other.1).1 := by
  induction left with
  | nil => cases h
  | cons own rest ih =>
    rw [mergeFields] at h
    cases hl : lookup own.1 right with
    | none =>
      rw [hl] at h
      rcases List.mem_cons.mp h with rfl | h
      · exact ⟨own, List.mem_cons_self, .inl rfl⟩
      · obtain ⟨own', hin, hown⟩ := ih h
        exact ⟨own', List.mem_cons_of_mem _ hin, hown⟩
    | some other =>
      rw [hl] at h
      rcases List.mem_cons.mp h with rfl | h
      · exact ⟨own, List.mem_cons_self, .inr ⟨other, hl, rfl⟩⟩
      · obtain ⟨own', hin, hown⟩ := ih h
        exact ⟨own', List.mem_cons_of_mem _ hin, hown⟩

/-- Merging keeps the fields of objects apart. -/
theorem IsKeyed.merge {a : Shape} (ha : a.IsKeyed) (widen : Bool) : ∀ {b : Shape} (path : Text),
    b.IsKeyed → (Shape.merge widen path a b).1.IsKeyed := by
  induction ha with
  | null => exact fun path hb => by rwa [merge_null_left]
  | any => exact fun path _ => by rw [merge_any_left]; exact .any
  | scalar kind =>
    intro b path hb
    cases hb with
    | scalar other =>
      rw [merge_scalar]
      cases mergeScalars widen kind other with
      | none => exact .any
      | some both => exact .scalar both
    | null => exact .scalar kind
    | _ => exact .any
  | empty =>
    intro b path hb
    cases hb with
    | null => exact .empty
    | empty => exact .empty
    | array items => exact .array items
    | _ => exact .any
  | @array element helement ih =>
    intro b path hb
    cases hb with
    | null | empty => exact .array helement
    | array items => exact .array (ih _ items)
    | _ => exact .any
  | @object left hleft each ih =>
    intro b path hb
    cases hb with
    | null => exact .object hleft each
    | object hright others =>
      rw [merge_object]
      refine .object (nodup_keys hleft hright) fun field hf => ?_
      rcases List.mem_append.mp hf with hf | hf
      · obtain ⟨own, hown, he | ⟨other, hl, he⟩⟩ := mem_mergeFields hf
        · exact he ▸ each own hown
        · exact he ▸ ih own hown _ (others _ (mem_of_lookup hl))
      · obtain ⟨own, hown, rfl⟩ := List.mem_map.mp hf
        exact others own (List.mem_filter.mp hown).1
    | _ => exact .any

end Keyed

end Shape

end Specimen
