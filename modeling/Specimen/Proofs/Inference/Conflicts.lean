import Specimen.Proofs.Inference.Merging
import Specimen.Proofs.Steps
import Specimen.Inference.Infer
import Mathlib.Data.List.Count
import Mathlib.Data.List.Dedup

/-! Where the conflicts of a sample lie. Each array on the way to a position records at most one conflict for
it, and the positions with a conflict are those that end untyped or inside an untyped one. -/
namespace Specimen
open Json (Document)

namespace Shape

/-- What the shape of samples says of positions, with the places of the conflicts met on the way to it. -/
structure Placed (samples : List Document) (shape : Shape) (places : List Position) : Prop where
  keyed : shape.IsKeyed
  absorbs : ∀ p, shape.Absorbs p ↔ ∃ q ∈ places, q <+: p
  found : ∀ p ∈ places, Position.values p samples ≠ []
  count : ∀ p, places.count p ≤ Position.arrays p samples

/-- What merging items into what was observed before them does to positions. A position that was untyped
before gets a conflict from inside an item only. -/
private structure PlacedItems (seen : Option Shape) (items : List Document) (result : Option Shape)
    (places : List Position) : Prop where
  keyed : ∀ shape ∈ result, shape.IsKeyed
  absorbs : ∀ p, (∃ shape ∈ result, shape.Absorbs p) ↔
    (∃ shape ∈ seen, shape.Absorbs p) ∨ ∃ q ∈ places, q <+: p
  found : ∀ p ∈ places, Position.values p items ≠ []
  count : ∀ p, places.count p ≤ Position.arrays p items + 1
  absorbed : ∀ p, (∃ shape ∈ seen, shape.Absorbs p) → places.count p ≤ Position.arrays p items

section Placed
variable {item : Document} {rest : List Document} {shape before merged : Shape} {result : Option Shape}
  {inner between places : List Position}

private theorem found_cons {p : Position} (h : Position.values p [item] ≠ [] ∨ Position.values p rest ≠ []) :
    Position.values p (item :: rest) ≠ [] := by
  rw [← List.singleton_append, Position.values_append]
  exact fun hn => h.elim (· (List.append_eq_nil_iff.mp hn).1) (· (List.append_eq_nil_iff.mp hn).2)

private theorem arrays_cons (p : Position) (item : Document) (rest : List Document) :
    Position.arrays p (item :: rest) = Position.arrays p [item] + Position.arrays p rest := by
  rw [← List.singleton_append, Position.arrays_append]

private theorem PlacedItems.first (h : Placed [item] shape inner)
    (h' : PlacedItems (some shape) rest result places) :
    PlacedItems none (item :: rest) result (inner ++ places) where
  keyed := h'.keyed
  absorbs p := by
    rw [h'.absorbs]
    simp [h.absorbs, or_and_right, exists_or]
  found p hp := found_cons ((List.mem_append.mp hp).imp (h.found p) (h'.found p))
  count p := by
    rw [List.count_append, arrays_cons]
    have := h.count p
    have := h'.count p
    omega
  absorbed p hp := by simp at hp

private theorem PlacedItems.next (h : Placed [item] shape inner)
    (hmerged : Merged before shape merged between) (found : ∀ p ∈ between, Position.values p [item] ≠ [])
    (h' : PlacedItems (some merged) rest result places) :
    PlacedItems (some before) (item :: rest) result (inner ++ between ++ places) where
  keyed := h'.keyed
  absorbs p := by
    rw [h'.absorbs]
    simp [h.absorbs, hmerged.absorbs, or_and_right, exists_or, or_assoc]
  found p hp := by
    rcases List.mem_append.mp hp with hp | hp
    · exact found_cons (.inl ((List.mem_append.mp hp).elim (h.found p) (found p)))
    · exact found_cons (.inr (h'.found p hp))
  count p := by
    rw [List.count_append, List.count_append, arrays_cons]
    have hitem := h.count p
    have hrest := h'.count p
    by_cases hp : p ∈ between
    · have hone : between.count p ≤ 1 := List.nodup_iff_count_le_one.mp hmerged.nodup p
      have := h'.absorbed p ⟨merged, rfl, (hmerged.absorbs p).mpr (.inr (.inr ⟨p, hp, List.prefix_rfl⟩))⟩
      omega
    · rw [List.count_eq_zero_of_not_mem hp]
      omega
  absorbed p hp := by
    obtain ⟨_, ⟨⟩, hbefore⟩ := hp
    rw [List.count_append, List.count_append, arrays_cons,
      List.count_eq_zero_of_not_mem fun hp => (hmerged.fresh p hp).1 hbefore]
    have := h.count p
    have := h'.absorbed p ⟨merged, rfl, (hmerged.absorbs p).mpr (.inl hbefore)⟩
    omega

private theorem count_behind (step : Step) (places : List Position) (p : Position) :
    (places.map (step :: ·)).count (step :: p) = places.count p :=
  List.count_map_of_injective places _ List.cons_injective p

private theorem count_elsewhere {step : Step} {p : Position} (h : ∀ rest, p ≠ step :: rest) :
    (inner.map (step :: ·)).count p = 0 := by
  refine List.count_eq_zero_of_not_mem fun hp => ?_
  obtain ⟨rest, -, rfl⟩ := List.mem_map.mp hp
  exact h rest rfl

private theorem placed_leaf (hkeyed : shape.IsKeyed) (h : ∀ p, ¬ shape.Absorbs p) :
    Placed [item] shape [] where
  keyed := hkeyed
  absorbs p := by simp [h p]
  found := nofun
  count p := Nat.zero_le _

private theorem PlacedItems.array {items : List Document} (h : PlacedItems none items result places) :
    Placed [.array items] (.array result) (places.map (.item :: ·)) where
  keyed := by
    cases result with
    | none => exact .empty
    | some element => exact .array (h.keyed element rfl)
  absorbs p := by
    cases p with
    | nil => simp
    | cons step rest =>
      cases step with
      | item => simpa [absorbs_item, List.cons_prefix_cons] using h.absorbs rest
      | member key => simp [absorbs_cons, enter, List.cons_prefix_cons]
  found p hp := by
    obtain ⟨q, hq, rfl⟩ := List.mem_map.mp hp
    simpa [Position.values, itemsOf, itemsIn] using h.found q hq
  count p := by
    cases p with
    | nil =>
      rw [count_elsewhere (by simp)]
      exact Nat.zero_le _
    | cons step rest =>
      cases step with
      | item =>
        rw [count_behind, Position.arrays, itemsOf, List.flatMap_singleton, itemsIn,
          List.countP_singleton, Kind.of?, Nat.add_comm]
        exact h.count rest
      | member key =>
        rw [count_elsewhere (by simp)]
        exact Nat.zero_le _

section Members
variable {key : Text} {value : Document} {members : List (Text × Document)}
  {fields : List (Text × Shape × Bool)}

private theorem get?_head : Json.Value.get? ((key, value) :: members) key = some value := by
  simp [Json.Value.get?]

private theorem get?_behind {name : Text} (h : name ≠ key) :
    Json.Value.get? ((key, value) :: members) name = Json.Value.get? members name := by
  simp [Json.Value.get?, h.symm]

private theorem Placed.heads (h : Placed [.object members] (.object fields) places) {p : Position}
    (hp : p ∈ places) : ∃ name rest, p = .member name :: rest ∧ name ∈ Json.Value.names members := by
  cases p with
  | nil => exact absurd ((h.absorbs []).mpr ⟨[], hp, List.nil_prefix⟩) (by simp)
  | cons step rest =>
    have found := h.found _ hp
    cases step with
    | item => exact absurd (Position.values_nil rest) found
    | member name =>
      refine ⟨name, rest, rfl, by_contra fun hout => found ?_⟩
      rw [Position.values, Position.valuesAt_object, Json.Value.get?_eq_none_iff.mpr hout]
      exact Position.values_nil rest

private theorem keys_ofMembers (widen : Bool) (path : Text) (members : List (Text × Document)) :
    (ofMembers widen path members).1.map (·.1) = Json.Value.names members := by
  induction members with
  | nil => rfl
  | cons member rest ih => exact congrArg (member.1 :: ·) ih

/-- A member adds to the places of those behind it the ones inside its value. -/
private theorem Placed.member (h : Placed [value] shape inner)
    (h' : Placed [.object members] (.object fields) places) (hkey : key ∉ Json.Value.names members)
    (hkeys : fields.map (·.1) = Json.Value.names members) :
    Placed [.object ((key, value) :: members)] (.object ((key, shape, false) :: fields))
      (inner.map (.member key :: ·) ++ places) where
  keyed := by
    cases h'.keyed with
    | object nodup each =>
      refine .object (List.nodup_cons.mpr ⟨hkeys ▸ hkey, nodup⟩) ?_
      exact List.forall_mem_cons.mpr ⟨h.keyed, each⟩
  absorbs p := by
    have apart : ∀ rest, ¬ ∃ q ∈ places, q <+: .member key :: rest := by
      rintro rest ⟨q, hq, hprefix⟩
      obtain ⟨name, _, rfl, hname⟩ := h'.heads hq
      cases (List.cons_prefix_cons.mp hprefix).1
      exact hkey hname
    have behind : ∀ p, (∀ rest, p ≠ .member key :: rest) →
        ((∃ q ∈ inner.map (.member key :: ·) ++ places, q <+: p) ↔ ∃ q ∈ places, q <+: p) := by
      intro p hp
      simp only [List.mem_append, or_and_right, exists_or, List.mem_map]
      refine or_iff_right ?_
      rintro ⟨_, ⟨rest, -, rfl⟩, more, rfl⟩
      exact hp _ rfl
    cases p with
    | nil =>
      rw [behind _ (by simp), ← h'.absorbs]
      simp
    | cons step rest =>
      cases step with
      | item =>
        rw [behind _ (by simp), ← h'.absorbs]
        simp [absorbs_cons, enter]
      | member name =>
        by_cases hk : key = name
        · subst hk
          rw [absorbs_member, enter_head]
          simp [h.absorbs rest, or_and_right, exists_or, apart rest, List.cons_prefix_cons]
        · rw [behind _ fun _ he => hk (by cases he; rfl), ← h'.absorbs, absorbs_member, absorbs_member,
            enter_behind hk]
  found p hp := by
    rcases List.mem_append.mp hp with hp | hp
    · obtain ⟨q, hq, rfl⟩ := List.mem_map.mp hp
      rw [Position.values, Position.valuesAt_object, get?_head]
      exact h.found q hq
    · have found := h'.found p hp
      obtain ⟨name, rest, rfl, hname⟩ := h'.heads hp
      have hne : name ≠ key := fun he => hkey (he ▸ hname)
      rw [Position.values, Position.valuesAt_object] at found ⊢
      rwa [get?_behind hne]
  count p := by
    rw [List.count_append]
    by_cases hp : ∃ rest, p = .member key :: rest
    · obtain ⟨rest, rfl⟩ := hp
      have none : .member key :: rest ∉ places := fun hp => by
        obtain ⟨_, _, hhead, hname⟩ := h'.heads hp
        cases hhead
        exact hkey hname
      rw [count_behind, List.count_eq_zero_of_not_mem none, Position.arrays, Position.valuesAt_object,
        get?_head]
      exact h.count rest
    · rw [count_elsewhere fun rest he => hp ⟨rest, he⟩, Nat.zero_add]
      refine Nat.le_trans (h'.count p) ?_
      cases p with
      | nil => exact Nat.le_refl _
      | cons step rest =>
        cases step with
        | item => exact Nat.le_refl _
        | member name =>
          have hne : name ≠ key := fun he => hp ⟨rest, by rw [he]⟩
          refine Nat.le_of_eq ?_
          rw [Position.arrays, Position.arrays, Position.valuesAt_object, Position.valuesAt_object,
            get?_behind hne]

end Members

end Placed

mutual

/-- The conflicts met on the way to the shape of a document lie at the positions that become untyped. -/
theorem exists_placed (widen : Bool) : ∀ (path : Text) (document : Document), document.DistinctNames →
    ∃ places, Located path (ofDocument widen path document).2 places ∧
      Placed [document] (ofDocument widen path document).1 places
  | _, .null, _ => ⟨[], rfl, placed_leaf .null not_absorbs_null⟩
  | _, .bool _, _ => ⟨[], rfl, placed_leaf (.scalar _) (not_absorbs_scalar · _)⟩
  | _, .number _, _ => ⟨[], rfl, placed_leaf (.scalar _) (not_absorbs_scalar · _)⟩
  | _, .string _, _ => ⟨[], rfl, placed_leaf (.scalar _) (not_absorbs_scalar · _)⟩
  | path, .array items, distinct => by
    obtain ⟨places, located, h⟩ := exists_placedItems widen (itemPath path) items
      ((Json.Value.everyObject_array _ items).mp distinct) none nofun
    refine ⟨places.map (.item :: ·), ?_, h.array⟩
    rw [Located, List.map_map]
    exact located
  | path, .object members, distinct => by
    obtain ⟨names, inside⟩ := (Json.Value.everyObject_object _ members).mp distinct
    exact exists_placedMembers widen path members names inside

private theorem exists_placedItems (widen : Bool) (path : Text) : ∀ items : List Document,
    (∀ item ∈ items, item.DistinctNames) → ∀ seen : Option Shape, (∀ shape ∈ seen, shape.IsKeyed) →
    ∃ places, Located path (ofItems widen path seen items).2 places ∧
      PlacedItems seen items (ofItems widen path seen items).1 places
  | [], _, seen, keyed => ⟨[], rfl, keyed, by simp [ofItems], nofun, by simp, by simp⟩
  | item :: rest, distinct, seen, keyed => by
    obtain ⟨hitem, hrest⟩ := List.forall_mem_cons.mp distinct
    obtain ⟨inner, located, h⟩ := exists_placed widen path item hitem
    cases seen with
    | none =>
      obtain ⟨places, located', h'⟩ := exists_placedItems widen path rest hrest
        (some (ofDocument widen path item).1) (by rintro _ ⟨⟩; exact h.keyed)
      refine ⟨inner ++ places, ?_, h'.first h⟩
      simp only [ofItems, Located, List.map_append, List.append_nil]
      exact congrArg₂ (· ++ ·) located located'
    | some before =>
      have hbefore := keyed before rfl
      obtain ⟨between, located', hmerged⟩ :=
        exists_merged widen hbefore (ofDocument widen path item).1 path
      obtain ⟨places, located'', h'⟩ := exists_placedItems widen path rest hrest
        (some (merge widen path before (ofDocument widen path item).1).1)
        (by rintro _ ⟨⟩; exact hbefore.merge widen path h.keyed)
      refine ⟨inner ++ between ++ places, ?_, h'.next h hmerged fun p hp => ?_⟩
      · simp only [ofItems, Located, List.map_append]
        exact congrArg₂ (· ++ ·) (congrArg₂ (· ++ ·) located located') located''
      -- where the item has a shape, it has a value
      · refine values_ne_nil widen (List.cons_ne_nil _ _) ?_
        rw [← settled_ofDocument widen path item hitem, at?_settled, Option.isSome_map]
        exact hmerged.met p hp

private theorem exists_placedMembers (widen : Bool) (path : Text) : ∀ members : List (Text × Document),
    (Json.Value.names members).Nodup → (∀ member ∈ members, member.2.DistinctNames) →
    ∃ places, Located path (ofMembers widen path members).2 places ∧
      Placed [.object members] (.object (ofMembers widen path members).1) places
  | [], _, _ => ⟨[], rfl, placed_leaf (.object List.nodup_nil nofun) fun p =>
      not_absorbs_of_enter p nofun fun step => by cases step <;> rfl⟩
  | (key, value) :: rest, nodup, distinct => by
    obtain ⟨hout, hrest⟩ := List.nodup_cons.mp nodup
    obtain ⟨hvalue, hvalues⟩ := List.forall_mem_cons.mp distinct
    obtain ⟨inner, located, h⟩ := exists_placed widen (memberPath path key) value hvalue
    obtain ⟨places, located', h'⟩ := exists_placedMembers widen path rest hrest hvalues
    refine ⟨inner.map (.member key :: ·) ++ places, ?_, h.member h' hout (keys_ofMembers widen path rest)⟩
    rw [ofMembers, Located, List.map_append, List.map_append, List.map_map]
    exact congrArg₂ (· ++ ·) located located'

end

end Shape

namespace Inference
open Shape (Located)

/-- The conflicts of a graph are those met on the way to the shape of its sample. -/
theorem conflicts_eq {sample : Document} {widen : Bool} {nameSpace rootName : Text} {result : Result}
    (h : infer widen nameSpace rootName sample = .ok result) :
    result.conflicts = (Shape.ofDocument widen "$" sample).2 := by
  rw [infer, inferWith] at h
  split at h
  · cases h
  · obtain ⟨graph, -, h⟩ := ok_of_bind h
    cases h
    rfl

/-- The conflicts of a sample lie at positions that are untyped in the end or inside such ones, and every
untyped position has one. A position has at most as many as the sample has arrays on the way to it. So where
no array lies inside another, each has exactly one, the summary starts with the number of the positions, and
if no key can be taken for several steps their texts are distinct. -/
theorem infer_conflicts {sample : Document} (distinct : sample.DistinctNames) {widen : Bool}
    {nameSpace rootName : Text} {result : Result}
    (h : infer widen nameSpace rootName sample = .ok result) :
    ∃ places : List Position, Located "$" result.conflicts places ∧
      (∀ p, (Shape.ofDocument widen "$" sample).1.at? p = some .any → p ∈ places) ∧
      (∀ p ∈ places, (Shape.ofDocument widen "$" sample).1.Absorbs p) ∧
      (∀ p, places.count p ≤ p.arrays [sample]) ∧
      (Position.nestsArrays sample = false → places.Nodup ∧
        Text.ofNat places.dedup.length <+: Conflict.summarize result.conflicts ∧
        (sample.EveryObject (fun names => ∀ name ∈ names, Position.IsPlainKey name) →
          (result.conflicts.map (·.path)).Nodup)) := by
  obtain ⟨places, located, placed⟩ := Shape.exists_placed widen "$" sample distinct
  have hconflicts : result.conflicts = (Shape.ofDocument widen "$" sample).2 := conflicts_eq h
  have hlocated : Located "$" result.conflicts places := hconflicts ▸ located
  refine ⟨places, hlocated, fun p hp => ?_, fun p hp => ?_, placed.count, fun flat => ?_⟩
  · obtain ⟨q, hq, hprefix⟩ := (placed.absorbs p).mp ⟨p, List.prefix_rfl, hp⟩
    have := (placed.absorbs q).mpr ⟨q, hq, List.prefix_rfl⟩
    exact Shape.eq_of_absorbs hp hprefix this ▸ hq
  · exact (placed.absorbs p).mpr ⟨p, hp, List.prefix_rfl⟩
  · have nodup : places.Nodup := List.nodup_iff_count_le_one.mpr fun p =>
      Nat.le_trans (placed.count p) (Position.arrays_le_one flat p)
    refine ⟨nodup, ?_, fun plain => ?_⟩
    · rw [nodup.dedup, ← List.length_map (Position.path "$"), ← hlocated, List.length_map]
      exact ⟨_, (List.append_assoc _ _ _).symm⟩
    · rw [hlocated]
      refine nodup.map_on fun p hp q hq he => ?_
      have keys := fun p hp => Position.key_of_values (List.forall_mem_singleton.mpr plain)
        (placed.found p hp)
      exact Position.path_injective "$" (keys p hp) (keys q hq) he

/-- Positions that take in further samples after their conflict, one of them in the objects of a list. -/
theorem infer_conflicts_rows :
    let sample : Document := .object
      [("rows", .array [.object [("v", .number "1")], .object [("v", .string "x")],
          .object [("v", .bool true)], .object [("v", .object [("k", .number "1")])]]),
        ("w", .array [.number "1", .null, .string "a", .object []])]
    sample.DistinctNames ∧ Position.nestsArrays sample = false ∧
      sample.EveryObject (fun names => ∀ name ∈ names, Position.IsPlainKey name) ∧
      ∃ result, infer true "" "Root" sample = .ok result ∧ (result.conflicts.map (·.path)).Nodup ∧
        result.conflicts.length = 2 := by
  intro sample
  have distinct : sample.DistinctNames := by decide
  have flat : Position.nestsArrays sample = false := by decide
  have plain : sample.EveryObject fun names => ∀ name ∈ names, Position.IsPlainKey name := by decide
  have hrun : (infer true "" "Root" sample).toOption.map (·.conflicts.length) = some 2 := by
    decide +kernel
  obtain ⟨result, hresult, hlength⟩ := exists_ok_of_map hrun
  obtain ⟨_, -, -, -, -, each⟩ := infer_conflicts distinct hresult
  exact ⟨distinct, flat, plain, result, hresult, (each flat).2.2 plain, hlength⟩

/-- Two lists inside a list disagree each by itself, so the position of their items has two conflicts. -/
theorem infer_conflicts_repeated :
    let sample : Document := .array
      [.array [.number "1", .string "a"], .array [.number "1", .string "a"]]
    sample.DistinctNames ∧ ∃ result, infer true "" "Root" sample = .ok result ∧
      ¬ (result.conflicts.map (·.path)).Nodup := by
  intro sample
  have hrun : (infer true "" "Root" sample).toOption.map (·.conflicts.map (·.path)) =
      some [("$[][]" : Text), "$[][]"] := by decide +kernel
  obtain ⟨result, hresult, hpaths⟩ := exists_ok_of_map hrun
  refine ⟨by decide, result, hresult, ?_⟩
  rw [hpaths]
  decide

end Inference

end Specimen
