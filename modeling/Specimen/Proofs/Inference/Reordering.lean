import Specimen.Command
import Specimen.Proofs.Inference.Conflicts
import Mathlib.Data.List.Permutation
import Mathlib.Logic.Relation

/-! Whether a sample has conflicts. It has some exactly if values of two kinds lie at one position, so neither
the order of array items nor their repetition makes a difference. -/
namespace Specimen
open Json (Document)

namespace Shape

/-- A shape has an untyped position, at any depth. -/
inductive HasUntyped : Shape → Prop
  | here : HasUntyped .any
  | item {element : Shape} (inside : HasUntyped element) : HasUntyped (.array (some element))
  | field {fields : List (Text × Shape × Bool)} {field : Text × Shape × Bool} (mem : field ∈ fields)
    (inside : HasUntyped field.2.1) : HasUntyped (.object fields)

section Untyped
variable {shape : Shape}

private theorem lookup_of_mem {fields : List (Text × Shape × Bool)} (nodup : (fields.map (·.1)).Nodup)
    {field : Text × Shape × Bool} (h : field ∈ fields) : lookup field.1 fields = some field.2 := by
  induction fields with
  | nil => cases h
  | cons head rest ih =>
    obtain ⟨hout, hrest⟩ := List.nodup_cons.mp nodup
    rcases List.mem_cons.mp h with rfl | h
    · simp [lookup]
    · rw [lookup, if_neg fun he => hout (List.mem_map.mpr ⟨field, h, he.symm⟩), ih hrest h]

private theorem hasUntyped_iff (keyed : shape.IsKeyed) :
    shape.HasUntyped ↔ ∃ p, shape.at? p = some .any := by
  constructor
  · intro h
    induction h with
    | here => exact ⟨[], rfl⟩
    | item _ ih =>
      cases keyed with
      | array items =>
        obtain ⟨p, hp⟩ := ih items
        exact ⟨.item :: p, hp⟩
    | @field _ field mem _ ih =>
      cases keyed with
      | object nodup each =>
        obtain ⟨p, hp⟩ := ih (each _ mem)
        exact ⟨.member field.1 :: p, by simp [at?, enter, lookup_of_mem nodup mem, hp]⟩
  · rintro ⟨p, hp⟩
    clear keyed
    induction p generalizing shape with
    | nil => exact Option.some.inj hp ▸ .here
    | cons step rest ih =>
      obtain ⟨inner, hinner, hany⟩ := Option.bind_eq_some_iff.mp hp
      have inside := ih hany
      cases shape with
      | array element =>
        cases step with
        | item =>
          cases element with
          | none => cases hinner
          | some element => exact .item (Option.some.inj hinner ▸ inside)
        | member key => cases hinner
      | object fields =>
        cases step with
        | item => cases hinner
        | member key =>
          obtain ⟨field, hf, rfl⟩ := Option.map_eq_some_iff.mp hinner
          exact .field (mem_of_lookup hf) inside
      | _ => cases step <;> cases hinner

/-- A sample has no conflicts exactly if no position of its shape is untyped. -/
private theorem conflicts_eq_nil_iff {document : Document} (distinct : document.DistinctNames) (widen : Bool)
    (path : Text) : (ofDocument widen path document).2 = [] ↔
      ¬ (ofDocument widen path document).1.HasUntyped := by
  obtain ⟨places, located, placed⟩ := exists_placed widen path document distinct
  have hlength := congrArg List.length located
  rw [List.length_map, List.length_map] at hlength
  rw [hasUntyped_iff placed.keyed, ← List.length_eq_zero_iff, hlength, List.length_eq_zero_iff]
  constructor
  · rintro rfl ⟨p, hp⟩
    obtain ⟨q, hq, -⟩ := (placed.absorbs p).mp ⟨p, List.prefix_rfl, hp⟩
    cases hq
  · intro none
    refine List.eq_nil_iff_forall_not_mem.mpr fun p hp => none ?_
    obtain ⟨q, -, hq⟩ := (placed.absorbs p).mpr ⟨p, hp, List.prefix_rfl⟩
    exact ⟨q, hq⟩

end Untyped

end Shape

namespace Position
open Shape (Kind Common)

/-- A value of a kind lies at a position of samples. -/
def Shows (p : Position) (samples : List Document) (kind : Kind) : Prop :=
  ∃ value ∈ p.values samples, Kind.of? value = some kind

/-- Values of two kinds lie at a position of samples, and not numbers that widen. -/
def Disagrees (widen : Bool) (p : Position) (samples : List Document) : Prop :=
  ∃ a b, p.Shows samples a ∧ p.Shows samples b ∧ a ≠ b ∧
    ¬ (widen = true ∧ a.isNumber = true ∧ b.isNumber = true)

section Kinds
variable {widen : Bool} {samples : List Document} {p : Position}

private theorem ofKinds_eq_mixed_iff {kinds : List Kind} : Common.ofKinds widen kinds = .mixed ↔
    ∃ a ∈ kinds, ∃ b ∈ kinds, a ≠ b ∧ ¬ (widen = true ∧ a.isNumber = true ∧ b.isNumber = true) := by
  cases kinds with
  | nil => simp [Common.ofKinds]
  | cons kind rest =>
    rw [Common.ofKinds]
    split
    · rename_i same
      have all : ∀ a ∈ kind :: rest, a = kind :=
        List.forall_mem_cons.mpr ⟨rfl, fun a ha => of_decide_eq_true (List.all_eq_true.mp same a ha)⟩
      simp only [reduceCtorEq, false_iff, not_exists, not_and]
      exact fun a ha b hb hne => absurd ((all a ha).trans (all b hb).symm) hne
    · rename_i differ
      split
      · rename_i numbers
        obtain ⟨hw, hn⟩ := Bool.and_eq_true_iff.mp numbers
        have all := List.all_eq_true.mp hn
        simp only [reduceCtorEq, false_iff, not_exists, not_and]
        exact fun a ha b hb _ apart => apart hw (all a ha) (all b hb)
      · rename_i odd
        obtain ⟨other, ho, hne⟩ : ∃ other ∈ rest, kind ≠ other := by
          by_contra hsame
          refine differ (List.all_eq_true.mpr fun other ho => decide_eq_true ?_)
          by_contra hne
          exact hsame ⟨other, ho, Ne.symm hne⟩
        simp only [true_iff]
        -- the first kind stands against one that is no number, or else against another one
        by_cases hodd : ∃ c ∈ rest, kind ≠ c ∧ c.isNumber = false
        · obtain ⟨c, hc, hkc, hnumber⟩ := hodd
          exact ⟨kind, List.mem_cons_self, c, List.mem_cons_of_mem _ hc, hkc, by simp [hnumber]⟩
        · refine ⟨kind, List.mem_cons_self, other, List.mem_cons_of_mem _ ho, hne, fun hall => odd ?_⟩
          rw [hall.1, Bool.true_and, List.all_eq_true]
          refine List.forall_mem_cons.mpr ⟨hall.2.1, fun c hc => ?_⟩
          by_cases hkc : kind = c
          · exact hkc ▸ hall.2.1
          · by_contra hnumber
            exact hodd ⟨c, hc, hkc, by simpa using hnumber⟩

private theorem disagrees_iff : p.Disagrees widen samples ↔ Common.of widen (p.values samples) = .mixed := by
  rw [Common.of, ofKinds_eq_mixed_iff]
  simp only [Disagrees, Shows, List.mem_filterMap]
  constructor
  · rintro ⟨a, b, ha, hb, h⟩
    exact ⟨a, ha, b, hb, h⟩
  · rintro ⟨a, ha, b, hb, h⟩
    exact ⟨a, b, ha, hb, h⟩

private theorem values_cons (step : Step) (rest : Position) :
    Position.values (step :: rest) samples = Position.values rest (Position.values [step] samples) := by
  cases step <;> rfl

private theorem eq_ofAll_of_at? {shape : Shape} (h : (Shape.ofAll widen samples).at? p = some shape) :
    shape = Shape.ofAll widen (p.values samples) := by
  induction p generalizing samples with
  | nil => exact (Option.some.inj h).symm
  | cons step rest ih =>
    obtain ⟨inner, hinner, hrest⟩ := Option.bind_eq_some_iff.mp h
    obtain ⟨-, rfl⟩ := Shape.enter_ofAll hinner
    rw [values_cons]
    exact ih hrest

private theorem common_of_kind {kind : Kind} (hne : Common.of widen samples ≠ .mixed)
    (hnumber : kind.isNumber = false) (h : ∃ value ∈ samples, Kind.of? value = some kind) :
    Common.of widen samples = .all kind := by
  obtain ⟨value, hv, hk⟩ := h
  cases hc : Common.of widen samples with
  | mixed => exact absurd hc hne
  | nothing =>
    rw [Shape.of_eq_nothing_iff.mp hc value hv] at hk
    cases hk
  | all common =>
    rcases Common.kind_of_all hc hv hk with rfl | ⟨-, -, hn⟩
    · rfl
    · rw [hn] at hnumber
      cases hnumber

private theorem enter_ofAll_eq {step : Step} (hne : Common.of widen samples ≠ .mixed)
    (hvalues : Position.values [step] samples ≠ []) : (Shape.ofAll widen samples).enter step =
      some (Shape.ofAll widen (Position.values [step] samples)) := by
  obtain ⟨inner, hinner⟩ := List.exists_mem_of_ne_nil _ hvalues
  cases step with
  | item =>
    obtain ⟨value, hv, hin⟩ := List.mem_flatMap.mp hinner
    have hc : Common.of widen samples = .all .array := common_of_kind hne rfl ⟨value, hv, by
      cases value with
      | array => rfl
      | _ => cases hin⟩
    rw [Shape.ofAll_eq, hc]
    exact if_neg hvalues
  | member key =>
    obtain ⟨value, hv, hin⟩ := List.mem_filterMap.mp hinner
    have hc : Common.of widen samples = .all .object := common_of_kind hne rfl ⟨value, hv, by
      cases value with
      | object => rfl
      | _ => cases hin⟩
    have hname : key ∈ Shape.namesOf samples := Shape.mem_namesOf.mpr ⟨value, hv, by_contra fun hout => by
      rw [Json.Value.get?_eq_none_iff.mpr hout] at hin
      cases hin⟩
    rw [Shape.ofAll_eq, hc]
    simp only [Shape.enter, Shape.lookup_map, if_pos hname]
    rfl

/-- Values taken together have an untyped position exactly if they disagree at one. -/
private theorem exists_any_iff : (∃ p, (Shape.ofAll widen samples).at? p = some .any) ↔
    ∃ p : Position, p.Disagrees widen samples := by
  simp only [disagrees_iff]
  constructor
  · rintro ⟨p, hp⟩
    have h := eq_ofAll_of_at? hp
    refine ⟨p, ?_⟩
    rw [Shape.ofAll_eq] at h
    cases hc : Common.of widen (p.values samples) with
    | mixed => rfl
    | nothing => simp [hc] at h
    | all kind => cases kind <;> simp [hc] at h
  · rintro ⟨p, hp⟩
    induction p generalizing samples with
    | nil => exact ⟨[], by rw [Shape.at?, Shape.ofAll_eq, show Common.of widen samples = .mixed from hp]⟩
    | cons step rest ih =>
      by_cases hc : Common.of widen samples = .mixed
      · exact ⟨[], by rw [Shape.at?, Shape.ofAll_eq, hc]⟩
      · rw [values_cons] at hp
        obtain ⟨q, hq⟩ := ih hp
        refine ⟨step :: q, ?_⟩
        rw [Shape.at?, enter_ofAll_eq hc ?_]
        · exact hq
        · intro hnil
          rw [hnil, values_nil] at hp
          cases hp

end Kinds

section Shows
variable {p : Position} {kind : Kind}

@[simp] private theorem shows_nil {value : Document} : Shows [] [value] kind ↔ Kind.of? value = some kind := by
  simp [Shows, values]

private theorem not_shows {samples : List Document} (h : p.values samples = []) : ¬ p.Shows samples kind := by
  rintro ⟨value, hv, -⟩
  rw [h] at hv
  cases hv

private theorem shows_iff {samples : List Document} :
    p.Shows samples kind ↔ ∃ sample ∈ samples, p.Shows [sample] kind := by
  induction samples with
  | nil => simpa using not_shows (values_nil p)
  | cons sample rest ih =>
    have apart : p.Shows (sample :: rest) kind ↔ p.Shows [sample] kind ∨ p.Shows rest kind := by
      rw [Shows, ← List.singleton_append, values_append]
      simp [Shows, or_and_right, exists_or]
    rw [apart, ih]
    simp

private theorem shows_item {items : List Document} : Shows (.item :: p) [.array items] kind ↔
    ∃ item ∈ items, Shows p [item] kind := by
  rw [← shows_iff, Shows, values, Shape.itemsOf, List.flatMap_singleton, Shape.itemsIn, Shows]

private theorem shows_member {members : List (Text × Document)} {key : Text} :
    Shows (.member key :: p) [.object members] kind ↔
      ∃ value, Json.Value.get? members key = some value ∧ Shows p [value] kind := by
  rw [Shows, values, valuesAt_object]
  cases Json.Value.get? members key with
  | none => simp [values_nil]
  | some value => simp [Shows]

end Shows

end Position

/-- One array of a value, at any depth, has its items in another order or number: the same values are among
them. -/
inductive Rearranges : Document → Document → Prop
  | items {items others : List Document} (same : ∀ value, value ∈ items ↔ value ∈ others) :
    Rearranges (.array items) (.array others)
  | inItem {before after : List Document} {a b : Document} (inside : Rearranges a b) :
    Rearranges (.array (before ++ a :: after)) (.array (before ++ b :: after))
  | inMember {before after : List (Text × Document)} {key : Text} {a b : Document}
    (inside : Rearranges a b) :
    Rearranges (.object (before ++ (key, a) :: after)) (.object (before ++ (key, b) :: after))

namespace Rearranges
variable {sample other : Document}

theorem distinctNames (h : Rearranges sample other) (distinct : sample.DistinctNames) :
    other.DistinctNames := by
  induction h with
  | items same =>
    rw [Json.Value.DistinctNames, Json.Value.everyObject_array] at distinct ⊢
    exact fun item hi => distinct item ((same item).mpr hi)
  | inItem _ ih =>
    rw [Json.Value.DistinctNames, Json.Value.everyObject_array] at distinct ⊢
    simp only [List.forall_mem_append, List.forall_mem_cons] at distinct ⊢
    exact ⟨distinct.1, ih distinct.2.1, distinct.2.2⟩
  | inMember _ ih =>
    rw [Json.Value.DistinctNames, Json.Value.everyObject_object] at distinct ⊢
    simp only [List.forall_mem_append, List.forall_mem_cons, Json.Value.names, List.map_append,
      List.map_cons] at distinct ⊢
    exact ⟨distinct.1, distinct.2.1, ih distinct.2.2.1, distinct.2.2.2⟩

private theorem get?_replaced (before after : List (Text × Document)) (key name : Text) (a b : Document) :
    (Json.Value.get? (before ++ (key, a) :: after) name = Json.Value.get? (before ++ (key, b) :: after) name) ∨
      Json.Value.get? (before ++ (key, a) :: after) name = some a ∧
        Json.Value.get? (before ++ (key, b) :: after) name = some b := by
  simp only [Json.Value.get?, List.find?_append, List.find?_cons]
  cases before.find? (·.1 == name) with
  | some member => exact .inl rfl
  | none =>
    by_cases hk : key == name
    · simp [hk]
    · simp [hk]

/-- The kinds of the values at a position stay the same. -/
theorem shows_iff (h : Rearranges sample other) (p : Position) (kind : Shape.Kind) :
    p.Shows [sample] kind ↔ p.Shows [other] kind := by
  induction h generalizing p with
  | items same =>
    cases p with
    | nil => simp [Shape.Kind.of?]
    | cons step rest =>
      cases step with
      | item => simp only [Position.shows_item, same]
      | member key => exact Iff.rfl
  | inItem _ ih =>
    cases p with
    | nil => simp [Shape.Kind.of?]
    | cons step rest =>
      cases step with
      | item => simp [Position.shows_item, or_and_right, exists_or, ih rest]
      | member key => exact Iff.rfl
  | @inMember before after key a b _ ih =>
    cases p with
    | nil => simp [Shape.Kind.of?]
    | cons step rest =>
      cases step with
      | item => exact Iff.rfl
      | member name =>
        rw [Position.shows_member, Position.shows_member]
        rcases get?_replaced before after key name a b with he | ⟨ha, hb⟩
        · rw [he]
        · rw [ha, hb]
          simpa using ih rest

end Rearranges

section Conflicts
variable {sample other : Document}

private theorem settled_eq_any {shape : Shape} : shape.settled = .any ↔ shape = .any := by
  cases shape with
  | array element => cases element <;> simp [Shape.settled]
  | _ => simp [Shape.settled]

/-- A sample has conflicts exactly if values disagree at one of its positions. -/
private theorem conflicts_ne_nil_iff (distinct : sample.DistinctNames) (widen : Bool) (path : Text) :
    (Shape.ofDocument widen path sample).2 ≠ [] ↔ ∃ p : Position, p.Disagrees widen [sample] := by
  obtain ⟨_, -, placed⟩ := Shape.exists_placed widen path sample distinct
  rw [Ne, Shape.conflicts_eq_nil_iff distinct, not_not, Shape.hasUntyped_iff placed.keyed,
    ← Position.exists_any_iff, ← Shape.settled_ofDocument widen path sample distinct]
  simp [Shape.at?_settled, settled_eq_any]

/-- Rearranging arrays one after the other keeps the kinds at every position. -/
private theorem shows_rearranged (h : Relation.ReflTransGen Rearranges sample other)
    (distinct : sample.DistinctNames) : other.DistinctNames ∧
      ∀ (p : Position) (kind : Shape.Kind), p.Shows [other] kind ↔ p.Shows [sample] kind := by
  induction h with
  | refl => exact ⟨distinct, fun p kind => Iff.rfl⟩
  | tail _ step ih =>
    exact ⟨step.distinctNames ih.1, fun p kind => (step.shows_iff p kind).symm.trans (ih.2 p kind)⟩

private theorem conflicts_rearranged (h : Relation.ReflTransGen Rearranges sample other)
    (distinct : sample.DistinctNames) (widen : Bool) (path : Text) :
    (Shape.ofDocument widen path other).2 = [] ↔ (Shape.ofDocument widen path sample).2 = [] := by
  obtain ⟨distinct', shows⟩ := shows_rearranged h distinct
  rw [← not_iff_not]
  refine (conflicts_ne_nil_iff distinct' widen path).trans (Iff.trans ?_
    (conflicts_ne_nil_iff distinct widen path).symm)
  simp only [Position.Disagrees, shows]

private theorem conflicts_generated {options : Options} {nameSpace : Option Text} {rootName text : Text}
    {style : Option CodeStyle} {generated : Generated} (parsed : Json.parse text = .ok sample)
    (h : options.generate nameSpace rootName style text = .ok generated) :
    generated.conflicts = (Shape.ofDocument options.widen "$" sample).2 := by
  obtain ⟨_, -, h⟩ := ok_of_bind h
  obtain ⟨result, hresult, h⟩ := ok_of_bind h
  obtain ⟨_, -, h⟩ := ok_of_bind h
  obtain ⟨_, -, h⟩ := ok_of_bind h
  cases h
  rw [Options.inferText, parsed] at hresult
  exact Inference.conflicts_eq hresult

/-- A sample has conflicts exactly if its shape has an untyped position. Whatever items of its arrays are
put into another order or repeated, at any depth, it has conflicts as before, and so has the source generated
from it; where conflicts withhold the source, it is withheld as before. -/
theorem hasConflicts_rearranged (distinct : sample.DistinctNames) :
    (∀ widen path, (Shape.ofDocument widen path sample).2 = [] ↔
      ¬ (Shape.ofDocument widen path sample).1.HasUntyped) ∧
    ∀ other, Relation.ReflTransGen Rearranges sample other →
      (∀ widen path, (Shape.ofDocument widen path other).2 = [] ↔
        (Shape.ofDocument widen path sample).2 = []) ∧
      ∀ (options : Options) nameSpace rootName style text text' generated generated',
        Json.parse text = .ok sample → Json.parse text' = .ok other →
        options.generate nameSpace rootName style text = .ok generated →
        options.generate nameSpace rootName style text' = .ok generated' →
          generated'.hasConflicts = generated.hasConflicts ∧
            ((Command.copyGenerated options.blockOnConflicts generated').copied = [] ↔
              (Command.copyGenerated options.blockOnConflicts generated).copied = []) := by
  refine ⟨Shape.conflicts_eq_nil_iff distinct, fun other h => ⟨conflicts_rearranged h distinct, ?_⟩⟩
  intro options nameSpace rootName style text text' generated generated' parsed parsed' made made'
  have same : generated'.hasConflicts = generated.hasConflicts := by
    rw [Generated.hasConflicts, Generated.hasConflicts, conflicts_generated parsed made,
      conflicts_generated parsed' made', Bool.not_inj_iff, Bool.eq_iff_iff, List.isEmpty_iff,
      List.isEmpty_iff]
    exact conflicts_rearranged h distinct options.widen "$"
  refine ⟨same, ?_⟩
  rw [Command.copyGenerated, Command.copyGenerated, same]
  cases generated.hasConflicts <;> cases options.blockOnConflicts <;>
    simp [Outcome.done, Outcome.withheld]

/-- Two lists inside a list of which one disagrees in itself; in another order, with one of them repeated,
they disagree elsewhere too. Both sources are withheld. -/
theorem hasConflicts_rearranged_lists :
    let sample : Document := .object
      [("r", .array [.array [.number "1", .string "a"], .array [.number "2"]])]
    let other : Document := .object
      [("r", .array [.array [.number "2"], .array [.string "a", .number "1"], .array [.number "2"]])]
    let options : Options := ⟨"Generated", .dataclass, true, true⟩
    sample.DistinctNames ∧ Relation.ReflTransGen Rearranges sample other ∧
      ∃ generated generated', options.generate none "Root" none "\x7b\"r\":[[1,\"a\"],[2]]\x7d" = .ok generated ∧
        options.generate none "Root" none "\x7b\"r\":[[2],[\"a\",1],[2]]\x7d" = .ok generated' ∧
        generated.hasConflicts = true ∧ generated'.hasConflicts = true ∧
        (Command.copyGenerated options.blockOnConflicts generated').copied = [] := by
  intro sample other options
  have distinct : sample.DistinctNames := by decide
  have rearranged : Relation.ReflTransGen Rearranges sample other := by
    have inner : Rearranges (.array [.number "1", .string "a"]) (.array [.string "a", .number "1"]) :=
      .items (by simp [or_comm])
    refine .tail (.single (@Rearranges.inMember [] [] _ _ _ (@Rearranges.inItem [] _ _ _ inner)))
      (@Rearranges.inMember [] [] _ _ _ (.items ?_))
    simp [or_comm]
  have parsed : Json.parse "\x7b\"r\":[[1,\"a\"],[2]]\x7d" = .ok sample := by cbv
  have parsed' : Json.parse "\x7b\"r\":[[2],[\"a\",1],[2]]\x7d" = .ok other := by cbv
  have run : (options.generate none "Root" none "\x7b\"r\":[[1,\"a\"],[2]]\x7d").toOption.map
      (fun generated => (generated.hasConflicts,
        (Command.copyGenerated options.blockOnConflicts generated).copied)) = some (true, []) := by
    decide +kernel
  have run' : (options.generate none "Root" none "\x7b\"r\":[[2],[\"a\",1],[2]]\x7d").toOption.map
      (fun _ => ()) = some () := by decide +kernel
  obtain ⟨generated, made, hshown⟩ := exists_ok_of_map run
  obtain ⟨generated', made', -⟩ := exists_ok_of_map run'
  obtain ⟨hconflicts, hcopied⟩ := Prod.mk.inj hshown
  obtain ⟨same, withheld⟩ := ((hasConflicts_rearranged distinct).2 other rearranged).2 options none "Root"
    none _ _ generated generated' parsed parsed' made made'
  exact ⟨distinct, rearranged, generated, generated', made, made', hconflicts, same.trans hconflicts,
    withheld.mpr hcopied⟩

end Conflicts

end Specimen
