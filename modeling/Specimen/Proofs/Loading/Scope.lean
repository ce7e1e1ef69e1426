import Specimen.Loading.Class
import Specimen.Proofs.Reflection.Bindings
import Specimen.Proofs.Steps

/-! Names lead to classes that have been declared. This holds of what modules and classes bind, so it holds of
what dotted names denote and of the bases of a class declaration. -/
namespace Specimen
variable {count more : Nat} {c : ClassRef} {d found : Referent} {name : Text}

section Known

/-- A standard class, or one of the first classes that were declared. -/
def ClassRef.IsKnown (count : Nat) : ClassRef → Prop
  | .standard _ => True
  | .declared index => index < count

theorem ClassRef.IsKnown.mono (h : c.IsKnown count) (le : count ≤ more) : c.IsKnown more := by
  cases c with
  | standard s => trivial
  | declared index => exact Nat.lt_of_lt_of_le h le

/-- A referent that is a class is a known one, and an object is one of a known class. -/
def Referent.IsKnown (count : Nat) : Referent → Prop
  | .cls c | .object c => c.IsKnown count
  | _ => True

instance : (c : ClassRef) → Decidable (c.IsKnown count)
  | .standard _ => .isTrue trivial
  | .declared index => inferInstanceAs (Decidable (index < count))

instance : (d : Referent) → Decidable (d.IsKnown count)
  | .cls c | .object c => inferInstanceAs (Decidable (c.IsKnown count))
  | .data _ | .ellipsis | .module _ | .form _ | .member _ _ | .text _ | .forward _ _ _ | .generic _ _ _
  | .literal _ | .annotated _ _ | .classVar _ | .final _ | .initVar _ | .union _ _ => .isTrue trivial

theorem Referent.IsKnown.mono (h : d.IsKnown count) (le : count ≤ more) : d.IsKnown more := by
  cases d with
  | cls c | object c => exact ClassRef.IsKnown.mono h le
  | _ => trivial

/-- What names are bound to is known. -/
def AllKnown (count : Nat) (names : Bindings) : Prop := ∀ entry ∈ names, entry.2.IsKnown count

theorem AllKnown.mono {names : Bindings} (h : AllKnown count names) (le : count ≤ more) : AllKnown more names :=
  fun entry he => (h entry he).mono le

theorem AllKnown.put {names : Bindings} (h : AllKnown count names) (known : d.IsKnown count) :
    AllKnown count (Json.put name d names) := by
  intro entry he
  rcases Json.mem_put he with rfl | he
  · exact known
  · exact h entry he

theorem AllKnown.append {names others : Bindings} (h : AllKnown count names) (h' : AllKnown count others) :
    AllKnown count (names ++ others) := fun entry he =>
  (List.mem_append.mp he).elim (h entry) (h' entry)

theorem AllKnown.of_lookup {names : Bindings} (h : AllKnown count names) (hd : List.lookup name names = some d) :
    d.IsKnown count := h (name, d) (mem_of_lookup hd)

end Known

namespace World
variable {world : World}

/-- What modules and classes bind is known, and so is what stands above a class. -/
structure IsScoped (world : World) : Prop where
  names : ∀ m ∈ world.modules, AllKnown world.classes.length m.names
  attributes : ∀ info ∈ world.classes, ∀ entry ∈ info.attributes,
    entry.2.referent.IsKnown world.classes.length
  ancestors : ∀ info ∈ world.classes, ∀ k ∈ info.ancestors, k.IsKnown world.classes.length

namespace IsScoped
variable (h : world.IsScoped)
include h

theorem allKnown_namesOf (moduleName : Text) : AllKnown world.classes.length (world.namesOf moduleName) := by
  rw [namesOf]
  cases hm : world.module? moduleName with
  | none => exact nofun
  | some m => exact h.names m (List.mem_of_find?_eq_some hm)

omit h in
private theorem mem_of_info? {info : ClassInfo} (found : world.info? c = some info) : info ∈ world.classes := by
  cases c with
  | standard s => cases found
  | declared index => exact List.mem_of_getElem? found

private theorem isKnown_ownAttribute? {bound : ClassAttribute} (found : world.ownAttribute? c name = some bound) :
    bound.referent.IsKnown world.classes.length := by
  have entry := mem_of_lookup found
  rw [ownAttributes.eq_def] at entry
  split at entry
  · obtain ⟨_, -, same⟩ := List.mem_map.mp entry
    cases same
    trivial
  · cases hi : world.info? c with
    | none =>
      rw [hi] at entry
      cases entry
    | some info =>
      rw [hi] at entry
      exact h.attributes info (mem_of_info? hi) _ entry

/-- What stands in the order of a known class is known. -/
theorem isKnown_of_mem_order (known : c.IsKnown world.classes.length) :
    ∀ k ∈ world.resolutionOrder c, k.IsKnown world.classes.length := by
  intro k hk
  cases c with
  | standard s =>
    obtain ⟨above, -, rfl⟩ := List.mem_map.mp hk
    trivial
  | declared index =>
    rcases List.mem_cons.mp hk with rfl | hk
    · exact known
    · cases hi : world.info? (.declared index) with
      | none =>
        rw [hi] at hk
        cases hk
      | some info =>
        rw [hi] at hk
        exact h.ancestors info (mem_of_info? hi) k hk

private theorem isKnown_inherited? {standardMember : StandardClass}
    (inherits : world.inherited? standardMember c name = some found) : found.IsKnown world.classes.length := by
  obtain ⟨k, -, hk⟩ := List.exists_of_findSome?_eq_some inherits
  cases k with
  | standard s =>
    dsimp only at hk
    split at hk
    · cases hk
      trivial
    · cases hk
  | declared index =>
    obtain ⟨bound, own, rfl⟩ := Option.map_eq_some_iff.mp hk
    exact h.isKnown_ownAttribute? own

private theorem isKnown_classFact? (known : c.IsKnown world.classes.length)
    (fact : world.classFact? c name = some found) :
    found.IsKnown world.classes.length := by
  simp only [classFact?] at fact
  split at fact
  · cases fact
    trivial
  split at fact
  · cases fact
    trivial
  split at fact
  · cases fact
    trivial
  split at fact
  · cases own : world.ownAttribute? c name with
    | none =>
      rw [own] at fact
      cases fact
      trivial
    | some bound =>
      rw [own] at fact
      cases fact
      exact h.isKnown_ownAttribute? own
  split at fact
  · cases base : (world.resolutionOrder c)[1]? with
    | none =>
      rw [base] at fact
      cases fact
      trivial
    | some above =>
      rw [base] at fact
      cases fact
      exact h.isKnown_of_mem_order known above (List.mem_of_getElem? base)
  split at fact
  · cases fact
    trivial
  split at fact
  · cases fact
    trivial
  split at fact
  · cases c with
    | standard s => cases fact
    | declared index =>
      cases fact
      trivial
  · cases fact

private theorem isKnown_classAttribute (known : c.IsKnown world.classes.length)
    (has : world.classAttribute c name = .ok found) : found.IsKnown world.classes.length := by
  rw [classAttribute] at has
  split at has
  · rename_i fact
    cases has
    rcases Option.or_eq_some_iff.mp fact with fact | ⟨-, inherits⟩
    · exact h.isKnown_classFact? known fact
    · exact h.isKnown_inherited? inherits
  · split at has
    · cases has
      trivial
    · split at has <;> cases has

private theorem isKnown_objectAttribute (known : c.IsKnown world.classes.length)
    (has : world.objectAttribute c name = .ok found) : found.IsKnown world.classes.length := by
  rw [objectAttribute] at has
  split at has
  · cases has
    exact known
  · split at has
    · rename_i inherits
      cases has
      exact h.isKnown_inherited? inherits
    · split at has
      · cases has
        trivial
      · cases has

private theorem isKnown_moduleAttribute {moduleName : Text} (has : world.moduleAttribute moduleName name = .ok found) :
    found.IsKnown world.classes.length := by
  rw [moduleAttribute] at has
  split at has
  · rename_i bound
    cases has
    exact (h.allKnown_namesOf moduleName).of_lookup bound
  · split at has
    · rename_i fact
      cases has
      simp only [moduleFact?] at fact
      repeat' split at fact
      all_goals cases fact
      all_goals trivial
    · split at has
      · cases has
        trivial
      · cases has

/-- An attribute of what is known is known. -/
private theorem isKnown_select {owner : Referent} (known : owner.IsKnown world.classes.length)
    (has : world.select owner name = .ok found) : found.IsKnown world.classes.length := by
  rw [World.select.eq_def] at has
  split at has
  · exact h.isKnown_classAttribute known has
  · exact h.isKnown_moduleAttribute has
  · exact h.isKnown_objectAttribute (c := .standard _) trivial has
  · exact h.isKnown_objectAttribute known has
  · exact h.isKnown_objectAttribute (c := .standard _) trivial has

private theorem isKnown_selectAll {owner : Referent} {names : List Text} (known : owner.IsKnown world.classes.length)
    (has : world.selectAll owner names = .ok found) : found.IsKnown world.classes.length := by
  induction names generalizing owner with
  | nil =>
    cases has
    exact known
  | cons name rest ih =>
    obtain ⟨middle, first, others⟩ := ok_of_bind has
    exact ih (h.isKnown_select known first) others

end IsScoped

end World

section Bases
variable {env : Environment} {written bases : List Referent} {heritage : Heritage}

private theorem allKnown_bindClasses (count : Nat) (classes : List StandardClass) :
    AllKnown count (Library.bindClasses classes) := by
  intro entry he
  obtain ⟨s, -, rfl⟩ := List.mem_map.mp he
  trivial

theorem allKnown_builtinNames (count : Nat) : AllKnown count Library.builtinNames := by
  refine .append (.append (allKnown_bindClasses count _) ?_) fun entry he => ?_
  · exact .mono (show AllKnown 0 _ by unfold AllKnown; decide) (Nat.zero_le count)
  · obtain ⟨name, -, rfl⟩ := List.mem_map.mp he
    trivial

/-- Dotted names denote what is known. -/
private theorem Environment.isKnown_denote (h : env.world.IsScoped)
    (layers : ∀ layer ∈ env.layers, AllKnown env.world.classes.length layer) {dotted : Text}
    (denotes : env.denote dotted = .ok found) : found.IsKnown env.world.classes.length := by
  have first : ∀ name d, env.lookup name = .ok d → d.IsKnown env.world.classes.length := by
    intro name d hd
    rw [Environment.lookup] at hd
    split at hd
    · rename_i bound
      cases hd
      generalize env.layers = rest at layers bound
      induction rest with
      | nil => exact (allKnown_builtinNames _).of_lookup bound
      | cons layer rest ih =>
        obtain ⟨own, others⟩ := List.forall_mem_cons.mp layers
        rcases Option.or_eq_some_iff.mp bound with bound | ⟨-, bound⟩
        · exact own.of_lookup bound
        · exact ih others bound
    · cases hd
  rw [Environment.denote] at denotes
  split at denotes
  · cases denotes
  · obtain ⟨d, start, rest⟩ := ok_of_bind denotes
    exact h.isKnown_selectAll (first _ d start) rest

private theorem isKnown_denoteAll (h : env.world.IsScoped)
    (layers : ∀ layer ∈ env.layers, AllKnown env.world.classes.length layer) {names : List Text}
    (denotes : Heritage.denoteAll env names = .ok written) : ∀ d ∈ written, d.IsKnown env.world.classes.length := by
  induction names generalizing written with
  | nil =>
    cases denotes
    exact List.forall_mem_nil _
  | cons name rest ih =>
    obtain ⟨first, hfirst, denotes⟩ := ok_of_bind denotes
    obtain ⟨others, hothers, ⟨⟩⟩ := ok_of_bind denotes
    exact List.forall_mem_cons.mpr ⟨Environment.isKnown_denote h layers hfirst, ih hothers⟩

/-- Bases stand for themselves or for standard classes. -/
private theorem isKnown_expand {world : World} {all result : List Referent}
    (expands : Heritage.expand world all written = .ok result) (known : ∀ d ∈ written, d.IsKnown count) :
    ∀ d ∈ result, d.IsKnown count := by
  induction written generalizing result with
  | nil =>
    cases expands
    exact List.forall_mem_nil _
  | cons base rest ih =>
    obtain ⟨own, others⟩ := List.forall_mem_cons.mp known
    rw [Heritage.expand.eq_def] at expands
    split at expands
    · cases expands
      exact List.forall_mem_nil _
    · rename_i name origin arity behind same
      cases same
      obtain ⟨generic, -, expands⟩ := ok_of_bind expands
      obtain ⟨more, hmore, ⟨⟩⟩ := ok_of_bind expands
      intro d hd
      simp only [List.mem_append] at hd
      rcases hd with (hd | hd) | hd
      · split at hd
        · cases hd
        · rw [List.mem_singleton.mp hd]
          trivial
      · split at hd
        · cases hd
        · rw [List.mem_singleton.mp hd]
          trivial
      · exact ih hmore others d hd
    · rename_i behind same
      cases same
      obtain ⟨more, hmore, ⟨⟩⟩ := ok_of_bind expands
      exact List.forall_mem_cons.mpr ⟨trivial, ih hmore others⟩
    · cases expands
    · rename_i behind _ _ same
      cases same
      obtain ⟨more, hmore, ⟨⟩⟩ := ok_of_bind expands
      exact List.forall_mem_cons.mpr ⟨own, ih hmore others⟩

/-- The bases of a class declaration are known. -/
theorem Heritage.isKnown_ofNames (h : env.world.IsScoped)
    (layers : ∀ layer ∈ env.layers, AllKnown env.world.classes.length layer) {moduleName : Text}
    {names : List Text} (inherits : Heritage.ofNames env moduleName names = .ok heritage) :
    ∀ base ∈ heritage.bases, base.IsKnown env.world.classes.length := by
  obtain ⟨written, denoted, inherits⟩ := ok_of_bind inherits
  cases made : Heritage.ofReferents env.world moduleName written with
  | error fault =>
    rw [made] at inherits
    cases inherits
  | ok heritage' =>
    rw [made] at inherits
    cases inherits
    obtain ⟨bases, expands, made⟩ := ok_of_bind made
    obtain ⟨kind, -, made⟩ := ok_of_bind made
    have taken : heritage.bases = bases.filterMap Heritage.asBase := by
      dsimp only at made
      split at made
      · cases made
      · cases made
        rfl
    intro base hb
    rw [taken] at hb
    obtain ⟨d, hd, same⟩ := List.mem_filterMap.mp hb
    have known := isKnown_expand expands (isKnown_denoteAll h layers denoted) d hd
    cases d with
    | cls c =>
      cases same
      exact known
    | _ => cases same

end Bases

end Specimen
