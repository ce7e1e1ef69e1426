import Specimen.Proofs.Loading.Fields
import Specimen.Proofs.Loading.Keeping
import Specimen.Proofs.Loading.Linearization
import Specimen.Proofs.Loading.Steps

/-! The orders of attribute lookup of all classes. Every class that is declared stands below classes that have been
declared before, in an order that keeps theirs, and its fields come behind those of the classes above it. Loading
keeps this, whether it succeeds or fails. -/
namespace Specimen
namespace World
variable {world : World} {info : ClassInfo} {c k : ClassRef} {index : Nat} {name : Text} {d : Referent}

/-- A class among those of a world, as it was declared after so many others. -/
structure IsPlaced (world : World) (index : Nat) (info : ClassInfo) : Prop where
  bound : ∀ entry ∈ info.attributes, entry.2.referent.IsKnown world.classes.length
  distinct : (info.attributes.map (·.1)).Nodup
  above : ∀ k ∈ info.ancestors, k.IsKnown index
  nodup : info.ancestors.Nodup
  keeps : ∀ k ∈ info.ancestors, (world.resolutionOrder k).Sublist info.ancestors
  fields : ∀ fields, info.fields = some fields →
    world.ExtendsFields info.ancestors (info.annotations.entries.map (·.1)) (fields.map (·.name))

/-- Every class is placed, and modules bind known classes. -/
structure IsOrdered (world : World) : Prop where
  names : ∀ m ∈ world.modules, AllKnown world.classes.length m.names
  placed : ∀ index info, world.classes[index]? = some info → world.IsPlaced index info

namespace IsOrdered
variable (h : world.IsOrdered)
include h

theorem isScoped : world.IsScoped where
  names := h.names
  attributes info hi := by
    obtain ⟨index, found⟩ := List.mem_iff_getElem?.mp hi
    exact (h.placed index info found).bound
  ancestors info hi k hk := by
    obtain ⟨index, found⟩ := List.mem_iff_getElem?.mp hi
    exact ((h.placed index info found).above k hk).mono (Nat.le_of_lt (List.getElem?_eq_some_iff.mp found).1)

/-- The order of a class keeps that of every class in it. -/
theorem sublist (hk : k ∈ world.resolutionOrder c) :
    (world.resolutionOrder k).Sublist (world.resolutionOrder c) := by
  cases c with
  | standard s => exact sublist_standard hk
  | declared index =>
    rcases List.mem_cons.mp hk with rfl | above
    · exact List.Sublist.refl _
    · cases found : world.info? (.declared index) with
      | none =>
        rw [found] at above
        cases above
      | some info =>
        rw [found] at above
        have order : world.resolutionOrder (.declared index) = .declared index :: info.ancestors := by
          rw [resolutionOrder, found]
          rfl
        exact order ▸ ((h.placed index info found).keeps k above).cons _

/-- The order of a class names none twice. -/
theorem nodup_order (c : ClassRef) : (world.resolutionOrder c).Nodup := by
  cases c with
  | standard s => exact nodup_standard world s
  | declared index =>
    rw [resolutionOrder]
    cases found : world.info? (.declared index) with
    | none => exact List.nodup_singleton _
    | some info =>
      have placed := h.placed index info found
      exact List.nodup_cons.mpr ⟨fun itself => Nat.lt_irrefl _ (placed.above _ itself), placed.nodup⟩

/-- A class binds no name twice. -/
theorem nodup_ownAttributes (k : ClassRef) : ((world.ownAttributes k).map (·.1)).Nodup := by
  rw [ownAttributes.eq_def]
  split
  · decide +kernel
  · cases k with
    | standard s => exact List.nodup_nil
    | declared index =>
      cases found : world.info? (.declared index) with
      | none => exact List.nodup_nil
      | some info => exact (h.placed index info found).distinct

/-- The classes above one come behind it in every order. -/
theorem mem_farther {nearer farther : List ClassRef} (order : world.resolutionOrder c = nearer ++ k :: farther) :
    ∀ j ∈ (world.resolutionOrder k).tail, j ∈ farther := by
  have nodup := order ▸ h.nodup_order c
  have within := h.sublist (c := c) (order ▸ List.mem_append_right _ List.mem_cons_self : k ∈ world.resolutionOrder c)
  rw [order, resolutionOrder_eq_cons world k] at within
  obtain ⟨early, late, split, before, behind⟩ := List.sublist_append_iff.mp within
  cases early with
  | nil =>
    rw [List.nil_append] at split
    exact (List.cons_sublist_cons.mp (split ▸ behind)).subset
  | cons first rest =>
    obtain ⟨rfl, -⟩ := List.cons.inj split
    exact absurd List.mem_cons_self (List.disjoint_of_nodup_append nodup (before.subset List.mem_cons_self))

end IsOrdered

section Added

/-- The world with one more class. -/
abbrev add (world : World) (info : ClassInfo) : World := { world with classes := world.classes ++ [info] }

private theorem info?_add (known : c.IsKnown world.classes.length) : (world.add info).info? c = world.info? c := by
  cases c with
  | standard s => rfl
  | declared index => exact List.getElem?_append_left known

private theorem resolutionOrder_add (known : c.IsKnown world.classes.length) :
    (world.add info).resolutionOrder c = world.resolutionOrder c := by
  cases c with
  | standard s => rfl
  | declared index => rw [resolutionOrder, info?_add known, resolutionOrder]

private theorem ownFieldTable?_add (known : c.IsKnown world.classes.length) :
    (world.add info).ownFieldTable? c = world.ownFieldTable? c := by
  have attributes : (world.add info).ownAttributes c = world.ownAttributes c := by
    rw [ownAttributes.eq_def, ownAttributes.eq_def]
    split
    · rfl
    · rw [info?_add known]
  rw [ownFieldTable?, ownFieldTable?, ownFields?, ownFields?, info?_add known, ownAttribute?, ownAttribute?, attributes]

private theorem fieldNames_add (h : world.IsOrdered) (known : c.IsKnown world.classes.length) :
    (world.add info).fieldNames c = world.fieldNames c := by
  have table : (world.add info).fieldTable? c = world.fieldTable? c := by
    rw [fieldTable?, fieldTable?, resolutionOrder_add known, ← List.head?_filterMap, ← List.head?_filterMap]
    exact congrArg List.head? (List.filterMap_congr fun k hk =>
      ownFieldTable?_add (h.isScoped.isKnown_of_mem_order known k hk))
  rw [fieldNames, fieldNames, table]

/-- A class stays placed where another one is added. -/
theorem IsPlaced.add {new : ClassInfo} (h : world.IsOrdered) (placed : world.IsPlaced index info)
    (before : index ≤ world.classes.length) : (world.add new).IsPlaced index info := by
  have known : ∀ k ∈ info.ancestors, k.IsKnown world.classes.length := fun k hk => (placed.above k hk).mono before
  refine ⟨fun entry he => (placed.bound entry he).mono ?_, placed.distinct, placed.above, placed.nodup, fun k hk => ?_,
    fun fields hf => ?_⟩
  · simp
  · rw [resolutionOrder_add (known k hk)]
    exact placed.keeps k hk
  · obtain ⟨own, annotated, length, names⟩ := placed.fields fields hf
    refine ⟨own, annotated, length, names.trans ?_⟩
    have same : info.ancestors.reverse.flatMap (world.add new).fieldNames =
        info.ancestors.reverse.flatMap world.fieldNames :=
      List.flatMap_congr fun k hk => fieldNames_add h (known k (List.mem_reverse.mp hk))
    rw [gather, gather, same]

theorem IsOrdered.add (h : world.IsOrdered) (placed : world.IsPlaced world.classes.length info) :
    (world.add info).IsOrdered := by
  refine ⟨fun m hm => (h.names m hm).mono (by simp), fun index other found => ?_⟩
  rcases Nat.lt_or_ge index world.classes.length with early | late
  · have old : world.classes[index]? = some other := (List.getElem?_append_left early).symm.trans found
    exact (h.placed index other old).add h (Nat.le_of_lt early)
  · have last : index = world.classes.length ∧ other = info := by
      have bound := (List.getElem?_eq_some_iff.mp found).1
      simp only [List.length_append, List.length_singleton] at bound
      obtain rfl : index = world.classes.length := by omega
      exact ⟨rfl, by simpa using found.symm⟩
    obtain ⟨rfl, rfl⟩ := last
    exact placed.add h (Nat.le_refl _)

end Added

section Changed

/-- Neither memories nor modules matter to classes. -/
theorem IsPlaced.of_classes {other : World} (same : other.classes = world.classes)
    (placed : world.IsPlaced index info) : other.IsPlaced index info := by
  obtain ⟨classes, modules, memory⟩ := world
  obtain ⟨classes', modules', memory'⟩ := other
  cases same
  exact ⟨placed.bound, placed.distinct, placed.above, placed.nodup, placed.keeps, placed.fields⟩

theorem IsOrdered.of_classes {other : World} (h : world.IsOrdered) (same : other.classes = world.classes)
    (names : ∀ m ∈ other.modules, AllKnown world.classes.length m.names) : other.IsOrdered :=
  ⟨fun m hm => same ▸ names m hm, fun index info found => (h.placed index info (same ▸ found)).of_classes same⟩

theorem IsOrdered.bindName (h : world.IsOrdered) (moduleName name : Text) (known : d.IsKnown world.classes.length) :
    (Loading.bindName moduleName name d world).IsOrdered := by
  refine h.of_classes rfl fun m hm => ?_
  obtain ⟨kept, hk, rfl⟩ := List.mem_map.mp hm
  split
  · exact (h.names kept hk).put known
  · exact h.names kept hk

theorem IsOrdered.markComplete (h : world.IsOrdered) (name : Text) : (Loading.markComplete name world).IsOrdered := by
  refine h.of_classes rfl fun m hm => ?_
  obtain ⟨kept, hk, rfl⟩ := List.mem_map.mp hm
  split <;> exact h.names kept hk

private theorem allKnown_imported (count : Nat) : AllKnown count Library.imported := by
  refine AllKnown.append (fun entry he => ?_) (.mono (show AllKnown 0 _ by unfold AllKnown; decide) (Nat.zero_le count))
  obtain ⟨name, -, rfl⟩ := List.mem_map.mp he
  trivial

theorem admits_isOrdered (name : Text) : Loading.Admits IsOrdered name where
  entered world h := h.of_classes rfl fun m hm => by
    rcases List.mem_append.mp hm with hm | hm
    · exact h.names m hm
    · rw [List.mem_singleton.mp hm]
      exact allKnown_imported _
  forgotten world h := h.of_classes rfl fun m hm => h.names m (List.mem_filter.mp hm).1

end Changed

end World

end Specimen
