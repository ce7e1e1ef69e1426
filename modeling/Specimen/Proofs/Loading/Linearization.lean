import Mathlib.Data.List.Nodup
import Specimen.Loading.Linearization

/-! Orders of attribute lookup. A merge keeps the order of each sequence and names no class twice, and the orders of
the standard classes keep one another. -/
namespace Specimen.Linearization
variable {c : ClassRef} {orders : List (List ClassRef)} {order result : List ClassRef}

section Merge

/-- The class that is taken off stands at the front of a sequence and in the rest of none. -/
private theorem nextClass_spec (h : nextClass orders = some c) :
    (∃ order ∈ orders, order.head? = some c) ∧ ∀ order ∈ orders, c ∉ order.tail := by
  have front := List.mem_of_find?_eq_some h
  have free := List.find?_some h
  refine ⟨List.mem_filterMap.mp front, fun order ho behind => ?_⟩
  rw [isBehind, Bool.not_eq_true', List.any_eq_false] at free
  exact free order ho (List.contains_iff_mem.mpr behind)

private theorem mem_takeOff_of_mem (h : order ∈ orders) :
    (if order.head? = some c then order.tail else order) ∈ takeOff c orders :=
  List.mem_map.mpr ⟨order, h, rfl⟩

/-- What is left of the sequences has been in them. -/
private theorem exists_of_mem_takeOff {k : ClassRef} (h : ∃ order ∈ takeOff c orders, k ∈ order) :
    ∃ order ∈ orders, k ∈ order := by
  obtain ⟨rest, hrest, hk⟩ := h
  obtain ⟨order, ho, rfl⟩ := List.mem_map.mp hrest
  refine ⟨order, ho, ?_⟩
  split at hk
  · exact List.mem_of_mem_tail hk
  · exact hk

private theorem notMem_takeOff (h : nextClass orders = some c) : ∀ order ∈ takeOff c orders, c ∉ order := by
  intro rest hrest
  obtain ⟨order, ho, rfl⟩ := List.mem_map.mp hrest
  have behind := (nextClass_spec h).2 order ho
  split
  · exact behind
  · rename_i apart
    intro hc
    cases order with
    | nil => cases hc
    | cons first rest =>
      rcases List.mem_cons.mp hc with rfl | hc
      · exact apart rfl
      · exact behind hc

/-- Taking a class off makes no sequence longer, and shortens one that it stands at the front of. -/
private theorem length_takeOff (c : ClassRef) (orders : List (List ClassRef)) :
    (takeOff c orders).flatten.length ≤ orders.flatten.length ∧
      ((∃ order ∈ orders, order.head? = some c) →
        (takeOff c orders).flatten.length < orders.flatten.length) := by
  induction orders with
  | nil => exact ⟨Nat.le_refl _, nofun⟩
  | cons order rest ih =>
    simp only [takeOff, List.map_cons, List.flatten_cons, List.length_append] at ih ⊢
    cases order with
    | nil => simpa using ih
    | cons first more =>
      by_cases front : first = c
      · simp only [List.head?_cons, front, if_pos, List.tail_cons, List.length_cons]
        exact ⟨by omega, fun _ => by omega⟩
      · have apart : ¬ (first :: more).head? = some c := by simpa using front
        rw [if_neg apart]
        refine ⟨by omega, fun ⟨other, ho, hc⟩ => ?_⟩
        rcases List.mem_cons.mp ho with rfl | ho
        · exact absurd hc apart
        · have := ih.2 ⟨other, ho, hc⟩
          omega

/-- A merge with steps enough keeps the order of each sequence, names no class twice and none but theirs. -/
private theorem merge_spec {fuel : Nat} (h : merge fuel orders = .ok result) (enough : orders.flatten.length < fuel) :
    (∀ order ∈ orders, order.Sublist result) ∧ result.Nodup ∧ ∀ k ∈ result, ∃ order ∈ orders, k ∈ order := by
  induction fuel generalizing orders result with
  | zero => exact absurd enough (Nat.not_lt_zero _)
  | succ fuel ih =>
    rw [merge] at h
    split at h
    · rename_i done
      cases h
      have empty : ∀ order ∈ orders, order = [] := by simpa using done
      exact ⟨fun order ho => empty order ho ▸ List.Sublist.slnil, List.nodup_nil, nofun⟩
    · split at h
      · cases h
      · rename_i c chosen
        obtain ⟨front, -⟩ := nextClass_spec chosen
        obtain ⟨rest, merged, rfl⟩ : ∃ rest, merge fuel (takeOff c orders) = .ok rest ∧ c :: rest = result := by
          cases merged : merge fuel (takeOff c orders) with
          | error stuck => rw [merged] at h; cases h
          | ok rest => rw [merged] at h; exact ⟨rest, rfl, Except.ok.inj h⟩
        have shorter := (length_takeOff c orders).2 front
        obtain ⟨kept, nodup, known⟩ := ih merged (by omega)
        refine ⟨fun order ho => ?_, List.nodup_cons.mpr ⟨fun hc => ?_, nodup⟩, fun k hk => ?_⟩
        · have left := kept _ (mem_takeOff_of_mem (c := c) ho)
          split at left
          · rename_i headed
            obtain ⟨more, rfl⟩ := List.head?_eq_some_iff.mp headed
            exact left.cons_cons c
          · exact left.cons c
        · obtain ⟨order, ho, within⟩ := known c hc
          exact notMem_takeOff chosen order ho within
        · rcases List.mem_cons.mp hk with rfl | hk
          · obtain ⟨order, ho, headed⟩ := front
            exact ⟨order, ho, List.mem_of_mem_head? headed⟩
          · exact exists_of_mem_takeOff (known k hk)

end Merge

end Specimen.Linearization

namespace Specimen

section Standard

private theorem ExceptionClass.ancestors_spec (kind : ExceptionClass) : (kind :: kind.ancestors).Nodup ∧
    ∀ above ∈ kind :: kind.ancestors, (above :: above.ancestors).Sublist (kind :: kind.ancestors) := by
  cases kind <;> decide

/-- The order of a standard class names none twice and keeps that of every class in it. -/
private theorem StandardClass.resolutionOrder_spec (s : StandardClass) : s.resolutionOrder.Nodup ∧
    ∀ above ∈ s.resolutionOrder, above.resolutionOrder.Sublist s.resolutionOrder := by
  cases s
  case exception kind =>
    obtain ⟨nodup, keeps⟩ := kind.ancestors_spec
    have order (kind : ExceptionClass) : (StandardClass.exception kind).resolutionOrder =
        (kind :: kind.ancestors).map .exception ++ [.object] := rfl
    rw [order]
    refine ⟨List.nodup_append.mpr ⟨nodup.map fun _ _ => StandardClass.exception.inj, List.nodup_singleton _, ?_⟩,
      fun above ha => ?_⟩
    · intro above hk last ho same
      obtain ⟨other, -, rfl⟩ := List.mem_map.mp hk
      cases same.trans (List.mem_singleton.mp ho)
    · rcases List.mem_append.mp ha with hk | ho
      · obtain ⟨other, hother, rfl⟩ := List.mem_map.mp hk
        exact order other ▸ ((keeps other hother).map _).append (List.Sublist.refl _)
      · rw [List.mem_singleton.mp ho]
        exact List.sublist_append_right _ _
  all_goals decide

end Standard

namespace World
variable {world : World} {bases order : List ClassRef} {c k : ClassRef}

theorem resolutionOrder_eq_cons (world : World) (c : ClassRef) :
    world.resolutionOrder c = c :: (world.resolutionOrder c).tail := by
  cases c <;> rfl

theorem mem_resolutionOrder_self (world : World) (c : ClassRef) : c ∈ world.resolutionOrder c :=
  resolutionOrder_eq_cons world c ▸ List.mem_cons_self

/-- The classes above one with some bases: in the order of each base and of the bases themselves, none twice, and
each in the order of a base. -/
theorem ofBases_spec (h : Linearization.ofBases world bases = .ok order) :
    (∀ base ∈ bases, (world.resolutionOrder base).Sublist order) ∧ bases.Sublist order ∧ order.Nodup ∧
      ∀ k ∈ order, ∃ base ∈ bases, k ∈ world.resolutionOrder base := by
  rw [Linearization.ofBases] at h
  split at h
  · cases h
  rw [Linearization.ancestors] at h
  split at h
  · rename_i merged
    cases h
    obtain ⟨keeps, nodup, known⟩ := Linearization.merge_spec merged (Nat.lt_succ_self _)
    refine ⟨fun base hb => keeps _ (List.mem_append_left _ (List.mem_map.mpr ⟨base, hb, rfl⟩)),
      keeps bases (List.mem_append_right _ (List.mem_singleton_self _)), nodup, fun k hk => ?_⟩
    obtain ⟨order, ho, within⟩ := known k hk
    rcases List.mem_append.mp ho with ho | ho
    · obtain ⟨base, hb, rfl⟩ := List.mem_map.mp ho
      exact ⟨base, hb, within⟩
    · exact ⟨k, List.mem_singleton.mp ho ▸ within, world.mem_resolutionOrder_self k⟩
  · cases h

theorem nodup_standard (world : World) (s : StandardClass) : (world.resolutionOrder (.standard s)).Nodup :=
  s.resolutionOrder_spec.1.map fun _ _ => ClassRef.standard.inj

theorem sublist_standard {s : StandardClass} (h : k ∈ world.resolutionOrder (.standard s)) :
    (world.resolutionOrder k).Sublist (world.resolutionOrder (.standard s)) := by
  obtain ⟨above, ha, rfl⟩ := List.mem_map.mp h
  exact (s.resolutionOrder_spec.2 above ha).map _

end World

end Specimen
