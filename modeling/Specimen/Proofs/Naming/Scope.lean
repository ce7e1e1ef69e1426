import Specimen.Naming.Scope
import Specimen.Proofs.Text.Digits
import Mathlib.Data.List.Nodup
import Mathlib.Data.List.Perm.Subperm

/-! What claiming a name does to a scope: the name is new, and no name in use is given up. -/
namespace Specimen.Naming.Scope

private theorem isTaken_iff {scope : Scope} {name : Text} :
    scope.isTaken name = true ↔ name ∈ scope.taken.map (·.1) := by
  simp [isTaken, counter?, List.find?_isSome]

private theorem mem_names_go {name other : Text} {counter : Nat} {taken : List (Text × Nat)} :
    other ∈ (set.go name counter taken).map (·.1) ↔ other = name ∨ other ∈ taken.map (·.1) := by
  induction taken with
  | nil => simp [set.go]
  | cons head rest ih =>
    rw [set.go]
    split
    · rename_i he
      simp [he]
    · simp only [List.map_cons, List.mem_cons, ih]
      exact or_left_comm

private theorem isTaken_set {scope : Scope} {name other : Text} {counter : Nat} :
    (scope.set name counter).isTaken other = true ↔ other = name ∨ scope.isTaken other = true := by
  rw [isTaken_iff, isTaken_iff]
  exact mem_names_go

theorem isTaken_reserve {scope : Scope} {name other : Text} :
    (scope.reserve name).isTaken other = true ↔ other = name ∨ scope.isTaken other = true := by
  rw [reserve]
  split
  · rename_i h
    exact ⟨.inr, fun ho => ho.elim (fun he => he ▸ h) id⟩
  · exact isTaken_set

theorem isTaken_reserveAll {scope : Scope} {names : List Text} {other : Text} :
    (scope.reserveAll names).isTaken other = true ↔
      other ∈ names ∨ scope.isTaken other = true := by
  induction names generalizing scope with
  | nil => simp [reserveAll]
  | cons name rest ih =>
    rw [reserveAll, List.foldl_cons, ← reserveAll, ih, isTaken_reserve, List.mem_cons]
    exact or_left_comm.trans or_assoc.symm

@[simp] theorem isTaken_empty (name : Text) : empty.isTaken name = false := rfl

private theorem numbered_injective {base : Text} {m n : Nat} (h : numbered base m = numbered base n) :
    m = n :=
  Text.ofNat_injective (List.append_cancel_left h)

/-- As many names as there are numbers have to be in use for a search to fail. -/
theorem length_of_covered {base : Text} {count start : Nat} {names : List Text}
    (h : ∀ i < count, numbered base (start + i) ∈ names) : count ≤ names.length := by
  let tried := (List.range count).map fun i => numbered base (start + i)
  have hnodup : tried.Nodup :=
    List.nodup_range.map fun i j he => Nat.add_left_cancel (numbered_injective he)
  have hsub : tried ⊆ names := fun name hn => by
    obtain ⟨i, hi, rfl⟩ := List.mem_map.mp hn
    exact h i (List.mem_range.mp hi)
  simpa [tried] using (List.subperm_of_subset hnodup hsub).length_le

private theorem firstFree_taken {scope : Scope} {base : Text} {fuel number : Nat}
    (h : scope.isTaken (numbered base (scope.firstFree base fuel number)) = true)
    (hn : fuel ≠ 0) :
    ∀ i < fuel, scope.isTaken (numbered base (number + 1 + i)) = true := by
  induction fuel generalizing number with
  | zero => exact absurd rfl hn
  | succ fuel ih =>
    rw [firstFree] at h
    split at h
    · rename_i hfirst
      intro i hi
      cases i with
      | zero => exact hfirst
      | succ i =>
        cases fuel with
        | zero => omega
        | succ fuel =>
          have := ih h (Nat.succ_ne_zero fuel) i (by omega)
          rwa [show number + 1 + (i + 1) = number + 1 + 1 + i by omega]
    · rename_i hfirst
      exact absurd h hfirst

theorem firstFree_free (scope : Scope) (base : Text) (number : Nat) :
    scope.isTaken (numbered base (scope.firstFree base (scope.taken.length + 1) number)) = false := by
  refine Bool.eq_false_iff.mpr fun h => ?_
  have := length_of_covered fun i hi =>
    isTaken_iff.mp (firstFree_taken h (Nat.succ_ne_zero _) i hi)
  rw [List.length_map] at this
  omega

theorem claim_of_free {scope : Scope} {base : Text} (h : scope.isTaken base = false) :
    scope.claim base = (base, scope.set base 1) := by
  have hc : scope.counter? base = none := by simpa [isTaken] using h
  rw [claim, hc]

/-- A claimed name was not in use. -/
theorem claim_fresh (scope : Scope) (base : Text) :
    scope.isTaken (scope.claim base).1 = false := by
  rw [claim]
  split
  · rename_i h
    simp [isTaken, h]
  · exact firstFree_free scope base _

/-- Afterwards the claimed name is in use, and apart from it what was in use before. -/
theorem isTaken_claim {scope : Scope} {base other : Text} :
    (scope.claim base).2.isTaken other = true ↔
      other = (scope.claim base).1 ∨ scope.isTaken other = true := by
  rw [claim]
  split
  · exact isTaken_set
  · rename_i counter h
    have hbase : scope.isTaken base = true := by simp [isTaken, h]
    rw [isTaken_reserve, isTaken_set]
    refine or_congr_right ⟨?_, .inr⟩
    rintro (rfl | ho)
    · exact hbase
    · exact ho

/-- A claimed name is the base, with a number behind it unless the base was free. -/
theorem claim_eq (scope : Scope) (base : Text) :
    (scope.claim base).1 = base ∨ ∃ number, (scope.claim base).1 = numbered base number := by
  rw [claim]
  split
  · exact .inl rfl
  · exact .inr ⟨_, rfl⟩

/-- The names that a scope hands out for bases, one after the other. -/
def claimAll (scope : Scope) : List Text → List Text
  | [] => []
  | base :: rest => (scope.claim base).1 :: (scope.claim base).2.claimAll rest

theorem length_claimAll (scope : Scope) (bases : List Text) :
    (scope.claimAll bases).length = bases.length := by
  induction bases generalizing scope with
  | nil => rfl
  | cons base rest ih => rw [claimAll, List.length_cons, ih, List.length_cons]

theorem claimAll_fresh {scope : Scope} {bases : List Text} :
    ∀ name ∈ scope.claimAll bases, scope.isTaken name = false := by
  induction bases generalizing scope with
  | nil => simp [claimAll]
  | cons base rest ih =>
    intro name hn
    rcases List.mem_cons.mp hn with rfl | hn
    · exact claim_fresh scope base
    · refine Bool.eq_false_iff.mpr fun ht => ?_
      have := ih name hn
      rw [isTaken_claim.mpr (.inr ht)] at this
      cases this

/-- Each name handed out is one of the bases, perhaps with a number behind it. -/
theorem exists_base_of_mem_claimAll {scope : Scope} {bases : List Text} {name : Text}
    (h : name ∈ scope.claimAll bases) :
    ∃ base ∈ bases, name = base ∨ ∃ number, name = numbered base number := by
  induction bases generalizing scope with
  | nil => cases h
  | cons base rest ih =>
    rcases List.mem_cons.mp h with rfl | h
    · exact ⟨base, List.mem_cons_self, scope.claim_eq base⟩
    · obtain ⟨other, ho, hname⟩ := ih h
      exact ⟨other, List.mem_cons_of_mem base ho, hname⟩

/-- No name is handed out twice. -/
theorem nodup_claimAll (scope : Scope) (bases : List Text) : (scope.claimAll bases).Nodup := by
  induction bases generalizing scope with
  | nil => exact List.nodup_nil
  | cons base rest ih =>
    refine List.nodup_cons.mpr ⟨fun hn => ?_, ih _⟩
    have := claimAll_fresh _ hn
    rw [isTaken_claim.mpr (.inl rfl)] at this
    cases this

end Specimen.Naming.Scope
