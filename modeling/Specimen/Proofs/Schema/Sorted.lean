import Specimen.Schema.Fingerprint
import Mathlib.Data.List.Lex
import Mathlib.Data.List.Sort
import Mathlib.Data.Prod.Lex
import Mathlib.Order.BooleanAlgebra.Basic

/-! The order of entries is a linear one, so entries are sorted alike however they are listed. -/
namespace Specimen

private theorem Text.precedes_iff {a b : Text} : Text.precedes a b = true ↔ a < b := by
  induction a generalizing b with
  | nil => cases b <;> simp [Text.precedes]
  | cons c s ih =>
    cases b with
    | nil => simp [Text.precedes]
    | cons d t => simp [Text.precedes, List.cons_lt_cons_iff, ih]

namespace Fingerprint

/-- What entries are compared by. -/
def Entry.rank (entry : Entry) : Text ×ₗ Text ×ₗ Bool :=
  toLex (entry.name, toLex (entry.typeKey, entry.optional))

private theorem Entry.rank_injective : Function.Injective Entry.rank := by
  rintro ⟨name, typeKey, optional⟩ ⟨name', typeKey', optional'⟩ h
  simpa [rank] using h

private theorem Entry.precedes_iff {a b : Entry} : a.precedes b = true ↔ a.rank < b.rank := by
  simp [precedes, rank, Prod.Lex.toLex_lt_toLex, Text.precedes_iff, Bool.lt_iff, and_assoc]

theorem sort_eq_insertionSort (entries : List Entry) :
    sort entries = entries.insertionSort fun a b => a.rank ≤ b.rank := by
  have step : ∀ (entry : Entry) (sorted : List Entry),
      insert entry sorted = sorted.orderedInsert (fun a b => a.rank ≤ b.rank) entry := by
    intro entry sorted
    induction sorted with
    | nil => rfl
    | cons other rest ih =>
      rw [insert, List.orderedInsert, ih]
      by_cases h : other.precedes entry = true
      · rw [if_pos h, if_neg (not_le.mpr (Entry.precedes_iff.mp h))]
      · rw [if_neg h, if_pos (not_lt.mp fun hlt => h (Entry.precedes_iff.mpr hlt))]
  induction entries with
  | nil => rfl
  | cons entry rest ih =>
    rw [List.insertionSort_cons, ← ih, ← step]
    rfl

theorem sort_perm (entries : List Entry) : (sort entries).Perm entries := by
  rw [sort_eq_insertionSort]
  exact List.perm_insertionSort _ entries

/-- The canonical text does not depend on the order of the entries. -/
theorem canonical_eq_of_perm {left right : List Entry} (h : left.Perm right) :
    canonical left = canonical right := by
  have sorted : ∀ entries : List Entry, (sort entries).Pairwise fun a b => a.rank ≤ b.rank := by
    intro entries
    rw [sort_eq_insertionSort]
    exact List.pairwise_insertionSort _ entries
  have hsort : sort left = sort right := by
    refine List.Perm.eq_of_pairwise (fun a b _ _ hab hba => ?_) (sorted left) (sorted right)
      ((sort_perm left).trans (h.trans (sort_perm right).symm))
    exact Entry.rank_injective (le_antisymm hab hba)
  rw [canonical, canonical, hsort]

end Fingerprint

end Specimen
