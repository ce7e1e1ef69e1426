import Specimen.Proofs.Text.Lowered

/-! First characters in uppercase. What an uppercase form begins with is its own uppercase form, and if it is also the
uppercase form's lowercase that was capitalized, it is the whole form. -/
namespace Specimen.Text

/-- No uppercase form of several characters begins with one that has another uppercase form. -/
private theorem expansions_apart : ∀ expansion ∈ upperExpansions, ∀ d ∈ expansion.2.head?,
    ((upperExpansions.all fun other => !Nat.beq other.1 d) && avoids d d 1 upperShifts) = true := by
  decide +kernel

/-- No single character that is an uppercase form has several in its own. -/
private theorem shifts_apart : ∀ shift ∈ upperShifts, 0 ≤ shift.run.first + shift.offset ∧
    (upperExpansions.all fun expansion => Nat.blt expansion.1 (shift.run.first + shift.offset).toNat ||
      Nat.blt (shift.run.last + shift.offset).toNat expansion.1) = true := by
  decide +kernel

/-- What one uppercase mapping gives is mapped to itself by the next. -/
private theorem apply_apply_upperShifts (c : Nat) :
    ShiftRun.apply upperShifts (ShiftRun.apply upperShifts c) = ShiftRun.apply upperShifts c :=
  apply_apply (by decide +kernel) c

/-- The uppercase form of a character begins with one that is its own. -/
theorem upperOf_head {c d : CodePoint} {rest : Text} (h : upperOf c = d :: rest) : upperOf d = [d] := by
  have single {c : CodePoint} (h : upperExpansions.find? (·.1 = c) = none) :
      upperOf c = [ShiftRun.apply upperShifts c] := by
    rw [upperOf, h]
  cases found : upperExpansions.find? (·.1 = c) with
  | some expansion =>
    rw [upperOf, found] at h
    obtain ⟨apart, still⟩ := (Bool.and_eq_true _ _).mp
      (expansions_apart expansion (List.mem_of_find?_eq_some found) d (by simp only at h; rw [h]; rfl))
    have none : upperExpansions.find? (·.1 = d) = none := List.find?_eq_none.mpr fun other ho => by
      have := List.all_eq_true.mp apart other ho
      rw [decide_eq_true_eq]
      rintro rfl
      simp at this
    rw [single none, apply_of_avoids still (Nat.le_refl d) (Nat.le_refl d) (Nat.mod_one _)]
  | none =>
    obtain ⟨rfl, -⟩ := List.cons.inj ((single found).symm.trans h)
    rcases apply_cases upperShifts c with same | ⟨shift, hs, hc, moved⟩
    · rw [same, single found, same]
    · obtain ⟨positive, apart⟩ := shifts_apart shift hs
      simp only [Stride.contains, Bool.and_eq_true, decide_eq_true_eq] at hc
      have none : upperExpansions.find? (·.1 = ShiftRun.apply upperShifts c) = none :=
        List.find?_eq_none.mpr fun other ho => by
          have := List.all_eq_true.mp apart other ho
          simp only [Bool.or_eq_true, Nat.blt_eq] at this
          simp only [decide_eq_true_eq, moved]
          omega
      rw [single none, apply_apply_upperShifts]

theorem length_le_lowerFrom (before text : Text) : text.length ≤ (lowerFrom before text).length := by
  induction text generalizing before with
  | nil => exact Nat.le_refl _
  | cons c rest ih =>
    have := List.length_pos_iff.mpr (lowerAt_ne_nil before c rest)
    have := ih (c :: before)
    rw [lowerFrom, List.length_append, List.length_cons]
    omega

theorem lower_singleton (c : CodePoint) : lower [c] = lowerAt [] c [] := by
  rw [lower, lowerFrom, lowerFrom, List.append_nil]

/-- The first character of a text is lowered as it is on its own. -/
theorem lower_cons (c : CodePoint) (rest : Text) : lower (c :: rest) = lower [c] ++ lowerFrom [c] rest := by
  have first (after : Text) : lowerAt [] c after = lowerAt [] c [] := by
    by_cases sigma : c = capitalSigma
    · subst sigma
      rfl
    · rw [lowerAt, lowerAt, if_neg sigma, if_neg sigma]
  rw [lower_singleton, lower, lowerFrom, first]

/-- A character whose lowercase has it first in uppercase again is all of that. -/
theorem upper_lower {c l : CodePoint} {more rest : Text} (hl : lower [c] = l :: more) (hu : upperOf l = c :: rest) :
    more = [] ∧ rest = [] := by
  have apart : ∀ expansion ∈ upperExpansions, ∀ d ∈ expansion.2.head?, lower [d] ≠ [expansion.1] := by
    decide +kernel
  have single : more = [] := by
    by_cases dotted : c = 0x130
    · subst dotted
      obtain ⟨rfl, -⟩ := List.cons.inj (hl.symm.trans (by decide : lower [0x130] = [0x69, 0x307]))
      cases (List.cons.inj (hu.symm.trans (by decide +kernel : upperOf 0x69 = [0x49]))).1
    · rw [lower_singleton, lowerAt, if_neg dotted] at hl
      split at hl
      · split at hl <;> exact (List.cons.inj hl).2.symm
      · exact (List.cons.inj hl).2.symm
  subst single
  refine ⟨rfl, ?_⟩
  rw [upperOf] at hu
  split at hu
  · rename_i other expansion found
    have same : other = l := by simpa using List.find?_some found
    exact absurd (same ▸ hl) (apart _ (List.mem_of_find?_eq_some found) c (by rw [hu]; rfl))
  · exact (List.cons.inj hu).2.symm

end Specimen.Text
