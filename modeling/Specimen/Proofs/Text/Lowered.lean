import Specimen.Proofs.Text.Digits
import Specimen.Proofs.Text.Gap

/-! Texts in lowercase. A character in lowercase stays as it is, wherever in a word it stands, so that a
text is changed by lowering only if one of its characters has another lowercase form. -/
namespace Specimen.Text

/-- A character that is its own lowercase form at every place. -/
def IsLowered (c : CodePoint) : Prop :=
  c ≠ capitalSigma ∧ c ≠ 0x130 ∧ ShiftRun.apply lowerShifts c = c

instance (c : CodePoint) : Decidable (IsLowered c) := inferInstanceAs (Decidable (_ ∧ _ ∧ _))

section Tables

/-- Whether no run of a table holds one of the numbers `low`, `low + step`, …, up to `high`: a run that
reaches between them has every other number, and these are the ones it leaves out. -/
def avoids (low high step : Nat) : List ShiftRun → Bool
  | [] => true
  | shift :: rest => Nat.blt high shift.run.first ||
    ((Nat.blt shift.run.last low || (Nat.beq shift.run.step 2 && (Nat.beq step 2 || Nat.beq low high) &&
      Nat.beq ((low + shift.run.first) % 2) 1)) && avoids low high step rest)

theorem apply_of_avoids {low high step : Nat} {shifts : List ShiftRun}
    (h : avoids low high step shifts = true) {c : Nat} (hlow : low ≤ c) (hhigh : c ≤ high)
    (hstep : (c - low) % step = 0) : ShiftRun.apply shifts c = c := by
  induction shifts with
  | nil => rfl
  | cons shift rest ih =>
    rw [ShiftRun.apply]
    split
    · rfl
    · rename_i hfirst
      simp only [avoids, Bool.or_eq_true, Bool.and_eq_true, Nat.blt_eq, Nat.beq_eq] at h
      obtain ⟨apart, hrest⟩ := h.resolve_left (by omega)
      have out : shift.run.contains c = false := by
        refine Bool.eq_false_iff.mpr fun hin => ?_
        simp only [Stride.contains, Bool.and_eq_true, decide_eq_true_eq, beq_iff_eq] at hin
        rcases apart with below | ⟨⟨two, rfl | rfl⟩, odd⟩
        · omega
        · rw [two] at hin
          omega
        · rw [two] at hin
          omega
      rw [if_neg (by simp [out])]
      exact ih hrest

/-- A table leaves a character where it is or moves it with one of its runs. -/
theorem apply_cases (shifts : List ShiftRun) (c : Nat) : ShiftRun.apply shifts c = c ∨ ∃ shift ∈ shifts,
    shift.run.contains c = true ∧ ShiftRun.apply shifts c = (c + shift.offset).toNat := by
  induction shifts with
  | nil => exact .inl rfl
  | cons shift rest ih =>
    rw [ShiftRun.apply]
    split
    · exact .inl rfl
    · split
      · rename_i hin
        exact .inr ⟨shift, List.mem_cons_self, hin, rfl⟩
      · refine ih.imp_right fun met => ?_
        obtain ⟨other, ho, h⟩ := met
        exact ⟨other, List.mem_cons_of_mem _ ho, h⟩

/-- A table whose runs lead where it has none leaves what it gives as it is. -/
theorem apply_apply {shifts : List ShiftRun} (apart : ∀ shift ∈ shifts, 0 ≤ shift.run.first + shift.offset ∧
    avoids (shift.run.first + shift.offset).toNat (shift.run.last + shift.offset).toNat shift.run.step shifts = true)
    (c : Nat) : ShiftRun.apply shifts (ShiftRun.apply shifts c) = ShiftRun.apply shifts c := by
  rcases apply_cases shifts c with he | ⟨shift, hs, hin, he⟩
  · rw [he, he]
  · obtain ⟨hpos, hav⟩ := apart shift hs
    simp only [Stride.contains, Bool.and_eq_true, decide_eq_true_eq, beq_iff_eq] at hin
    obtain ⟨⟨hlow, hhigh⟩, hstep⟩ := hin
    have same : (c + shift.offset).toNat - (shift.run.first + shift.offset).toNat =
        c - shift.run.first := by omega
    rw [he]
    exact apply_of_avoids hav (by omega) (by omega) (same ▸ hstep)

/-- What one lowercase mapping gives is mapped to itself by the next. -/
private theorem apply_apply_lowerShifts (c : Nat) :
    ShiftRun.apply lowerShifts (ShiftRun.apply lowerShifts c) = ShiftRun.apply lowerShifts c :=
  apply_apply (by decide +kernel) c

end Tables

/-- Every lowercase mapping gives characters in lowercase. -/
private theorem isLowered_lowerAt (before : Text) (c : CodePoint) (after : Text) :
    ∀ l ∈ lowerAt before c after, IsLowered l := by
  have special : ∀ l ∈ [0x3C2, 0x3C3, 0x69, 0x307], IsLowered l := by decide +kernel
  intro l hl
  rw [lowerAt] at hl
  split at hl
  · split at hl <;> exact special l (by simp_all)
  · rename_i hs
    split at hl
    · exact special l (by simp_all)
    · rename_i hi
      have clear : ∀ shift ∈ lowerShifts, shift.run.last + shift.offset < ((0x130 : Nat) : Int) ∨
          ((0x130 : Nat) : Int) < shift.run.first + shift.offset := by decide +kernel
      have sigma : ShiftRun.apply lowerShifts capitalSigma ≠ capitalSigma := by decide +kernel
      rw [List.mem_singleton.mp hl]
      refine ⟨fun he => sigma (he ▸ apply_apply_lowerShifts c), fun he => ?_, apply_apply_lowerShifts c⟩
      have := misses_apply (by decide) clear (Nat.lt_or_gt_of_ne hi)
      rw [he] at this
      simp [Misses] at this

theorem lowerAt_ne_nil (before : Text) (c : CodePoint) (after : Text) : lowerAt before c after ≠ [] := by
  rw [lowerAt]
  split
  · split <;> simp
  · split <;> simp

theorem isLowered_lowerFrom (before text : Text) : ∀ c ∈ lowerFrom before text, IsLowered c := by
  induction text generalizing before with
  | nil => simp [lowerFrom]
  | cons c rest ih =>
    intro l hl
    rcases List.mem_append.mp hl with hc | hr
    · exact isLowered_lowerAt before c rest l hc
    · exact ih _ l hr

theorem isLowered_lower (text : Text) : ∀ c ∈ lower text, IsLowered c := isLowered_lowerFrom [] text

/-- Lowering leaves characters in lowercase as they are. -/
theorem lowerFrom_eq_self (before : Text) {text : Text} (h : ∀ c ∈ text, IsLowered c) :
    lowerFrom before text = text := by
  induction text generalizing before with
  | nil => rfl
  | cons c rest ih =>
    obtain ⟨hs, hi, he⟩ := h c List.mem_cons_self
    rw [lowerFrom, ih _ fun d hd => h d (List.mem_cons_of_mem c hd), lowerAt, if_neg hs, if_neg hi, he]
    rfl

theorem lower_eq_self {text : Text} (h : ∀ c ∈ text, IsLowered c) : lower text = text := lowerFrom_eq_self [] h

theorem isLowered_decimal {c : CodePoint} (h : IsDecimal c) : IsLowered c := by
  have : ∀ d < 0x3A, IsLowered d := by decide
  exact this c (Nat.lt_succ_of_le h.2)

/-- A small letter from a to z. -/
def IsSmall (c : CodePoint) : Prop := 0x61 ≤ c ∧ c ≤ 0x7A

instance (c : CodePoint) : Decidable (IsSmall c) := inferInstanceAs (Decidable (_ ∧ _))

/-- The uppercase form of a character begins with no small letter. -/
theorem not_isSmall_upperOf (c : CodePoint) : ∃ d rest, upperOf c = d :: rest ∧ ¬ IsSmall d := by
  have expanded : ∀ expansion ∈ upperExpansions, ∃ d ∈ expansion.2.head?, ¬ IsSmall d := by
    decide +kernel
  rw [upperOf]
  split
  · rename_i expansion hf
    obtain ⟨d, hd, small⟩ := expanded _ (List.mem_of_find?_eq_some hf)
    obtain ⟨rest, hrest⟩ := List.head?_eq_some_iff.mp hd
    exact ⟨d, rest, hrest, small⟩
  · refine ⟨_, [], rfl, fun small => ?_⟩
    by_cases hc : IsSmall c
    · have moved : ∀ d < 0x7B, IsSmall d → ¬ IsSmall (ShiftRun.apply upperShifts d) := by
        decide +kernel
      exact moved c (Nat.lt_succ_of_le hc.2) hc small
    · have clear : ∀ shift ∈ upperShifts, shift.run.last + shift.offset < ((0x61 : Nat) : Int) ∨
          ((0x7A : Nat) : Int) < shift.run.first + shift.offset := by decide +kernel
      have hmiss : Misses 0x61 0x7A c := by
        rcases Nat.lt_or_ge c 0x61 with hl | hl
        · exact .inl hl
        · exact .inr (Nat.lt_of_not_ge fun hh => hc ⟨hl, hh⟩)
      rcases misses_apply (by decide) clear hmiss with hl | hh
      · exact Nat.not_lt_of_ge small.1 hl
      · exact Nat.not_lt_of_ge small.2 hh

end Specimen.Text
