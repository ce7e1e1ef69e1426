import Specimen.Proofs.Text.Spelling

/-! The letters and numbers that no identifier has, its misfits. A change of case keeps those of a text, each in its
place, and puts nothing else into the text that cannot stand in identifiers. -/
namespace Specimen.Text

/-- Whether a letter or number cannot stand in identifiers. -/
def isMisfit (c : CodePoint) : Bool := isAlphanumeric c && !isIdentifierPart c

/-- The misfits of a text, in order. -/
def misfits (text : Text) : Text := text.filter isMisfit

/-- A character of names: a letter or number, or another one that can stand in identifiers and stays in lowercase. -/
def IsNameable (c : CodePoint) : Prop := isAlphanumeric c = true ∨ isIdentifierPart c = true ∧ IsLowered c

instance (c : CodePoint) : Decidable (IsNameable c) := inferInstanceAs (Decidable (_ ∨ _ ∧ _))

/-- Whether a name of the text begins with what can begin an identifier: with the first letter or number of the text,
unless that is no letter, so that one is put before it. -/
def opens (text : Text) : Bool :=
  match text.find? isAlphanumeric with
  | none => true
  | some c => !isLetter c || isIdentifierStart c

section Basic
variable {c : CodePoint} {text form : Text}

@[simp] theorem misfits_append (text rest : Text) : misfits (text ++ rest) = misfits text ++ misfits rest :=
  List.filter_append text rest

theorem misfits_eq_nil_iff : misfits text = [] ↔ ∀ c ∈ text, isMisfit c = false := by
  simp [misfits, List.filter_eq_nil_iff]

theorem misfits_of_parts (h : ∀ c ∈ text, isIdentifierPart c = true) : misfits text = [] :=
  misfits_eq_nil_iff.mpr fun c hc => by rw [isMisfit, h c hc, Bool.not_true, Bool.and_false]

theorem IsNameable.isIdentifierPart (h : IsNameable c) (fit : isMisfit c = false) : isIdentifierPart c = true := by
  rcases h with alphanumeric | ⟨part, -⟩
  · simpa [isMisfit, alphanumeric] using fit
  · exact part

theorem IsForm.misfits (h : IsForm c form) : misfits form = misfits [c] := by
  cases part : isIdentifierPart c with
  | true => rw [misfits_of_parts (h.parts part), misfits_of_parts (List.forall_mem_singleton.mpr part)]
  | false => rw [h.misfit part]

theorem IsForm.nameable (h : IsForm c form) (alphanumeric : isAlphanumeric c = true) : ∀ d ∈ form, IsNameable d := by
  intro d hd
  cases part : isIdentifierPart c with
  | true => exact (h.others d hd).imp_right fun lowered => ⟨h.parts part d hd, lowered⟩
  | false =>
    rw [h.misfit part, List.mem_singleton] at hd
    exact .inl (hd ▸ alphanumeric)

end Basic

section Lowering

variable {c : CodePoint} {text : Text}

private theorem lowerAt_of_isLowered (h : IsLowered c) (before after : Text) : lowerAt before c after = [c] := by
  obtain ⟨sigma, dotted, same⟩ := h
  rw [lowerAt, if_neg sigma, if_neg dotted, same]

private theorem misfits_lowerAt (h : IsNameable c) (before after : Text) :
    misfits (lowerAt before c after) = misfits [c] := by
  rcases h with alphanumeric | ⟨-, lowered⟩
  · exact (isForm_lowerAt alphanumeric before after).misfits
  · rw [lowerAt_of_isLowered lowered]

private theorem nameable_lowerAt (h : IsNameable c) (before after : Text) :
    ∀ d ∈ lowerAt before c after, IsNameable d := by
  rcases h with alphanumeric | ⟨part, lowered⟩
  · exact (isForm_lowerAt alphanumeric before after).nameable alphanumeric
  · rw [lowerAt_of_isLowered lowered]
    exact List.forall_mem_singleton.mpr (.inr ⟨part, lowered⟩)

theorem misfits_lowerFrom (before : Text) (h : ∀ c ∈ text, IsNameable c) :
    misfits (lowerFrom before text) = misfits text := by
  induction text generalizing before with
  | nil => rfl
  | cons c rest ih =>
    obtain ⟨hc, hrest⟩ := List.forall_mem_cons.mp h
    rw [lowerFrom, misfits_append, misfits_lowerAt hc, ih _ hrest, ← misfits_append, List.singleton_append]

theorem nameable_lowerFrom (before : Text) (h : ∀ c ∈ text, IsNameable c) :
    ∀ d ∈ lowerFrom before text, IsNameable d := by
  induction text generalizing before with
  | nil => exact nofun
  | cons c rest ih =>
    obtain ⟨hc, hrest⟩ := List.forall_mem_cons.mp h
    exact List.forall_mem_append.mpr ⟨nameable_lowerAt hc before rest, ih _ hrest⟩

/-- An end of the lowercase form of a character, without combining dot, is one character and all of the form, or
nothing. -/
private theorem lowerAt_split {before after left within : Text} (h : lowerAt before c after = left ++ within)
    (plain : ∀ d ∈ within, d ≠ 0x307) : within = [] ∨ left = [] ∧ within.length = 1 := by
  have forms : (∃ d, lowerAt before c after = [d]) ∨ lowerAt before c after = [0x69] ++ [0x307] := by
    rw [lowerAt]
    split
    · split <;> exact .inl ⟨_, rfl⟩
    · split
      · exact .inr rfl
      · exact .inl ⟨_, rfl⟩
  rcases forms with ⟨d, single⟩ | dotted
  · rcases List.append_eq_singleton_iff.mp (h.symm.trans single) with ⟨rfl, rfl⟩ | ⟨-, rfl⟩
    · exact .inr ⟨rfl, rfl⟩
    · exact .inl rfl
  · rcases List.eq_nil_or_concat within with rfl | ⟨others, last, rfl⟩
    · exact .inl rfl
    · rw [dotted, List.concat_eq_append, ← List.append_assoc] at h
      obtain ⟨-, dot⟩ := List.append_inj' h rfl
      exact absurd (List.cons.inj dot).1.symm (plain last (by simp))

/-- Where a text ends in lowercase with letters that are no misfits, as many characters at its own end are none, and
stand behind others exactly if those letters do. -/
theorem exists_ending {before left ending : Text} (h : ∀ c ∈ text, IsNameable c)
    (plain : ∀ d ∈ ending, d ≠ 0x307) (fit : misfits ending = []) (lowered : lowerFrom before text = left ++ ending) :
    ∃ init last, text = init ++ last ∧ last.length = ending.length ∧ misfits last = [] ∧ (init = [] ↔ left = []) := by
  induction text generalizing before left ending with
  | nil =>
    obtain ⟨rfl, rfl⟩ := List.append_eq_nil_iff.mp lowered.symm
    exact ⟨[], [], rfl, rfl, rfl, Iff.rfl⟩
  | cons c rest ih =>
    obtain ⟨hc, hrest⟩ := List.forall_mem_cons.mp h
    rw [lowerFrom] at lowered
    rcases List.append_eq_append_iff.mp lowered with ⟨between, rfl, behind⟩ | ⟨within, form, rfl⟩
    · obtain ⟨init, last, rfl, length, fit, -⟩ := ih hrest plain fit behind
      exact ⟨c :: init, last, rfl, length, fit, by simp [lowerAt_ne_nil]⟩
    · -- what the first character becomes reaches to the ending, or into it
      rw [misfits_append, List.append_eq_nil_iff] at fit
      obtain ⟨first, plain⟩ := List.forall_mem_append.mp plain
      obtain ⟨init, last, rfl, length, fit', alone⟩ := ih hrest plain fit.2 (List.nil_append _).symm
      obtain rfl := alone.mpr rfl
      rcases lowerAt_split form first with rfl | ⟨rfl, one⟩
      · rw [List.append_nil] at form
        exact ⟨[c], last, rfl, length, fit', by simp [← form, lowerAt_ne_nil]⟩
      · refine ⟨[], c :: last, rfl, ?_, ?_, Iff.rfl⟩
        · rw [List.length_append, one, ← length, List.length_cons, Nat.add_comm]
        · rw [← List.singleton_append, misfits_append, fit', ← misfits_lowerAt hc before ([] ++ last), form,
            List.nil_append, fit.1]
          rfl

end Lowering

end Specimen.Text
