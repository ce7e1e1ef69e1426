import Specimen.Proofs.Naming.Casing
import Specimen.Proofs.Naming.Stable
import Specimen.Proofs.Text.Misfits

/-! Texts whose names are identifiers. A name has exactly the misfits of the text that it is made from, and begins as
the text does; so it is an identifier exactly if the text can be spelled, whatever steps lie between the two. -/
namespace Specimen.Naming
open Text (isLetter isAlphanumeric isIdentifierStart isIdentifierPart isMisfit misfits opens IsDecimal IsForm
  IsIdentifier IsLowered IsNameable)

/-- A text without misfits, whose identifier begins as an identifier can. -/
def IsSpellable (text : Text) : Prop := misfits text = [] ∧ opens text = true

instance : DecidablePred IsSpellable := fun _ => inferInstanceAs (Decidable (_ ∧ _))

/-- A name that begins with a letter and spells a text: it has the misfits of the text, beside them only what can stand
in identifiers, and can begin one exactly if the text opens one. -/
structure IsSpelling (text name : Text) : Prop where
  kept : misfits name = misfits text
  nameable : ∀ c ∈ name, IsNameable c
  head : ∃ c rest, name = c :: rest ∧ isLetter c = true ∧ isIdentifierStart c = opens text

namespace IsSpelling
variable {text name other : Text}

theorem letter (h : IsSpelling text name) : ∃ c rest, name = c :: rest ∧ isLetter c = true :=
  let ⟨c, rest, hname, letter, _⟩ := h.head
  ⟨c, rest, hname, letter⟩

/-- A name is an identifier exactly if the text that it spells can be spelled. -/
theorem isIdentifier_iff (h : IsSpelling text name) : IsIdentifier name ↔ IsSpellable text := by
  obtain ⟨c, rest, rfl, letter, start⟩ := h.head
  have plain : misfits text = [] ↔ ∀ d ∈ c :: rest, isMisfit d = false := by
    rw [← h.kept, Text.misfits_eq_nil_iff]
  rw [IsSpellable, ← start, plain]
  constructor
  · rintro ⟨d, others, same, hd, parts⟩
    obtain ⟨rfl, rfl⟩ := List.cons.inj same
    refine ⟨List.forall_mem_cons.mpr ⟨?_, fun e he => ?_⟩, hd⟩
    · rw [isMisfit, Text.isIdentifierPart_of_start letter hd, Bool.not_true, Bool.and_false]
    · rw [isMisfit, parts e he, Bool.not_true, Bool.and_false]
  · rintro ⟨fit, hc⟩
    exact ⟨c, rest, rfl, hc, fun d hd =>
      (h.nameable d (List.mem_cons_of_mem c hd)).isIdentifierPart (fit d (List.mem_cons_of_mem c hd))⟩

private theorem opens_eq (h : IsSpelling text name) : opens name = opens text := by
  obtain ⟨c, rest, rfl, letter, start⟩ := h.head
  have first : (c :: rest).find? isAlphanumeric = some c :=
    List.find?_cons_of_pos (by rw [isAlphanumeric, letter, Bool.true_or])
  rw [opens, first, ← start]
  simp [letter]

theorem trans (h : IsSpelling text name) (h' : IsSpelling name other) : IsSpelling text other where
  kept := h'.kept.trans h.kept
  nameable := h'.nameable
  head := h.opens_eq ▸ h'.head

theorem append (h : IsSpelling text name) {more : Text} (fit : misfits more = [])
    (nameable : ∀ c ∈ more, IsNameable c) : IsSpelling text (name ++ more) where
  kept := by rw [Text.misfits_append, fit, List.append_nil, h.kept]
  nameable := List.forall_mem_append.mpr ⟨h.nameable, nameable⟩
  head := by
    obtain ⟨c, rest, rfl, first⟩ := h.head
    exact ⟨c, rest ++ more, rfl, first⟩

/-- Decimal digits behind a name spell nothing. -/
theorem digits (h : IsSpelling text name) {digits : Text} (decimal : ∀ c ∈ digits, IsDecimal c) :
    IsSpelling text (name ++ digits) := by
  have part : ∀ d < 0x3A, IsDecimal d → isIdentifierPart d = true := by decide +kernel
  have parts : ∀ c ∈ digits, isIdentifierPart c = true := fun c hc =>
    part c (Nat.lt_succ_of_le (decimal c hc).2) (decimal c hc)
  exact h.append (Text.misfits_of_parts parts) fun c hc =>
    .inr ⟨parts c hc, Text.isLowered_decimal (decimal c hc)⟩

/-- A name that loses an end without misfits spells what it did, unless it was all of the name. -/
theorem init {init last : Text} (h : IsSpelling text (init ++ last)) (fit : misfits last = []) (filled : init ≠ []) :
    IsSpelling text init where
  kept := by rw [← h.kept, Text.misfits_append, fit, List.append_nil]
  nameable := (List.forall_mem_append.mp h.nameable).1
  head := by
    obtain ⟨c, rest, hname, first⟩ := h.head
    obtain ⟨d, others, rfl⟩ := List.exists_cons_of_ne_nil filled
    obtain ⟨rfl, -⟩ := List.cons.inj hname
    exact ⟨d, others, rfl, first⟩

/-- A name in lowercase spells what it did. -/
theorem lower (h : IsSpelling text name) : IsSpelling text (Text.lower name) where
  kept := (Text.misfits_lowerFrom [] h.nameable).trans h.kept
  nameable := Text.nameable_lowerFrom [] h.nameable
  head := by
    obtain ⟨c, rest, rfl, letter, start⟩ := h.head
    obtain ⟨d, more, hd, kind⟩ :=
      (Text.isForm_lowerAt (by rw [isAlphanumeric, letter, Bool.true_or]) [] rest).head
    exact ⟨d, more ++ Text.lowerFrom [c] rest, by rw [Text.lower, Text.lowerFrom, hd]; rfl, kind.letter.trans letter,
      kind.start.trans start⟩

end IsSpelling

section Identifiers

/-- A capitalized word has the misfits of the word, and beside them only what can stand in identifiers. -/
private theorem misfits_capitalize {word : Text} (h : ∀ c ∈ word, isAlphanumeric c = true) :
    misfits (capitalize word) = misfits word ∧ ∀ d ∈ capitalize word, IsNameable d := by
  have raised {l : CodePoint} {more : Text} (hl : isAlphanumeric l = true) (hm : ∀ d ∈ more, IsNameable d) :
      misfits (Text.upperOf l ++ more) = misfits (l :: more) ∧ ∀ d ∈ Text.upperOf l ++ more, IsNameable d := by
    have form := Text.isForm_upperOf hl
    exact ⟨by rw [Text.misfits_append, form.misfits, ← Text.misfits_append, List.singleton_append],
      List.forall_mem_append.mpr ⟨form.nameable hl, hm⟩⟩
  cases word with
  | nil => exact ⟨rfl, nofun⟩
  | cons c tail =>
    obtain ⟨hc, htail⟩ := List.forall_mem_cons.mp h
    cases shouted : isShouted (c :: tail) with
    | true =>
      obtain ⟨l, more, hl, kind⟩ := (Text.isForm_lowerAt hc [] []).head
      rw [← Text.lower_singleton] at hl
      have whole : Text.lower (c :: tail) = l :: (more ++ Text.lowerFrom [c] tail) := by
        rw [Text.lower_cons, hl]
        rfl
      have nameable : ∀ d ∈ c :: tail, IsNameable d := fun d hd => .inl (h d hd)
      have lowered := Text.nameable_lowerFrom [] nameable
      rw [← Text.lower, whole] at lowered
      obtain ⟨same, raised⟩ := raised kind.alphanumeric (List.forall_mem_cons.mp lowered).2
      rw [capitalize_of_shouted shouted hl]
      exact ⟨by rw [same, ← whole, Text.lower, Text.misfits_lowerFrom [] nameable], raised⟩
    | false =>
      rw [capitalize_of_not_shouted shouted]
      exact raised hc fun d hd => .inl (htail d hd)

/-- Words put together have the misfits of the text. -/
private theorem misfits_joined (text : Text) :
    misfits (joined text) = misfits text ∧ ∀ c ∈ joined text, IsNameable c := by
  have words (words : List Text) (h : ∀ word ∈ words, ∀ c ∈ word, isAlphanumeric c = true) :
      misfits (words.flatMap capitalize) = misfits words.flatten ∧ ∀ c ∈ words.flatMap capitalize, IsNameable c := by
    induction words with
    | nil => exact ⟨rfl, nofun⟩
    | cons word others ih =>
      obtain ⟨hword, hothers⟩ := List.forall_mem_cons.mp h
      obtain ⟨first, nameable⟩ := misfits_capitalize hword
      obtain ⟨behind, nameable'⟩ := ih hothers
      rw [List.flatMap_cons, Text.misfits_append, first, behind, ← Text.misfits_append, List.flatten_cons]
      exact ⟨rfl, List.forall_mem_append.mpr ⟨nameable, nameable'⟩⟩
  obtain ⟨same, nameable⟩ := words (segments text) isAlphanumeric_of_mem_segments
  refine ⟨same.trans ?_, nameable⟩
  rw [flatten_segments, misfits, misfits, List.filter_filter]
  exact List.filter_congr fun c _ => by simp +contextual [isMisfit]

/-- Letters that can begin an identifier spell nothing before what spells the text. -/
private theorem isSpelling_lead {text lead rest : Text} (filled : lead ≠ [])
    (letters : ∀ c ∈ lead, isLetter c = true ∧ isIdentifierStart c = true) (opened : opens text = true)
    (kept : misfits rest = misfits text) (parts : ∀ c ∈ rest, IsNameable c) : IsSpelling text (lead ++ rest) where
  kept := by
    have fit : misfits lead = [] := Text.misfits_of_parts fun c hc =>
      Text.isIdentifierPart_of_start (letters c hc).1 (letters c hc).2
    rw [Text.misfits_append, fit, List.nil_append, kept]
  nameable := List.forall_mem_append.mpr
    ⟨fun c hc => .inl (by rw [isAlphanumeric, (letters c hc).1, Bool.true_or]), parts⟩
  head := by
    obtain ⟨c, more, rfl⟩ := List.exists_cons_of_ne_nil filled
    obtain ⟨letter, start⟩ := letters c List.mem_cons_self
    exact ⟨c, more ++ rest, rfl, letter, start.trans opened.symm⟩

/-- The identifier of a text spells it. -/
private theorem isSpelling_normalize (text : Text) : IsSpelling text (normalize text) := by
  obtain ⟨kept, parts⟩ := misfits_joined text
  rw [normalize_eq]
  rcases joined_cases text with ⟨empty, none⟩ | ⟨c, d, rest, hc, hd, kind, -⟩
  · have opened : opens text = true := by rw [opens, none]
    rw [empty] at kept parts ⊢
    rw [identifierOf, ← List.append_nil emptyIdentifier]
    exact isSpelling_lead (by decide) (by decide +kernel) opened kept parts
  · have opened : opens text = (!isLetter d || isIdentifierStart d) := by rw [opens, hc, kind.letter, kind.start]
    rw [hd] at kept parts ⊢
    rw [identifierOf]
    split
    · rename_i letter
      exact ⟨kept, parts, d, rest, rfl, letter, by simp [opened, letter]⟩
    · rename_i other
      exact isSpelling_lead (by decide) (by decide +kernel) (by simp [opened, other]) kept parts

/-- A fraction cannot be spelled, nor a vowel sign at the start; behind a digit it can, for a letter is put before. -/
example : IsSpellable "order-ID" ∧ ¬ IsSpellable [0x61, 0xBD] ∧ ¬ IsSpellable [0xE33] ∧ IsSpellable [0x31, 0xE33] := by
  decide +kernel

theorem IsNameOf.isSpelling {text name : Text} (h : IsNameOf text name) : IsSpelling text name := by
  obtain ⟨digits, decimal, rfl⟩ := h
  exact (isSpelling_normalize text).digits decimal

end Identifiers

section Steps
variable {text name : Text}

/-- A name spells what it did when it loses an ending, unless that was all of it. -/
theorem IsSpelling.take {left ending : Text} (h : IsSpelling text name) (plain : ∀ d ∈ ending, d ≠ 0x307)
    (fit : misfits ending = []) (lowered : Text.lower name = left ++ ending)
    (filled : left ≠ [] ∨ ending.length < name.length) :
    IsSpelling text (name.take (name.length - ending.length)) := by
  obtain ⟨init, last, rfl, length, fit, alone⟩ := Text.exists_ending h.nameable plain fit lowered
  rw [List.length_append, length, Nat.add_sub_cancel, List.take_left]
  refine h.init fit fun empty => ?_
  rcases filled with filled | shorter
  · exact filled (alone.mp empty)
  · rw [List.length_append, empty, length] at shorter
    exact absurd shorter (by simp)

/-- The singular of a name spells what the name does. -/
theorem IsSpelling.singularize (h : IsSpelling text name) : IsSpelling text (singularize name) := by
  have ends {ending : Text} (he : (Text.lower name).endsWith ending = true) :
      ∃ left, Text.lower name = left ++ ending :=
    (List.isSuffixOf_iff_suffix.mp he).imp fun _ => Eq.symm
  fun_cases Naming.singularize name with
  | case1 lowered hends =>
    simp only [Bool.and_eq_true, decide_eq_true_eq] at hends
    obtain ⟨left, hleft⟩ := ends hends.1
    have stem := h.take (by decide) (by decide +kernel) hleft (.inr hends.2)
    exact stem.append (by decide +kernel) (by decide +kernel)
  | case2 lowered _ hends =>
    obtain ⟨left, hleft⟩ := ends hends
    have lowered : Text.lower name = (left ++ "ss") ++ "es" := by
      rw [hleft, List.append_assoc]
      rfl
    have stem : (left ++ "ss" : Text) ≠ [] := fun empty => absurd (List.append_eq_nil_iff.mp empty).2 (by decide)
    exact h.take (by decide) (by decide +kernel) lowered (.inl stem)
  | case3 lowered _ _ hends =>
    simp only [Bool.and_eq_true, decide_eq_true_eq] at hends
    obtain ⟨left, hleft⟩ := ends hends.1.1.1.1
    exact h.take (by decide) (by decide +kernel) hleft (.inr hends.2)
  | case4 => exact h

/-- A name whose words are set apart spells what it did. -/
theorem IsSpelling.separateWords (h : IsSpelling text name) : IsSpelling text (separateWords name) where
  kept := by
    have bar : misfits [0x5F] = [] := by decide +kernel
    have behind (previous : CodePoint) (rest : Text) : misfits (separateFrom previous rest) = misfits rest := by
      induction rest generalizing previous with
      | nil => rfl
      | cons c rest ih =>
        have first : misfits (c :: rest) = misfits [c] ++ misfits rest := Text.misfits_append [c] rest
        rw [separateFrom, Text.misfits_append, ih, first]
        split
        · rw [← List.singleton_append, Text.misfits_append, bar, List.nil_append]
        · rfl
    obtain ⟨c, rest, rfl, -⟩ := h.head
    rw [← h.kept, Naming.separateWords, ← List.singleton_append, Text.misfits_append, behind, ← Text.misfits_append]
    rfl
  nameable c hc := by
    have bar : isIdentifierPart 0x5F = true ∧ IsLowered 0x5F := by decide +kernel
    exact (mem_separateWords hc).elim (fun same => .inr (same ▸ bar)) (h.nameable c)
  head := by
    obtain ⟨c, rest, rfl, first⟩ := h.head
    exact ⟨c, _, rfl, first⟩

/-- The attribute name of a name spells it. -/
private theorem isSpelling_snakeCase (name : Text) : IsSpelling name (snakeCase name) := by
  have snake := (isSpelling_normalize name).separateWords.lower
  rw [snakeCase]
  split
  · exact snake.append (by decide +kernel) (by decide +kernel)
  · exact snake

end Steps

section Keywords

/-- No name with an underscore or a decimal digit behind it is a hard keyword. -/
private theorem append_notMem_hardKeywords {name more : Text} (filled : more ≠ [])
    (h : ∀ c ∈ more, c = 0x5F ∨ IsDecimal c) : name ++ more ∉ hardKeywords := by
  have ends : ∀ word ∈ hardKeywords, ∀ c ∈ word.getLast?, ¬ (c = 0x5F ∨ IsDecimal c) := by decide +kernel
  obtain ⟨last, hlast⟩ := Option.ne_none_iff_exists'.mp (mt List.getLast?_eq_none_iff.mp filled)
  intro hin
  refine ends _ hin last ?_ (h last (List.mem_of_getLast? hlast))
  rw [List.getLast?_append, hlast]
  rfl

private theorem snakeCase_notMem_hardKeywords (name : Text) : snakeCase name ∉ hardKeywords := by
  rw [snakeCase]
  split
  · exact append_notMem_hardKeywords (by decide) (by decide)
  · rename_i free
    intro hin
    exact free (by rw [isKeyword, List.contains_iff_mem.mpr hin, Bool.true_or])

/-- The hard keywords that do not begin with a small letter are reserved for no type. -/
theorem IsHeaded.notMem_hardKeywords {name : Text} (h : IsHeaded name) (unreserved : name ∉ reservedTypeNames) :
    name ∉ hardKeywords := by
  have small : ∀ word ∈ hardKeywords, word ∈ reservedTypeNames ∨ ∀ c ∈ word.head?, Text.IsSmall c := by decide +kernel
  obtain ⟨c, rest, rfl, large⟩ := h
  intro hin
  rcases small _ hin with reserved | first
  · exact unreserved reserved
  · exact large (first c rfl)

end Keywords

section Claims

/-- Names that a scope hands out for attribute names spell the names that these are made from, and are no hard
keywords. -/
theorem Scope.isSpelling_claim_snakeCase (scope : Scope) (name : Text) :
    IsSpelling name (scope.claim (snakeCase name)).1 ∧ (scope.claim (snakeCase name)).1 ∉ hardKeywords := by
  rcases scope.claim_eq (snakeCase name) with same | ⟨number, same⟩
  · rw [same]
    exact ⟨isSpelling_snakeCase name, snakeCase_notMem_hardKeywords name⟩
  · have decimal : ∀ c ∈ Text.ofNat number, IsDecimal c := fun c hc => Text.isDecimal_of_mem_ofNat hc
    rw [same, numbered]
    exact ⟨(isSpelling_snakeCase name).digits decimal,
      append_notMem_hardKeywords (Text.ofNat_ne_nil number) fun c hc => .inr (decimal c hc)⟩

end Claims

end Specimen.Naming
