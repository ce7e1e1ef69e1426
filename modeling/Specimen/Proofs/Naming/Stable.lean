import Specimen.Proofs.Naming.Identifier
import Specimen.Proofs.Text.Capitals
import Specimen.Proofs.Text.Spelling
import Mathlib.Data.List.TakeWhile

/-! Names made identifiers again. The name of a text begins with a letter that is its own uppercase form; it is its
own identifier exactly if it has letters and numbers only and, all in uppercase, keeps its case. -/
namespace Specimen.Naming
open Text (isLetter isAlphanumeric isAllUpper IsLowered SameKind upperOf lower lowerFrom)

/-- Whether a word is lowered before it is capitalized. -/
def isShouted (word : Text) : Bool := 1 < word.length && isAllUpper word

section Heads

theorem capitalize_of_shouted {c l : CodePoint} {tail more : Text} (h : isShouted (c :: tail) = true)
    (hl : lower [c] = l :: more) : capitalize (c :: tail) = upperOf l ++ (more ++ lowerFrom [c] tail) := by
  rw [capitalize, ← isShouted, if_pos h, Text.lower_cons, hl]
  rfl

theorem capitalize_of_not_shouted {c : CodePoint} {tail : Text} (h : isShouted (c :: tail) = false) :
    capitalize (c :: tail) = upperOf c ++ tail := by
  rw [capitalize, ← isShouted, if_neg (by simp [h])]

/-- The first character of a capitalized word is of the kind of the word's, and its own uppercase form. -/
private theorem capitalize_cons {c : CodePoint} (h : isAlphanumeric c = true) (tail : Text) :
    ∃ d rest, capitalize (c :: tail) = d :: rest ∧ SameKind c d ∧ upperOf d = [d] := by
  cases shouted : isShouted (c :: tail) with
  | true =>
    obtain ⟨l, more, hl, lowered⟩ := (Text.isForm_lowerAt h [] []).head
    obtain ⟨d, rest, hd, uppered⟩ := (Text.isForm_upperOf lowered.alphanumeric).head
    rw [← Text.lower_singleton] at hl
    rw [capitalize_of_shouted shouted hl, hd]
    exact ⟨d, _, rfl, lowered.trans uppered, Text.upperOf_head hd⟩
  | false =>
    obtain ⟨d, rest, hd, uppered⟩ := (Text.isForm_upperOf h).head
    rw [capitalize_of_not_shouted shouted, hd]
    exact ⟨d, _, rfl, uppered, Text.upperOf_head hd⟩

/-- Words put together begin with a character of the kind of the text's first letter or number, which is its own
uppercase form. -/
theorem joined_cases (text : Text) : joined text = [] ∧ text.find? isAlphanumeric = none ∨
    ∃ c d rest, text.find? isAlphanumeric = some c ∧ joined text = d :: rest ∧ SameKind c d ∧ upperOf d = [d] := by
  have heads (words : List Text) (h : ∀ word ∈ words, ∀ c ∈ word, isAlphanumeric c = true) :
      words.flatMap capitalize = [] ∧ words.flatten.head? = none ∨ ∃ c d rest, words.flatten.head? = some c ∧
        words.flatMap capitalize = d :: rest ∧ SameKind c d ∧ upperOf d = [d] := by
    induction words with
    | nil => exact .inl ⟨rfl, rfl⟩
    | cons word others ih =>
      obtain ⟨hword, hothers⟩ := List.forall_mem_cons.mp h
      cases word with
      | nil => exact ih hothers
      | cons c tail =>
        obtain ⟨d, rest, hd, kind, own⟩ := capitalize_cons (hword c List.mem_cons_self) tail
        exact .inr ⟨c, d, rest ++ others.flatMap capitalize, rfl, by rw [List.flatMap_cons, hd]; rfl, kind, own⟩
  have := heads (segments text) isAlphanumeric_of_mem_segments
  rwa [flatten_segments, List.head?_filter] at this

/-- An identifier begins with a letter that is its own uppercase form. -/
private theorem exists_normalize_eq (text : Text) :
    ∃ c rest, normalize text = c :: rest ∧ isLetter c = true ∧ upperOf c = [c] := by
  rw [normalize_eq]
  rcases joined_cases text with ⟨empty, -⟩ | ⟨_, d, rest, -, hd, -, own⟩
  · rw [empty]
    exact ⟨_, _, rfl, by decide, by decide +kernel⟩
  · rw [hd, identifierOf]
    split
    · rename_i letter
      exact ⟨d, rest, rfl, letter, own⟩
    · exact ⟨_, _, rfl, by decide, by decide +kernel⟩

private theorem IsNameOf.exists_eq {text name : Text} (h : IsNameOf text name) :
    ∃ c rest, name = c :: rest ∧ isLetter c = true ∧ upperOf c = [c] := by
  obtain ⟨digits, -, rfl⟩ := h
  obtain ⟨c, rest, hname, first⟩ := exists_normalize_eq text
  exact ⟨c, rest ++ digits, by rw [hname]; rfl, first⟩

end Heads

section Words
variable {c : CodePoint} {tail : Text}

/-- Whether a word is capitalized to itself: it is not lowered before, or its first character comes back and the
others are in lowercase. -/
def KeepsCase (c : CodePoint) (tail : Text) : Prop :=
  isShouted (c :: tail) = true → (lower [c]).flatMap upperOf = [c] ∧ ∀ d ∈ tail, IsLowered d

/-- A word that begins in uppercase is capitalized to itself, where what stands behind it is left aside, exactly if
it keeps its case. -/
private theorem capitalize_append_eq_iff (own : upperOf c = [c]) {after rest : Text} :
    capitalize (c :: tail) ++ after = c :: tail ++ rest ↔ KeepsCase c tail ∧ after = rest := by
  cases shouted : isShouted (c :: tail) with
  | false =>
    rw [capitalize_of_not_shouted shouted, own, KeepsCase, shouted]
    simp
  | true =>
    rw [KeepsCase, shouted]
    obtain ⟨l, more, hl⟩ := List.exists_cons_of_ne_nil (Text.lowerAt_ne_nil [] c [])
    rw [← Text.lower_singleton] at hl
    rw [capitalize_of_shouted shouted hl, hl, List.append_assoc]
    constructor
    · intro h
      obtain ⟨d, others, hd, -⟩ := Text.not_isSmall_upperOf l
      rw [hd] at h
      obtain ⟨rfl, h⟩ := List.cons.inj h
      obtain ⟨rfl, rfl⟩ := Text.upper_lower hl hd
      -- what is lowered of the rest is no shorter, so it is the rest itself
      obtain ⟨between, htail⟩ : tail <+: lowerFrom [d] tail :=
        List.prefix_of_prefix_length_le ⟨rest, h.symm⟩ ⟨after, rfl⟩ (Text.length_le_lowerFrom [d] tail)
      have lowered : ∀ e ∈ tail, IsLowered e := fun e he =>
        Text.isLowered_lowerFrom [d] tail e (htail ▸ List.mem_append_left between he)
      refine ⟨fun _ => ⟨by rw [List.flatMap_singleton, hd], lowered⟩, ?_⟩
      rw [Text.lowerFrom_eq_self _ lowered] at h
      exact List.append_cancel_left h
    · rintro ⟨keeps, rfl⟩
      obtain ⟨back, lowered⟩ := keeps rfl
      obtain ⟨d, others, hd, -⟩ := Text.not_isSmall_upperOf l
      rw [List.flatMap_cons, hd] at back
      obtain ⟨rfl, -⟩ := List.cons.inj back
      obtain ⟨rfl, rfl⟩ := Text.upper_lower hl hd
      rw [hd, Text.lowerFrom_eq_self _ lowered]
      rfl

end Words

instance (c : CodePoint) (tail : Text) : Decidable (KeepsCase c tail) := inferInstanceAs (Decidable (_ → _))

/-- Whether a name is one word of letters and numbers that keeps its case. -/
def IsSettled : Text → Prop
  | [] => False
  | c :: tail => (∀ d ∈ c :: tail, isAlphanumeric d = true) ∧ KeepsCase c tail

instance : DecidablePred IsSettled
  | [] => inferInstanceAs (Decidable False)
  | c :: tail => inferInstanceAs (Decidable ((∀ d ∈ c :: tail, isAlphanumeric d = true) ∧ KeepsCase c tail))

/-- A name that begins with a letter in uppercase is its own identifier exactly if it is settled. -/
private theorem normalize_eq_self_iff {c : CodePoint} {tail : Text} (letter : isLetter c = true)
    (own : upperOf c = [c]) :
    normalize (c :: tail) = c :: tail ↔ IsSettled (c :: tail) := by
  have first : isAlphanumeric c = true := by rw [isAlphanumeric, letter, Bool.true_or]
  -- the identifier of a word in front of others begins with the letter, so nothing is put before it
  have unled (word after : Text) (h : ∀ d ∈ c :: word, isAlphanumeric d = true) :
      identifierOf (capitalize (c :: word) ++ after) = capitalize (c :: word) ++ after := by
    obtain ⟨d, rest, hd, kind, -⟩ := capitalize_cons first word
    rw [hd, List.cons_append, identifierOf, if_pos (kind.letter.trans letter)]
  by_cases plain : ∀ d ∈ c :: tail, isAlphanumeric d = true
  · have word : joined (c :: tail) = capitalize (c :: tail) ++ [] := by
      rw [joined, segments_word (List.cons_ne_nil c tail) plain]
      rfl
    have same : capitalize (c :: tail) ++ [] = c :: tail ++ [] ↔ KeepsCase c tail ∧ ([] : Text) = [] :=
      capitalize_append_eq_iff own
    rw [List.append_nil (c :: tail)] at same
    rw [normalize_eq, word, unled tail [] plain, same, IsSettled]
    exact ⟨fun h => ⟨plain, h.1⟩, fun h => ⟨h.2, rfl⟩⟩
  · refine iff_of_false (fun same => ?_) fun settled => plain settled.1
    obtain ⟨word, mark, rest, htail, hword, hmark⟩ : ∃ word mark rest, tail = word ++ mark :: rest ∧
        (∀ d ∈ c :: word, isAlphanumeric d = true) ∧ isAlphanumeric mark = false := by
      cases hdrop : tail.dropWhile isAlphanumeric with
      | nil => exact (plain (List.forall_mem_cons.mpr ⟨first, List.dropWhile_eq_nil_iff.mp hdrop⟩)).elim
      | cons mark rest =>
        refine ⟨tail.takeWhile isAlphanumeric, mark, rest, by rw [← hdrop, List.takeWhile_append_dropWhile], ?_, ?_⟩
        · exact List.forall_mem_cons.mpr ⟨first, fun d hd => List.all_eq_true.mp List.all_takeWhile d hd⟩
        · simpa [hdrop] using List.head?_dropWhile_not isAlphanumeric tail
    have parts : joined (c :: tail) = capitalize (c :: word) ++ joined rest := by
      rw [htail, ← List.cons_append, joined_append hmark, joined, segments_word (List.cons_ne_nil c word) hword]
      simp
    rw [normalize_eq, parts, unled word _ hword, htail, ← List.cons_append, capitalize_append_eq_iff own] at same
    rcases joined_cases rest with ⟨empty, -⟩ | ⟨_, d, _, -, hd, kind, -⟩
    · exact List.cons_ne_nil _ _ (same.2.symm.trans empty)
    · obtain ⟨rfl, -⟩ := List.cons.inj (hd.symm.trans same.2)
      exact absurd (hmark.symm.trans kind.alphanumeric) Bool.noConfusion

/-- Names handed out for a text are not empty and begin with a letter. Made an identifier again, such a name is the same
exactly if it is settled: it has only letters and numbers, and where it is several characters in capitals only, the
first of them comes back from lowercase and no other one has another lowercase form. -/
theorem normalize_name {text name : Text} (h : IsNameOf text name) :
    (∃ c rest, name = c :: rest ∧ isLetter c = true) ∧ (normalize name = name ↔ IsSettled name) := by
  obtain ⟨c, rest, rfl, letter, own⟩ := h.exists_eq
  exact ⟨⟨c, rest, rfl, letter⟩, normalize_eq_self_iff letter own⟩

theorem normalize_name_numbered :
    IsNameOf "order-ID" "OrderId2" ∧ IsSettled "OrderId2" ∧
      (∃ c rest, ("OrderId2" : Text) = c :: rest ∧ isLetter c = true) ∧
      (normalize "OrderId2" = "OrderId2" ↔ IsSettled "OrderId2") := by
  have name : IsNameOf "order-ID" "OrderId2" := ⟨"2", by decide, by decide +kernel⟩
  exact ⟨name, by decide +kernel, normalize_name name⟩

/-- Two words of one letter are an identifier in capitals, which is one word and is lowered. -/
theorem normalize_name_initials :
    normalize "a b" = "AB" ∧ normalize (normalize "a b") = "Ab" ∧
      ¬ ∀ text, normalize (normalize text) = normalize text := by
  have once : normalize "a b" = "AB" := by decide +kernel
  have twice : normalize (normalize "a b") = "Ab" := by decide +kernel
  refine ⟨once, twice, fun claim => ?_⟩
  have := claim "a b"
  rw [twice, once] at this
  revert this
  decide

end Specimen.Naming
