import Specimen.Proofs.Json.Written

/-! Texts that are scanned as one token, whatever follows them, and the literals among scanned tokens. -/
namespace Specimen.Json.Token
open Numeral (isDigit)

/-- A text is scanned as one token before a rest. -/
def Scans (text : Text) (token : Token) (rest : Text) : Prop :=
  ∀ position, scanFrom position 0 (text ++ rest) = ⟨token, position⟩ :: scanFrom (position + text.length) 0 rest

section Steps
variable {c : CodePoint} {text rest : Text} {token : Token}

private theorem scanFrom_skip (position : Nat) (text rest : Text) :
    scanFrom position text.length (text ++ rest) = scanFrom (position + text.length) 0 rest := by
  induction text generalizing position with
  | nil => rfl
  | cons c more ih =>
    rw [List.length_cons, List.cons_append, scanFrom, ih]
    congr 1
    omega

theorem scanFrom_spaces {spaces : Text} (h : ∀ c ∈ spaces, isSpace c = true) (position : Nat) (rest : Text) :
    scanFrom position 0 (spaces ++ rest) = scanFrom (position + spaces.length) 0 rest := by
  induction spaces generalizing position with
  | nil => rfl
  | cons c more ih =>
    obtain ⟨hc, hmore⟩ := List.forall_mem_cons.mp h
    rw [List.cons_append, scanFrom, if_pos hc, ih hmore, List.length_cons]
    congr 1
    omega

private theorem scans_of_first (space : isSpace c = false) (whole : isBroken token = false)
    (h : ∀ position, first position c (text ++ rest) = (token, text.length + 1)) :
    Scans (c :: text) token rest := by
  intro position
  rw [List.cons_append, scanFrom, if_neg (by rw [space]; decide), h position]
  simp only [whole, Nat.add_sub_cancel, scanFrom_skip, List.length_cons]
  rw [if_neg (by decide)]
  congr 2
  omega

private theorem plain_of_punctuation? (h : punctuation? c = some token) :
    isSpace c = false ∧ isBroken token = false ∧ isDigit c = false ∧ c ≠ 0x2E ∧ c ≠ 0x65 ∧ c ≠ 0x45 := by
  unfold punctuation? at h
  repeat' split at h
  all_goals cases h
  all_goals
    rename_i hc
    rw [hc]
    decide

theorem scanFrom_punctuation (h : punctuation? c = some token) (position : Nat) (rest : Text) :
    scanFrom position 0 (c :: rest) = ⟨token, position⟩ :: scanFrom (position + 1) 0 rest := by
  obtain ⟨space, whole, -⟩ := plain_of_punctuation? h
  refine (scans_of_first space whole fun position => ?_ : Scans [c] token rest) position
  rw [first, h]
  rfl

theorem ends_punctuation (h : punctuation? c = some token) (rest : Text) : Ends (c :: rest) := by
  rintro d ⟨⟩
  exact (plain_of_punctuation? h).2.2

theorem scans_word (h : (text, token) ∈ words) : Scans text token rest := by
  simp only [words, List.mem_cons, Prod.mk.injEq, List.not_mem_nil, or_false] at h
  rcases h with ⟨rfl, rfl⟩ | ⟨rfl, rfl⟩ | ⟨rfl, rfl⟩ | ⟨rfl, rfl⟩ | ⟨rfl, rfl⟩ | ⟨rfl, rfl⟩ <;>
    exact scans_of_first rfl rfl fun position => rfl

/-- A literal begins with a digit, or with a minus sign and a digit. -/
theorem Literal.exists_head (literal : Literal) : ∃ c more, literal.text = c :: more ∧ (c < 0x3A ∧ 0x2D ≤ c) ∧
    (isDigit c = true ∨ c = 0x2D ∧ ∃ d rest, more = d :: rest ∧ isDigit d = true) := by
  obtain ⟨d, more, hcons, hd⟩ := literal.isWhole.exists_head
  have range : d < 0x3A ∧ 0x2D ≤ d := by
    simp only [isDigit, Bool.and_eq_true, decide_eq_true_eq, CodePoint] at hd ⊢
    omega
  rcases literal.isSign with he | he
  · exact ⟨d, more ++ literal.part ++ literal.power, by simp [Literal.text, he, hcons], range, .inl hd⟩
  · exact ⟨0x2D, d :: (more ++ literal.part ++ literal.power), by simp [Literal.text, he, hcons], by decide,
      .inr ⟨rfl, d, _, rfl, hd⟩⟩

/-- A literal is scanned as a number where nothing that follows could belong to it. -/
theorem scans_literal (literal : Literal) (stop : Ends rest) :
    Scans literal.text (.number literal.text literal.isPlain) rest := by
  have number := number?_literal literal stop
  obtain ⟨c, more, hcons, range, hc⟩ := Literal.exists_head literal
  rw [hcons] at number ⊢
  have plain : isSpace c = false ∧ punctuation? c = none ∧ c ≠ 0x22 :=
    (show ∀ c < 0x3A, 0x2D ≤ c → isSpace c = false ∧ punctuation? c = none ∧ c ≠ 0x22 by decide)
      c range.1 range.2
  have noWord : ∀ entry ∈ words, ¬ entry.1.isPrefixOf (c :: (more ++ rest)) = true := by
    have other {d : CodePoint} (hd : isDigit d = true) (letter : CodePoint) (hl : isDigit letter = false) :
        (letter = d) = False := eq_false fun he => by rw [he, hd] at hl; cases hl
    rcases hc with hc | ⟨rfl, d, tail, rfl, hd⟩
    · simp (disch := decide) [words, Text.ofString, other hc]
    · simp (disch := decide) [words, Text.ofString, other hd]
  refine scans_of_first plain.1 rfl fun position => ?_
  rw [first, plain.2.1]
  simp only [if_neg plain.2.2]
  split
  · rename_i word token found
    exact absurd (List.find?_some found) (noWord _ (List.mem_of_find?_eq_some found))
  · rw [← List.cons_append, number]
    rfl

end Steps

section Strings
variable {text rest : Text}

theorem hex4?_hexadecimal {c : CodePoint} (h : c < 0x20) :
    (Text.hexadecimal 4 c).length = 4 ∧ hex4? (Text.hexadecimal 4 c) = some c := by
  revert c
  decide

/-- A backslash and a letter that is an escape are scanned as one character. -/
private theorem scanString_simple {letter point : CodePoint} (h : simpleEscape? letter = some point)
    (unit : letter ≠ 0x75) (start position : Nat) (rest : Text) :
    scanString start position 0 (0x5C :: letter :: rest) =
      (scanString start (position + 2) 0 rest).map fun (value, stop) => (point :: value, stop) := by
  simp [scanString, h, unit]

private theorem unicodeEscape_hexadecimal {c : CodePoint} (h : c < 0x20) (filled : rest ≠ []) :
    unicodeEscape (Text.hexadecimal 4 c ++ rest) = .ok (c, 4) := by
  obtain ⟨length, value⟩ := hex4?_hexadecimal h
  have low : ¬ 0xD800 ≤ c := by
    simp only [CodePoint] at h ⊢
    omega
  match hd : Text.hexadecimal 4 c, length with
  | [w, x, y, z], _ =>
    rw [hd] at value
    have value : hex4? (w :: x :: y :: z :: rest) = some c := value
    simp [unicodeEscape, filled, value, low]

/-- A unit in hexadecimal digits is scanned as one character where something follows it. -/
private theorem scanString_unit {c : CodePoint} (h : c < 0x20) (filled : rest ≠ []) (start position : Nat) :
    scanString start position 0 (0x5C :: 0x75 :: (Text.hexadecimal 4 c ++ rest)) =
      (scanString start (position + 6) 0 rest).map fun (value, stop) => (c :: value, stop) := by
  have unit := unicodeEscape_hexadecimal h filled
  obtain ⟨length, -⟩ := hex4?_hexadecimal h
  match hd : Text.hexadecimal 4 c, length with
  | [w, x, y, z], _ =>
    rw [hd] at unit
    simp only [List.cons_append, List.nil_append] at unit ⊢
    simp [scanString, unit]

/-- An escaped character is scanned as that character where something follows it. -/
private theorem scanString_escaped (start position : Nat) (c : CodePoint) (filled : rest ≠ []) :
    scanString start position 0 (escaped c ++ rest) =
      (scanString start (position + (escaped c).length) 0 rest).map
        fun (value, stop) => (c :: value, stop) := by
  rw [escaped]
  repeat' split
  · rename_i h
    have h : c = 0x22 ∨ c = 0x5C := by simpa using h
    exact scanString_simple (by rcases h with rfl | rfl <;> rfl) (by rcases h with rfl | rfl <;> decide) ..
  iterate 5
    · rename_i h
      rw [h]
      exact scanString_simple rfl (by decide) ..
  · rename_i h
    obtain ⟨length, -⟩ := hex4?_hexadecimal h
    have text : "\\u" ++ Text.hexadecimal 4 c = 0x5C :: 0x75 :: Text.hexadecimal 4 c := rfl
    simpa [text, length] using scanString_unit h filled start position
  · rename_i special _ _ _ _ _ high
    have special : c ≠ 0x22 ∧ c ≠ 0x5C := by simpa using special
    have high : ¬ c ≤ 0x1F := fun low => high (Nat.lt_succ_of_le low)
    simp [scanString, special, high]

/-- A string literal is scanned as the string that it holds. -/
private theorem scanString_flatMap (start position : Nat) (value rest : Text) :
    scanString start position 0 (value.flatMap escaped ++ 0x22 :: rest) =
      .ok (value, position + (value.flatMap escaped).length + 1) := by
  induction value generalizing position with
  | nil => simp [scanString]
  | cons c more ih =>
    rw [List.flatMap_cons, List.append_assoc, scanString_escaped _ _ _ (by simp), ih]
    simp only [Except.map, List.length_append]
    congr 3
    omega

theorem scans_string (value : Text) : Scans (stringLiteral value) (.string value) rest := by
  rw [stringLiteral, List.cons_append]
  refine scans_of_first rfl rfl fun position => ?_
  have string := scanString_flatMap position (position + 1) value rest
  rw [first, List.append_assoc, List.singleton_append, string]
  simp only [show punctuation? 0x22 = none from rfl, if_pos, List.length_append, List.length_singleton]
  congr 1
  omega

end Strings

section Numbers
variable {literal : Text} {plain : Bool}

private theorem isNumberToken_first {position : Nat} {c : CodePoint} {rest : Text}
    (h : (first position c rest).1 = .number literal plain) : IsNumberToken literal plain := by
  rw [first] at h
  split at h
  · rename_i token found
    unfold punctuation? at found
    repeat' split at found
    all_goals cases found
    all_goals cases h
  · split at h
    · split at h <;> cases h
    · split at h
      · rename_i word token found
        have mem := List.mem_of_find?_eq_some found
        simp only at h
        rw [h] at mem
        simp only [words, List.mem_cons, Prod.mk.injEq, reduceCtorEq, and_false, Token.number.injEq,
          List.not_mem_nil, or_false, false_or] at mem
        refine .inl ?_
        simp only [constants, List.mem_cons, List.not_mem_nil, or_false]
        tauto
      · split at h
        · rename_i found
          cases h
          exact .inr (exists_literal found)
        · cases h

/-- The numbers of a text are constants or literals. -/
theorem isNumberToken_of_mem_scanFrom {position skip : Nat} {text : Text} :
    ∀ located ∈ scanFrom position skip text, located.token = .number literal plain →
      IsNumberToken literal plain := by
  fun_induction scanFrom position skip text with
  | case1 => simp
  | case2 _ _ _ _ ih => exact ih
  | case3 _ _ _ _ ih => exact ih
  | case4 position c rest _ token width hfirst _ =>
    intro located hl ht
    rw [List.mem_singleton.mp hl] at ht
    exact isNumberToken_first (by rw [hfirst]; exact ht)
  | case5 position c rest _ token width hfirst _ ih =>
    intro located hl ht
    rcases List.mem_cons.mp hl with rfl | hl
    · exact isNumberToken_first (by rw [hfirst]; exact ht)
    · exact ih located hl ht

end Numbers

end Specimen.Json.Token
