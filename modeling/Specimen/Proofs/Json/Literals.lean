import Specimen.Json.Token
import Specimen.Json.Render
import Specimen.Proofs.Text.Digits

/-! Number literals by their parts. The scanner takes such a literal as a whole, it denotes a number, and both
integers and finite floating-point numbers are written as one. -/
namespace Specimen.Json
open Numeral (isDigit)

/-- Digits, at least one. -/
structure IsDigits (digits : Text) : Prop where
  nonempty : digits ≠ []
  digit : ∀ c ∈ digits, isDigit c = true

/-- A fraction, or none. -/
def IsFraction (part : Text) : Prop := part = [] ∨ ∃ digits, IsDigits digits ∧ part = 0x2E :: digits

/-- An exponent, or none. -/
def IsExponent (power : Text) : Prop :=
  power = [] ∨ ∃ letter sign digits, (letter = 0x65 ∨ letter = 0x45) ∧
    (sign = [] ∨ sign = [0x2D] ∨ sign = [0x2B]) ∧ IsDigits digits ∧ power = letter :: (sign ++ digits)

/-- A number literal by its parts. -/
structure Literal where
  sign : Text
  whole : Text
  part : Text
  power : Text
  isSign : sign = [] ∨ sign = [0x2D]
  isWhole : IsDigits whole
  leading : whole.head? = some 0x30 → whole = [0x30]
  isPart : IsFraction part
  isPower : IsExponent power

namespace Literal

/-- The literal itself. -/
def text (literal : Literal) : Text := literal.sign ++ literal.whole ++ literal.part ++ literal.power

/-- Whether the literal has neither fraction nor exponent. -/
def isPlain (literal : Literal) : Bool := literal.part.isEmpty && literal.power.isEmpty

end Literal

/-- Whether a text does not begin with a digit, a point or the letter of an exponent. -/
def Ends (rest : Text) : Prop := ∀ c ∈ rest.head?, isDigit c = false ∧ c ≠ 0x2E ∧ c ≠ 0x65 ∧ c ≠ 0x45

section Digits
variable {digits rest : Text}

theorem IsDigits.exists_head (h : IsDigits digits) : ∃ c more, digits = c :: more ∧ isDigit c = true := by
  obtain ⟨c, more, rfl⟩ := List.exists_cons_of_ne_nil h.nonempty
  exact ⟨c, more, rfl, h.digit c List.mem_cons_self⟩

private theorem isDigits_takeWhile (h : rest.takeWhile isDigit ≠ []) : IsDigits (rest.takeWhile isDigit) :=
  ⟨h, fun _ hc => List.all_eq_true.mp List.all_takeWhile _ hc⟩

theorem takeWhile_digits (h : ∀ c ∈ digits, isDigit c = true) (stop : ∀ c ∈ rest.head?, isDigit c = false) :
    (digits ++ rest).takeWhile isDigit = digits := by
  rw [List.takeWhile_append_of_pos h]
  cases rest with
  | nil => simp
  | cons c more => simp [stop c rfl]

theorem dropWhile_digits (h : ∀ c ∈ digits, isDigit c = true) (stop : ∀ c ∈ rest.head?, isDigit c = false) :
    (digits ++ rest).dropWhile isDigit = rest := by
  rw [List.dropWhile_append_of_pos h]
  cases rest with
  | nil => rfl
  | cons c more => simp [stop c rfl]

private theorem Ends.notDigit (h : Ends rest) : ∀ c ∈ rest.head?, isDigit c = false := fun c hc => (h c hc).1

end Digits

section Following
variable {part power rest : Text}

private theorem IsExponent.notDigit (h : IsExponent power) (stop : Ends rest) :
    ∀ c ∈ (power ++ rest).head?, isDigit c = false ∧ c ≠ 0x2E := by
  rcases h with rfl | ⟨letter, sign, digits, hletter, -, -, rfl⟩
  · exact fun c hc => ⟨(stop c hc).1, (stop c hc).2.1⟩
  · rintro c ⟨⟩
    rcases hletter with rfl | rfl <;> decide

private theorem IsFraction.notDigit (h : IsFraction part) (stop : ∀ c ∈ rest.head?, isDigit c = false) :
    ∀ c ∈ (part ++ rest).head?, isDigit c = false := by
  rcases h with rfl | ⟨digits, -, rfl⟩
  · exact stop
  · rintro c ⟨⟩
    decide

end Following

namespace Token
variable {digits part power rest : Text}

private theorem whole_append (h : IsDigits digits) (leading : digits.head? = some 0x30 → digits = [0x30])
    (stop : ∀ c ∈ rest.head?, isDigit c = false) : whole (digits ++ rest) = digits := by
  obtain ⟨c, more, rfl, hc⟩ := h.exists_head
  rw [List.cons_append, whole]
  split
  · rename_i zero
    subst zero
    simpa using (leading rfl).symm
  · rw [spanDigits, takeWhile_digits (fun d hd => h.digit d (List.mem_cons_of_mem _ hd)) stop]

private theorem fraction_append (h : IsFraction part) (stop : ∀ c ∈ rest.head?, isDigit c = false ∧ c ≠ 0x2E) :
    fraction (part ++ rest) = part := by
  rcases h with rfl | ⟨digits, h, rfl⟩
  · cases rest with
    | nil => rfl
    | cons c more =>
      have := (stop c rfl).2
      simp [fraction, this]
  · rw [List.cons_append, fraction, spanDigits, takeWhile_digits h.digit fun c hc => (stop c hc).1]
    simp [h.nonempty]

private theorem exponent_append (h : IsExponent power) (stop : Ends rest) : exponent (power ++ rest) = power := by
  rcases h with rfl | ⟨letter, sign, digits, hletter, hsign, h, rfl⟩
  · cases rest with
    | nil => rfl
    | cons c more =>
      have := (stop c rfl).2.2
      simp [exponent, this]
  · have span := takeWhile_digits h.digit stop.notDigit
    rcases hsign with rfl | rfl | rfl
    · obtain ⟨c, tail, rfl, hc⟩ := h.exists_head
      have : ¬ (c = 0x2D ∨ c = 0x2B) := by rintro (rfl | rfl) <;> cases hc
      simp_all [exponent, spanDigits]
    · simp [exponent, spanDigits, hletter, span, h.nonempty]
    · simp [exponent, spanDigits, hletter, span, h.nonempty]

/-- A literal is taken as a whole where nothing that follows could belong to it. -/
theorem number?_literal (literal : Literal) (stop : Ends rest) :
    number? (literal.text ++ rest) = some (literal.text, literal.isPlain) := by
  obtain ⟨sign, digits, part, power, isSign, isWhole, leading, isPart, isPower⟩ := literal
  have afterPart := isPower.notDigit stop
  have afterWhole := isPart.notDigit fun c hc => (afterPart c hc).1
  have hw := whole_append isWhole leading afterWhole
  have hp := fraction_append isPart afterPart
  have he := exponent_append isPower stop
  obtain ⟨c, more, hcons, hc⟩ := isWhole.exists_head
  rcases isSign with rfl | rfl
  · have : c ≠ 0x2D := by rintro rfl; cases hc
    subst hcons
    simp_all [number?, Literal.text, Literal.isPlain]
  · simp_all [number?, Literal.text, Literal.isPlain]

private theorem isWhole_whole {text : Text} (h : whole text ≠ []) :
    IsDigits (whole text) ∧ ((whole text).head? = some 0x30 → whole text = [0x30]) := by
  cases text with
  | nil => exact absurd rfl h
  | cons c rest =>
    rw [whole] at h ⊢
    split
    · rename_i zero
      subst zero
      exact ⟨⟨by simp, by decide⟩, fun _ => rfl⟩
    · rename_i zero
      rw [if_neg zero] at h
      split
      · rename_i hc
        refine ⟨⟨by simp, List.forall_mem_cons.mpr ⟨hc, fun d hd => ?_⟩⟩,
          fun hz => absurd (Option.some.inj hz) zero⟩
        exact List.all_eq_true.mp List.all_takeWhile d hd
      · rename_i hc
        exact absurd (if_neg hc) h

private theorem isFraction_fraction (text : Text) : IsFraction (fraction text) := by
  cases text with
  | nil => exact .inl rfl
  | cons c rest =>
    rw [fraction]
    split
    · rename_i h
      simp only [Bool.and_eq_true, decide_eq_true_eq, Bool.not_eq_true', List.isEmpty_eq_false_iff] at h
      exact .inr ⟨_, isDigits_takeWhile h.2, by rw [h.1]; rfl⟩
    · exact .inl rfl

/-- A letter and what follows it are an exponent where at least one digit does. -/
private theorem isExponent_of {letter : CodePoint} {sign after : Text} (hletter : letter = 0x65 ∨ letter = 0x45)
    (hsign : sign = [] ∨ sign = [0x2D] ∨ sign = [0x2B]) :
    IsExponent (if (spanDigits after).1.isEmpty then [] else letter :: sign ++ (spanDigits after).1) := by
  split
  · exact .inl rfl
  · rename_i h
    exact .inr ⟨letter, sign, _, hletter, hsign, isDigits_takeWhile (mt List.isEmpty_iff.mpr h), rfl⟩

private theorem isExponent_exponent (text : Text) : IsExponent (exponent text) := by
  cases text with
  | nil => exact .inl rfl
  | cons c rest =>
    rw [exponent.eq_def]
    simp only
    split
    · rename_i hletter
      replace hletter : c = 0x65 ∨ c = 0x45 := by simpa using hletter
      cases rest with
      | nil => exact isExponent_of hletter (.inl rfl)
      | cons s more =>
        simp only
        split
        · rename_i hs
          replace hs : s = 0x2D ∨ s = 0x2B := by simpa using hs
          exact isExponent_of hletter (.inr (hs.imp (congrArg ([·])) (congrArg ([·]))))
        · exact isExponent_of hletter (.inl rfl)
    · exact .inl rfl

/-- A sign and what is taken after it are a literal where at least one digit is. -/
private theorem exists_literal_of {sign unsigned literal : Text} {plain : Bool}
    (isSign : sign = [] ∨ sign = [0x2D])
    (h : (if (whole unsigned).isEmpty then none
      else
        let after := unsigned.drop (whole unsigned).length
        let part := fraction after
        let power := exponent (after.drop part.length)
        some (sign ++ whole unsigned ++ part ++ power, part.isEmpty && power.isEmpty)) =
      some (literal, plain)) :
    ∃ parts : Literal, literal = parts.text ∧ plain = parts.isPlain := by
  split at h
  · cases h
  · rename_i some
    obtain ⟨isWhole, leading⟩ := isWhole_whole (by simpa using some)
    cases h
    exact ⟨⟨sign, _, _, _, isSign, isWhole, leading, isFraction_fraction _, isExponent_exponent _⟩, rfl, rfl⟩

/-- What is taken as a number is a literal. -/
theorem exists_literal {text literal : Text} {plain : Bool} (h : number? text = some (literal, plain)) :
    ∃ parts : Literal, literal = parts.text ∧ plain = parts.isPlain := by
  cases text with
  | nil => cases h
  | cons c rest =>
    by_cases hc : c = Char.toNat '-'
    · simp only [number?, if_pos hc] at h
      exact exists_literal_of (.inr (congrArg ([·]) hc)) h
    · simp only [number?, if_neg hc] at h
      exact exists_literal_of (.inl rfl) h

end Token

section Reading

/-- The characters of number literals. -/
def IsNumeric (c : CodePoint) : Prop := isDigit c = true ∨ c ∈ [0x2B, 0x2D, 0x2E, 0x45, 0x65]

private theorem IsNumeric.range {c : CodePoint} (h : IsNumeric c) : 0x2B ≤ c ∧ c ≤ 0x65 ∧ c ≠ 0x5F := by
  rcases h with h | h
  · simp only [isDigit, Bool.and_eq_true, decide_eq_true_eq, CodePoint] at h ⊢
    omega
  · simp only [List.mem_cons, List.not_mem_nil, or_false, CodePoint] at h ⊢
    omega

private theorem withoutUnderscores_go {text : Text} {before : CodePoint} (hb : before ≠ 0x5F)
    (h : ∀ c ∈ text, c ≠ 0x5F) : Numeral.withoutUnderscores.go before text = some text := by
  induction text generalizing before with
  | nil => simp [Numeral.withoutUnderscores.go, hb]
  | cons c rest ih =>
    obtain ⟨hc, hrest⟩ := List.forall_mem_cons.mp h
    simp [Numeral.withoutUnderscores.go, hb, hc, ih hc hrest]

/-- Reading a number drops none of the characters of a literal. -/
theorem withoutUnderscores_numeric {text : Text} (h : ∀ c ∈ text, IsNumeric c) :
    Numeral.withoutUnderscores (Numeral.stripAsciiBlank (Numeral.toAscii text)) = some text := by
  have ascii : Numeral.toAscii text = text := by
    refine (List.map_congr_left fun c hc => ?_).trans (List.map_id text)
    exact if_pos (Nat.lt_of_le_of_lt (h c hc).range.2.1 (by decide))
  have blank : ∀ c ∈ text, Numeral.isAsciiBlank c = false := fun c hc => by
    have low := (h c hc).range.1
    simp only [Numeral.isAsciiBlank, Bool.or_eq_false_iff, Bool.and_eq_false_iff, decide_eq_false_iff_not,
      CodePoint] at low ⊢
    omega
  have keep {part : Text} (hp : ∀ c ∈ part, Numeral.isAsciiBlank c = false) :
      part.dropWhile Numeral.isAsciiBlank = part := by
    cases part with
    | nil => rfl
    | cons c rest => simp [hp c List.mem_cons_self]
  have strip : Numeral.stripAsciiBlank text = text := by
    rw [Numeral.stripAsciiBlank, keep blank, keep fun c hc => blank c (List.mem_reverse.mp hc),
      List.reverse_reverse]
  rw [ascii, strip]
  exact withoutUnderscores_go (by decide) fun c hc => (h c hc).range.2.2

end Reading

namespace Literal
variable (literal : Literal)

theorem isNumeric : ∀ c ∈ literal.text, IsNumeric c := by
  intro c h
  simp only [text, List.mem_append] at h
  rcases h with ((h | h) | h) | h
  · rcases literal.isSign with he | he
    · simp [he] at h
    · exact .inr (by simp_all)
  · exact .inl (literal.isWhole.digit c h)
  · rcases literal.isPart with he | ⟨digits, hd, he⟩
    · simp [he] at h
    · rcases List.mem_cons.mp (he ▸ h) with rfl | h
      · exact .inr (by simp)
      · exact .inl (hd.digit c h)
  · rcases literal.isPower with he | ⟨letter, mark, digits, hletter, hmark, hd, he⟩
    · simp [he] at h
    · rcases List.mem_cons.mp (he ▸ h) with rfl | h
      · exact .inr (by rcases hletter with rfl | rfl <;> simp)
      · rcases List.mem_append.mp h with h | h
        · exact .inr (by rcases hmark with rfl | rfl | rfl <;> simp_all)
        · exact .inl (hd.digit c h)

theorem takeSign_text : Numeral.takeSign literal.text =
    (!literal.sign.isEmpty, literal.whole ++ literal.part ++ literal.power) := by
  obtain ⟨sign, whole, part, power, isSign, isWhole, -, isPart, isPower⟩ := literal
  rcases isSign with rfl | rfl
  · obtain ⟨c, more, rfl, hc⟩ := isWhole.exists_head
    have hminus : c ≠ 0x2D := by rintro rfl; cases hc
    have hplus : c ≠ 0x2B := by rintro rfl; cases hc
    simp [Numeral.takeSign, text, hminus, hplus]
  · simp [Numeral.takeSign, text]

private theorem exists_readExponent {power : Text} (h : IsExponent power) :
    ∃ exponent, Numeral.readExponent power = some exponent := by
  rcases h with rfl | ⟨letter, mark, digits, hletter, hmark, hd, rfl⟩
  · exact ⟨0, rfl⟩
  · have letter : Numeral.asciiLower letter = 0x65 := by rcases hletter with rfl | rfl <;> rfl
    have all : digits.all isDigit = true := List.all_eq_true.mpr hd.digit
    rw [Numeral.readExponent, if_neg (not_not_intro letter)]
    rcases hmark with rfl | rfl | rfl
    · obtain ⟨c, more, rfl, hc⟩ := hd.exists_head
      have hminus : c ≠ 0x2D := by rintro rfl; cases hc
      have hplus : c ≠ 0x2B := by rintro rfl; cases hc
      simp_all [Numeral.takeSign]
    · simp_all [Numeral.takeSign, hd.nonempty]
    · simp_all [Numeral.takeSign, hd.nonempty]

private theorem exists_readDecimal (negative : Bool) :
    ∃ number, Numeral.readDecimal negative (literal.whole ++ literal.part ++ literal.power) = some number := by
  obtain ⟨exponent, hexponent⟩ := exists_readExponent literal.isPower
  have hpower : ∀ c ∈ literal.power.head?, isDigit c = false ∧ c ≠ 0x2E := by
    simpa using literal.isPower.notDigit (show Ends [] from nofun)
  have hpart := literal.isPart.notDigit fun c hc => (hpower c hc).1
  have some := literal.isWhole.nonempty
  rw [Numeral.readDecimal, List.append_assoc, takeWhile_digits literal.isWhole.digit hpart,
    dropWhile_digits literal.isWhole.digit hpart]
  rcases literal.isPart with he | ⟨digits, hd, he⟩
  · rw [he, List.nil_append]
    cases hrest : literal.power with
    | nil => simp [some, Numeral.readExponent]
    | cons c rest =>
      have := (hpower c (by rw [hrest]; rfl)).2
      simp [some, this, ← hrest, hexponent]
  · rw [he, List.cons_append]
    simp [some, takeWhile_digits hd.digit fun c hc => (hpower c hc).1,
      dropWhile_digits hd.digit fun c hc => (hpower c hc).1, hexponent]

/-- Every literal denotes a floating-point number. -/
theorem exists_readFloat : ∃ number, Numeral.readFloat literal.text = some number := by
  obtain ⟨c, more, hcons, hc⟩ := literal.isWhole.exists_head
  have lower : Numeral.asciiLower c = c := if_neg (by
    simp only [isDigit, Bool.and_eq_true, decide_eq_true_eq, CodePoint] at hc ⊢
    omega)
  have unnamed {name : Text} (h : ∀ letter ∈ name.head?, isDigit letter = false) (some : name ≠ []) :
      (literal.whole ++ literal.part ++ literal.power).map Numeral.asciiLower ≠ name := by
    rintro rfl
    simp [hcons, lower, hc] at h
  rw [Numeral.readFloat, withoutUnderscores_numeric literal.isNumeric]
  simp only [takeSign_text]
  rw [if_neg (by simpa only [Bool.or_eq_true, decide_eq_true_eq, not_or] using
    ⟨unnamed (by decide) (by decide), unnamed (by decide) (by decide)⟩),
    if_neg (unnamed (by decide) (by decide))]
  exact literal.exists_readDecimal _

end Literal

end Specimen.Json
