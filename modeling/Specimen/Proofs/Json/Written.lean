import Specimen.Json.Reader
import Specimen.Proofs.Json.Literals
import Specimen.Proofs.Text.Digits
import Mathlib.Data.Nat.Digits.Defs

/-! The literals that numbers are written as. -/
namespace Specimen.Text

/-- No number but zero begins with the digit zero. -/
private theorem eq_zero_of_head?_ofNat {n : Nat} (h : (ofNat n).head? = some 0x30) : n = 0 := by
  induction n using Nat.strongRecOn with
  | ind n ih =>
    rw [ofNat, Nat.toDigits_eq_if (by decide)] at h
    split at h
    · rename_i small
      have zero : ∀ d < 10, d.digitChar.toNat = 0x30 → d = 0 := by decide
      exact zero n small (Option.some.inj h)
    · rename_i large
      rw [List.map_append, List.head?_append, Option.or_of_isSome (by simp [Nat.toDigits_ne_nil])] at h
      have := ih (n / 10) (by omega) h
      omega

theorem digitsValue_ofNat (n : Nat) : Numeral.digitsValue (ofNat n) = n := by
  rw [Numeral.digitsValue, ofNat, List.foldl_map]
  have := @Nat.ofDigitChars_toDigits 10 n (by decide) (by decide)
  simp only [Nat.ofDigitChars, Nat.mul_comm 10] at this
  exact this

private theorem length_ofNat_le {n bound : Nat} (positive : 0 < bound) (h : n < 10 ^ bound) :
    (ofNat n).length ≤ bound := by
  rw [ofNat, List.length_map]
  exact (Nat.length_toDigits_le_iff (by decide) positive).mpr h

end Specimen.Text

namespace Specimen.Json
open Numeral (isDigit)

theorem isDigits_ofNat (n : Nat) : IsDigits (Text.ofNat n) where
  nonempty := Text.ofNat_ne_nil n
  digit c hc := by simpa [isDigit, Text.IsDecimal] using Text.isDecimal_of_mem_ofNat hc

private theorem ofNat_eq_zero {n : Nat} (h : (Text.ofNat n).head? = some 0x30) : Text.ofNat n = [0x30] := by
  rw [Text.eq_zero_of_head?_ofNat h]
  rfl

namespace Literal

/-- A fraction or an exponent is told by a character. -/
theorem any_text (literal : Literal) :
    (literal.text.any fun c => c = '.' || c = 'e' || c = 'E') = !literal.isPlain := by
  have digits (part : Text) (h : ∀ c ∈ part, isDigit c = true) :
      (part.any fun c => c = '.' || c = 'e' || c = 'E') = false := by
    refine List.any_eq_false.mpr fun c hc => ?_
    have := h c hc
    rw [Bool.not_eq_true, Bool.or_eq_false_iff, Bool.or_eq_false_iff]
    refine ⟨⟨decide_eq_false ?_, decide_eq_false ?_⟩, decide_eq_false ?_⟩ <;> rintro rfl <;> cases this
  have sign : (literal.sign.any fun c => c = '.' || c = 'e' || c = 'E') = false := by
    rcases literal.isSign with he | he <;> rw [he] <;> rfl
  rw [text, List.any_append, List.any_append, List.any_append, sign, digits _ literal.isWhole.digit, isPlain]
  have part : (literal.part.any fun c => c = '.' || c = 'e' || c = 'E') = !literal.part.isEmpty := by
    rcases literal.isPart with he | ⟨more, -, he⟩ <;> rw [he] <;> rfl
  have power : (literal.power.any fun c => c = '.' || c = 'e' || c = 'E') = !literal.power.isEmpty := by
    rcases literal.isPower with he | ⟨letter, mark, more, rfl | rfl, -, -, he⟩ <;> rw [he] <;> rfl
  rw [part, power, Bool.not_and]
  rfl

/-- The literal of an integer. -/
def ofInt : Int → Literal
  | .ofNat n => ⟨[], Text.ofNat n, [], [], .inl rfl, isDigits_ofNat n, ofNat_eq_zero, .inl rfl, .inl rfl⟩
  | .negSucc n =>
    ⟨[0x2D], Text.ofNat (n + 1), [], [], .inr rfl, isDigits_ofNat (n + 1), ofNat_eq_zero, .inl rfl, .inl rfl⟩

theorem text_ofInt (value : Int) : (ofInt value).text = Text.ofInt value := by
  cases value <;> simp [ofInt, text, Text.ofInt, Text.ofString]

private theorem isPlain_ofInt (value : Int) : (ofInt value).isPlain = true := by
  cases value <;> rfl

/-- An integer is read back from its digits. -/
theorem readInteger_ofInt {value : Int} (short : (Text.ofNat value.natAbs).length ≤ Numeral.digitLimit) :
    Numeral.readInteger (Text.ofInt value) = .ok value := by
  have all (n : Nat) : (Text.ofNat n).all isDigit = true := List.all_eq_true.mpr (isDigits_ofNat n).digit
  rw [Numeral.readInteger, ← text_ofInt, withoutUnderscores_numeric (ofInt value).isNumeric]
  simp only [takeSign_text]
  cases value with
  | ofNat n =>
    have short : ¬ Numeral.digitLimit < (Text.ofNat n).length := Nat.not_lt.mpr short
    simp [ofInt, all, Text.ofNat_ne_nil, short, Text.digitsValue_ofNat]
  | negSucc n =>
    have short : ¬ Numeral.digitLimit < (Text.ofNat (n + 1)).length := Nat.not_lt.mpr short
    simp [ofInt, all, Text.ofNat_ne_nil, short, Text.digitsValue_ofNat, Int.negSucc_eq, Int.add_comm]

end Literal

theorem length_ofInt_le {value : Int} (low : integralMin ≤ value) (high : value ≤ integralMax) :
    (Text.ofNat value.natAbs).length ≤ 19 ∧ (Text.ofInt value).length ≤ 20 := by
  have digits : (Text.ofNat value.natAbs).length ≤ 19 := by
    refine Text.length_ofNat_le (by decide) ?_
    simp only [integralMin, integralMax] at low high
    omega
  refine ⟨digits, ?_⟩
  cases value with
  | ofNat n => exact Nat.le_succ_of_le digits
  | negSucc n =>
    have signed : (Text.ofInt (.negSucc n)).length = (Text.ofNat (n + 1)).length + 1 := by
      simp [Text.ofInt, Text.ofString]
    exact signed ▸ Nat.succ_le_succ digits

/-- An integer within the bounds is integral as it is written. -/
private theorem integral?_ofInt {value : Int} (low : integralMin ≤ value) (high : value ≤ integralMax) :
    integral? (Text.ofInt value) = some value := by
  have short := (length_ofInt_le low high).1.trans (show 19 ≤ Numeral.digitLimit by decide)
  rw [integral?, ← Literal.text_ofInt, Literal.any_text, Literal.isPlain_ofInt, Literal.text_ofInt,
    Literal.readInteger_ofInt short]
  simp [low, high]

/-- A literal with a fraction or an exponent is not integral. -/
theorem integral?_of_not_plain {literal : Literal} (h : literal.isPlain = false) :
    integral? literal.text = none := by
  rw [integral?, literal.any_text, h]
  rfl

section Decimals
open Binary64 (Decimal zeros exponentText)

theorem IsDigits.append {digits more : Text} (h : IsDigits digits) (hm : ∀ c ∈ more, isDigit c = true) :
    IsDigits (digits ++ more) :=
  ⟨by simp [h.nonempty], fun c hc => (List.mem_append.mp hc).elim (h.digit c) (hm c)⟩

theorem IsDigits.behind {digits : Text} (h : IsDigits digits) (n : Nat) : IsDigits (zeros n ++ digits) :=
  ⟨by simp [h.nonempty], fun c hc => (List.mem_append.mp hc).elim
    (fun hz => by rw [List.eq_of_mem_replicate hz]; rfl) (h.digit c)⟩

private theorem digit_zeros (n : Nat) : ∀ c ∈ zeros n, isDigit c = true := fun c hc => by
  rw [List.eq_of_mem_replicate hc]
  rfl

private theorem isExponent_exponentText (exponent : Int) : IsExponent (exponentText exponent) := by
  have digits := (isDigits_ofNat exponent.natAbs).behind (2 - (Text.ofNat exponent.natAbs).length)
  rw [exponentText]
  split
  · exact .inr ⟨0x65, [0x2D], _, .inl rfl, .inr (.inl rfl), digits, by simp [Text.ofString]⟩
  · exact .inr ⟨0x65, [0x2B], _, .inl rfl, .inr (.inr rfl), digits, by simp [Text.ofString]⟩

/-- Whether a text is an unsigned literal with a fraction or an exponent. -/
def IsReal (text : Text) : Prop :=
  ∃ literal : Literal, literal.sign = [] ∧ literal.isPlain = false ∧ literal.text = text

private theorem isReal_point {whole digits : Text} (hw : IsDigits whole)
    (leading : whole.head? = some 0x30 → whole = [0x30]) (hd : IsDigits digits) : IsReal (whole ++ 0x2E :: digits) :=
  ⟨⟨[], whole, 0x2E :: digits, [], .inl rfl, hw, leading, .inr ⟨digits, hd, rfl⟩, .inl rfl⟩, rfl, rfl,
    by simp [Literal.text]⟩

private theorem isReal_exponent {digits : Text} (h : IsDigits digits) (exponent : Int) :
    IsReal (digits.take 1 ++ (if (digits.drop 1).isEmpty then [] else 0x2E :: digits.drop 1) ++
      exponentText exponent) := by
  obtain ⟨c, more, rfl, hc⟩ := h.exists_head
  have hpart : IsFraction (if more.isEmpty then [] else 0x2E :: more) := by
    split
    · exact .inl rfl
    · rename_i filled
      exact .inr ⟨more,
        ⟨mt List.isEmpty_iff.mpr filled, fun d hd => h.digit d (List.mem_cons_of_mem _ hd)⟩, rfl⟩
  refine ⟨⟨[], [c], _, exponentText exponent, .inl rfl, ⟨by simp, by simpa⟩,
    fun hz => congrArg ([·]) (Option.some.inj hz), hpart, isExponent_exponentText exponent⟩, rfl, ?_, rfl⟩
  have filled : exponentText exponent ≠ [] := by
    rw [exponentText]
    split <;> simp [Text.ofString]
  simp [Literal.isPlain, filled]

/-- A decimal is written as a literal with a fraction or an exponent. -/
private theorem isReal_decimal (decimal : Decimal) (zero : decimal.digits = 0 → decimal.point = 1) :
    IsReal decimal.text := by
  have digits := isDigits_ofNat decimal.digits
  rw [Decimal.text]
  split
  · exact isReal_exponent digits _
  · split
    · have fraction := digits.behind (-decimal.point).toNat
      have zero : IsDigits [0x30] := ⟨by simp, by decide⟩
      simpa [Text.ofString] using isReal_point zero (fun _ => rfl) fraction
    · rename_i positive
      simp only
      split
      · generalize hfill : decimal.point.toNat - (Text.ofNat decimal.digits).length = fill
        have leading (h : (Text.ofNat decimal.digits ++ zeros fill).head? = some 0x30) :
            Text.ofNat decimal.digits ++ zeros fill = [0x30] := by
          rw [List.head?_append, Option.or_of_isSome (by simp [Text.ofNat_ne_nil])] at h
          have hz := Text.eq_zero_of_head?_ofNat h
          rw [← hfill, zero hz, hz]
          rfl
        have zero : IsDigits [0x30] := ⟨by simp, by decide⟩
        exact isReal_point (digits.append (digit_zeros _)) leading zero
      · rename_i longer
        obtain ⟨before, hbefore⟩ : ∃ before, decimal.point.toNat = before + 1 :=
          Nat.exists_eq_succ_of_ne_zero (by omega)
        have filled : Text.ofNat decimal.digits ≠ [] := Text.ofNat_ne_nil _
        have leading : ((Text.ofNat decimal.digits).take decimal.point.toNat).head? ≠ some 0x30 := fun h => by
          rw [hbefore, List.head?_take, if_neg (by omega)] at h
          rw [Text.eq_zero_of_head?_ofNat h] at longer
          exact longer (by rw [hbefore]; exact Nat.le_add_left 1 before)
        rw [List.append_assoc]
        refine isReal_point ⟨by simp [hbefore, filled], fun c hc => digits.digit c (List.mem_of_mem_take hc)⟩
          (fun h => absurd h leading) ⟨?_, fun c hc => digits.digit c (List.mem_of_mem_drop hc)⟩
        exact fun h => longer (List.drop_eq_nil_iff.mp h)

end Decimals

section Floats
open Binary64

private theorem withoutZeros_ne_zero {fuel digits : Nat} (h : digits ≠ 0) : withoutZeros fuel digits ≠ 0 := by
  induction fuel generalizing digits with
  | zero => exact h
  | succ fuel ih =>
    rw [withoutZeros]
    split
    · exact ih (by omega)
    · exact h

private theorem firstExact?_ne_zero {significand digits : Nat} {exponent grid : Int} (h : significand ≠ 0)
    (found : firstExact? significand exponent = some (digits, grid)) : digits ≠ 0 := by
  rw [firstExact?] at found
  obtain ⟨_, _, found⟩ := List.exists_of_findSome?_eq_some found
  have same := List.find?_some found
  clear found
  rintro rfl
  have same : zero false = .finite false significand exponent := by simpa [ofDecimal] using same
  exact h (Binary64.finite.inj same).2.1.symm


private theorem shortest_eq_zero {significand : Nat} {exponent : Int} (h : (shortest significand exponent).digits = 0) :
    (shortest significand exponent).point = 1 := by
  rw [shortest] at h ⊢
  by_cases nonzero : significand = 0
  · rw [if_pos nonzero]
  · obtain ⟨⟨digits, grid⟩, found⟩ :
        ∃ found, (firstExact? significand exponent).getD (significand, 0) = found := ⟨_, rfl⟩
    rw [if_neg nonzero, found] at h
    refine absurd h (withoutZeros_ne_zero ?_)
    cases hexact : firstExact? significand exponent with
    | none =>
      rw [hexact] at found
      cases found
      exact nonzero
    | some decimal =>
      rw [hexact] at found
      cases found
      exact firstExact?_ne_zero nonzero hexact

/-- A finite number is written as a literal with a fraction or an exponent. -/
theorem exists_literal_finite (negative : Bool) (significand : Nat) (exponent : Int) :
    ∃ literal : Literal, literal.isPlain = false ∧
      literal.text = floatLiteral (.finite negative significand exponent) := by
  obtain ⟨literal, hsign, plain, htext⟩ := isReal_decimal (shortest significand exponent) shortest_eq_zero
  have hfloat : floatLiteral (.finite negative significand exponent) =
    (if negative then [0x2D] else []) ++ (shortest significand exponent).text := by
    cases negative <;> rfl
  rw [hfloat, ← htext]
  cases negative with
  | false => exact ⟨literal, plain, rfl⟩
  | true => exact ⟨{ literal with sign := [0x2D], isSign := .inr rfl }, plain, by simp [Literal.text, hsign]⟩

end Floats

section Written

/-- The literals of numbers that are no decimals. -/
def constants : List Text := ["NaN", "Infinity", "-Infinity"]

private theorem integral?_bounds {literal : Text} {value : Int} (h : integral? literal = some value) :
    integralMin ≤ value ∧ value ≤ integralMax := by
  rw [integral?] at h
  split at h
  · cases h
  · split at h
    · split at h
      · rename_i bounds
        simpa [Option.some.inj h] using bounds
      · cases h
    · cases h

theorem ofLiteral_ofInt {value : Int} (low : integralMin ≤ value) (high : value ≤ integralMax) :
    Number.ofLiteral (Text.ofInt value) = some (.int value) := by
  rw [Number.ofLiteral, integral?_ofInt low high]

theorem ofLiteral_floatLiteral {value : Binary64} (exact : Numeral.readFloat value.text = some value) :
    Number.ofLiteral (floatLiteral value) = some (.float value) := by
  cases value with
  | nan => decide
  | infinite negative => cases negative <;> decide
  | finite negative significand exponent =>
    obtain ⟨parts, plain, htext⟩ := exists_literal_finite negative significand exponent
    rw [Number.ofLiteral, ← htext, integral?_of_not_plain plain, htext]
    exact congrArg (Option.map Number.float) exact

/-- Whether the text of a literal's number is read as that number, where it is a floating-point number. -/
def IsExact (literal : Text) : Prop :=
  match Number.ofLiteral literal with
  | some (.float value) => Numeral.readFloat value.text = some value
  | _ => True

instance (literal : Text) : Decidable (IsExact literal) :=
  match h : Number.ofLiteral literal with
  | some (.float value) => decidable_of_iff (Numeral.readFloat value.text = some value) (by rw [IsExact, h])
  | some (.int _) => .isTrue (by rw [IsExact, h]; trivial)
  | none => .isTrue (by rw [IsExact, h]; trivial)

/-- The literal that the number of a literal is written as. -/
def written (literal : Text) : Text :=
  match Number.ofLiteral literal with
  | some (.int value) => Text.ofInt value
  | some (.float value) => floatLiteral value
  | none => literal

variable {literal : Text} {number : Number}

private theorem ofLiteral_int_bounds {value : Int} (h : Number.ofLiteral literal = some (.int value)) :
    integralMin ≤ value ∧ value ≤ integralMax := by
  rw [Number.ofLiteral] at h
  split at h
  · rename_i found
    cases h
    exact integral?_bounds found
  · simp at h

/-- A written literal stands for the same number. -/
theorem ofLiteral_written (exact : IsExact literal) :
    Number.ofLiteral (written literal) = Number.ofLiteral literal := by
  rw [written]
  cases h : Number.ofLiteral literal with
  | none => exact h
  | some number =>
    cases number with
    | int value => exact ofLiteral_ofInt (ofLiteral_int_bounds h).1 (ofLiteral_int_bounds h).2
    | float value =>
      rw [IsExact, h] at exact
      exact ofLiteral_floatLiteral exact

/-- The text that a number is written as. -/
def Number.text : Number → Text
  | .int value => Text.ofInt value
  | .float value => floatLiteral value

/-- Whether a number is no integer outside signed 64 bits. -/
def Number.IsNarrow : Number → Prop
  | .int value => integralMin ≤ value ∧ value ≤ integralMax
  | .float _ => True

theorem written_eq (h : Number.ofLiteral literal = some number) : written literal = number.text := by
  rw [written, h]
  cases number <;> rfl

theorem isNarrow_ofLiteral (h : Number.ofLiteral literal = some number) : number.IsNarrow := by
  cases number with
  | int value => exact ofLiteral_int_bounds h
  | float value => trivial

/-- Numbers are written as constants or as literals that no reader refuses for their length. -/
theorem Number.text_cases (narrow : number.IsNarrow) :
    number.text ∈ constants ∨ ∃ parts : Literal, number.text = parts.text ∧
      (parts.isPlain = true → Reader.digitsOf parts.text ≤ Numeral.digitLimit) := by
  cases number with
  | int value =>
    refine .inr ⟨Literal.ofInt value, (Literal.text_ofInt value).symm, fun _ => ?_⟩
    have digits := (length_ofInt_le narrow.1 narrow.2).2
    rw [Literal.text_ofInt]
    exact (List.length_filter_le _ _).trans (digits.trans (by decide))
  | float value =>
    cases value with
    | nan => exact .inl (show floatLiteral .nan ∈ constants by decide)
    | infinite negative =>
      refine .inl (show floatLiteral (.infinite negative) ∈ constants from ?_)
      cases negative <;> decide
    | finite negative significand exponent =>
      obtain ⟨parts, plain, htext⟩ := exists_literal_finite negative significand exponent
      exact .inr ⟨parts, htext.symm, fun h => absurd h (by rw [plain]; decide)⟩

/-- Whether a text is a constant or a literal. -/
def IsNumber (literal : Text) : Prop := literal ∈ constants ∨ ∃ parts : Literal, literal = parts.text

/-- Whether a text is a constant or a literal, which is plain or not. -/
def IsNumberToken (literal : Text) (plain : Bool) : Prop :=
  plain = false ∧ literal ∈ constants ∨ ∃ parts : Literal, literal = parts.text ∧ plain = parts.isPlain

theorem IsNumberToken.isNumber {plain : Bool} (h : IsNumberToken literal plain) : IsNumber literal :=
  h.imp (·.2) fun ⟨parts, text, _⟩ => ⟨parts, text⟩

theorem IsNumber.exists_ofLiteral (h : IsNumber literal) :
    ∃ number, Number.ofLiteral literal = some number := by
  rcases h with h | ⟨parts, rfl⟩
  · simp only [constants, List.mem_cons, List.not_mem_nil, or_false] at h
    rcases h with rfl | rfl | rfl <;> exact Option.isSome_iff_exists.mp (by decide)
  · obtain ⟨value, hvalue⟩ := parts.exists_readFloat
    rw [Number.ofLiteral]
    split
    · exact ⟨_, rfl⟩
    · exact ⟨_, congrArg (Option.map Number.float) hvalue⟩

end Written

end Specimen.Json
