import Specimen.Text.Casing
import Specimen.Text.Numeral
import Specimen.Text.Utf8

/-! Gaps: blocks of code points that hold no letter and no number and that no change of case leads
into. The delimiters from colon to question mark are one, the surrogates another. -/
namespace Specimen.Text

/-- Whether a code point lies below or above a block. -/
def Misses (low high c : Nat) : Prop := c < low ∨ high < c

instance (low high c : Nat) : Decidable (Misses low high c) :=
  inferInstanceAs (Decidable (_ ∨ _))

section Tables
variable {low high c : Nat}

private theorem misses_of_tableContains {table : List Stride}
    (clear : ∀ run ∈ table, run.last < low ∨ high < run.first)
    (h : Stride.tableContains table c = true) : Misses low high c := by
  induction table with
  | nil => simp [Stride.tableContains] at h
  | cons run rest ih =>
    rw [Stride.tableContains] at h
    split at h
    · cases h
    · rcases (Bool.or_eq_true _ _).mp h with hin | hrest
      · simp only [Stride.contains, Bool.and_eq_true, decide_eq_true_eq] at hin
        have := clear run List.mem_cons_self
        simp only [Misses]
        omega
      · exact ih (fun other ho => clear other (List.mem_cons_of_mem run ho)) hrest

theorem misses_apply {shifts : List ShiftRun} (positive : 0 < low)
    (clear : ∀ shift ∈ shifts,
      shift.run.last + shift.offset < (low : Int) ∨ (high : Int) < shift.run.first + shift.offset)
    (h : Misses low high c) : Misses low high (ShiftRun.apply shifts c) := by
  induction shifts with
  | nil => exact h
  | cons shift rest ih =>
    rw [ShiftRun.apply]
    split
    · exact h
    · split
      · rename_i hin
        simp only [Stride.contains, Bool.and_eq_true, decide_eq_true_eq] at hin
        have := clear shift List.mem_cons_self
        simp only [Misses]
        omega
      · exact ih fun other ho => clear other (List.mem_cons_of_mem shift ho)

end Tables

/-- A block without letters and numbers, before and after every change of case. -/
structure Gap (low high : Nat) : Prop where
  positive : 0 < low
  letters : ∀ run ∈ letterTable, run.last < low ∨ high < run.first
  numerals : ∀ run ∈ numeralTable, run.last < low ∨ high < run.first
  lowered : ∀ shift ∈ lowerShifts,
    shift.run.last + shift.offset < (low : Int) ∨ (high : Int) < shift.run.first + shift.offset
  uppered : ∀ shift ∈ upperShifts,
    shift.run.last + shift.offset < (low : Int) ∨ (high : Int) < shift.run.first + shift.offset
  expanded : ∀ expansion ∈ upperExpansions, ∀ c ∈ expansion.2, Misses low high c
  special : ∀ c ∈ [0x3C2, 0x3C3, 0x69, 0x307], Misses low high c

theorem gap_delimiters : Gap 0x3A 0x3F := by
  constructor <;> decide +kernel

theorem gap_surrogates : Gap 0xD800 0xDFFF := by
  constructor <;> decide +kernel

theorem gap_controls : Gap 0x1 0x2F := by
  constructor <;> decide +kernel

theorem gap_latinControls : Gap 0x80 0x9F := by
  constructor <;> decide +kernel

theorem gap_separators : Gap 0x2028 0x2029 := by
  constructor <;> decide +kernel

theorem gap_underscore : Gap 0x5F 0x5F := by
  constructor <;> decide +kernel

namespace Gap
variable {low high : Nat} (gap : Gap low high)
include gap

theorem isLetter {c : CodePoint} (h : isLetter c = true) : Misses low high c :=
  misses_of_tableContains gap.letters h

theorem isAlphanumeric {c : CodePoint} (h : isAlphanumeric c = true) : Misses low high c := by
  rcases (Bool.or_eq_true _ _).mp h with hl | hn
  · exact gap.isLetter hl
  · exact misses_of_tableContains gap.numerals hn

theorem upperOf {c : CodePoint} (h : Misses low high c) : ∀ u ∈ upperOf c, Misses low high u := by
  intro u hu
  rw [Text.upperOf] at hu
  split at hu
  · rename_i hf
    exact gap.expanded _ (List.mem_of_find?_eq_some hf) u hu
  · rw [List.mem_singleton.mp hu]
    exact misses_apply gap.positive gap.uppered h

theorem lowerAt {before after : Text} {c : CodePoint} (h : Misses low high c) :
    ∀ l ∈ lowerAt before c after, Misses low high l := by
  intro l hl
  rw [Text.lowerAt] at hl
  split at hl
  · split at hl <;> exact gap.special l (by simp_all)
  · split at hl
    · exact gap.special l (by simp_all)
    · rw [List.mem_singleton.mp hl]
      exact misses_apply gap.positive gap.lowered h

theorem lower {text : Text} (h : ∀ c ∈ text, Misses low high c) :
    ∀ l ∈ lower text, Misses low high l := by
  rw [Text.lower]
  generalize ([] : Text) = before
  induction text generalizing before with
  | nil => simp [lowerFrom]
  | cons c rest ih =>
    intro l hl
    rcases List.mem_append.mp hl with hc | hr
    · exact gap.lowerAt (h c List.mem_cons_self) l hc
    · exact ih (fun d hd => h d (List.mem_cons_of_mem c hd)) _ l hr

end Gap

/-- A text without surrogates. -/
def Encodable (text : Text) : Prop := ∀ c ∈ text, isSurrogate c = false

instance (text : Text) : Decidable (Encodable text) :=
  inferInstanceAs (Decidable (∀ c ∈ text, isSurrogate c = false))

theorem encodable_iff {text : Text} : Encodable text ↔ ∀ c ∈ text, Misses 0xD800 0xDFFF c := by
  refine forall_congr' fun c => forall_congr' fun _ => ?_
  rw [isSurrogate, Bool.and_eq_false_iff, decide_eq_false_iff_not, decide_eq_false_iff_not]
  simp only [Misses, Nat.not_le]

section Parts
variable {text rest : Text} {c : CodePoint}

@[simp] theorem encodable_nil : Encodable [] := nofun

@[simp] theorem encodable_cons : Encodable (c :: rest) ↔ isSurrogate c = false ∧ Encodable rest :=
  List.forall_mem_cons

@[simp] theorem encodable_append : Encodable (text ++ rest) ↔ Encodable text ∧ Encodable rest :=
  List.forall_mem_append

/-- A string of the source has no surrogates. -/
@[simp] theorem encodable_ofString (s : String) : Encodable (ofString s) := by
  refine encodable_iff.mpr fun c hc => ?_
  obtain ⟨char, -, rfl⟩ := List.mem_map.mp hc
  exact char.valid.imp_right And.left

theorem encodable_flatMap {f : CodePoint → Text} :
    Encodable (text.flatMap f) ↔ ∀ c ∈ text, Encodable (f c) := by
  simp only [Encodable, List.mem_flatMap, forall_exists_index, and_imp]
  exact ⟨fun h c hc d hd => h d c hc hd, fun h d c hc hd => h c hc d hd⟩

/-- What holds of the characters of a separator holds of those of a text of parts when it does of those of each. -/
theorem forall_mem_intercalate {p : CodePoint → Prop} {separator : Text} (h : ∀ c ∈ separator, p c) {parts : List Text} :
    (∀ c ∈ separator.intercalate parts, p c) ↔ ∀ part ∈ parts, ∀ c ∈ part, p c := by
  induction parts with
  | nil => simp
  | cons part others ih =>
    cases others with
    | nil => simp
    | cons next others =>
      rw [List.intercalate_cons_cons, List.forall_mem_append, List.forall_mem_append, ih, and_iff_left h]
      exact (List.forall_mem_cons (p := fun part : Text => ∀ c ∈ part, p c)).symm

/-- A text of parts can be encoded when each of them can. -/
theorem encodable_intercalate {separator : Text} (h : Encodable separator) {parts : List Text} :
    Encodable (separator.intercalate parts) ↔ ∀ part ∈ parts, Encodable part :=
  forall_mem_intercalate h

end Parts

/-- Encoding fails on surrogates only. -/
theorem encodeUtf8_ok {text : Text} (h : Encodable text) :
    ∃ bytes, encodeUtf8 text = .ok bytes := by
  rw [encodeUtf8]
  generalize 0 = position
  induction text generalizing position with
  | nil => exact ⟨[], rfl⟩
  | cons c rest ih =>
    obtain ⟨bytes, hb⟩ := ih (fun d hd => h d (List.mem_cons_of_mem c hd)) (position + 1)
    rw [encodeFrom, if_neg (by simp [h c List.mem_cons_self]), hb]
    exact ⟨_, rfl⟩

/-- Encoding succeeds without surrogates only. -/
theorem encodable_of_encodeUtf8 {text : Text} {bytes : List Nat} (h : encodeUtf8 text = .ok bytes) :
    Encodable text := by
  rw [encodeUtf8] at h
  generalize 0 = position at h
  induction text generalizing position bytes with
  | nil => exact nofun
  | cons c rest ih =>
    rw [encodeFrom] at h
    split at h
    · cases h
    · rename_i hc
      cases hrest : encodeFrom (position + 1) rest with
      | error _ =>
        rw [hrest] at h
        cases h
      | ok more => exact List.forall_mem_cons.mpr ⟨Bool.eq_false_iff.mpr hc, ih _ hrest⟩

theorem checkEncodable_ok {text : Text} (h : Encodable text) : checkEncodable text = .ok () := by
  obtain ⟨bytes, hb⟩ := encodeUtf8_ok h
  rw [checkEncodable, hb]
  rfl

/-- A check that fails tells of a surrogate. -/
theorem exists_checkEncodable_error {text : Text} (h : ¬ Encodable text) :
    ∃ cause, checkEncodable text = .error cause := by
  rw [checkEncodable]
  cases hb : encodeUtf8 text with
  | error cause => exact ⟨cause, rfl⟩
  | ok bytes => exact absurd (encodable_of_encodeUtf8 hb) h

end Specimen.Text
