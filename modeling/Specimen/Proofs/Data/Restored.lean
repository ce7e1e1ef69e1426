import Specimen.Proofs.Json.Rereading

/-! Plain data made into a document and back. All of it returns as it was, but for the integers outside signed 64
bits, which return as the floating-point numbers nearest to them. -/
namespace Specimen

namespace Json.Literal
open Numeral (isDigit)

/-- Digits after a sign are no name of a number. -/
private theorem map_asciiLower_digits {digits : Text} (h : IsDigits digits) :
    digits.map Numeral.asciiLower = digits ∧ digits ∉ ([("inf" : Text), "infinity", "nan"] : List Text) := by
  refine ⟨(List.map_congr_left fun c hc => if_neg ?_).trans (List.map_id digits), fun named => ?_⟩
  · have := h.digit c hc
    simp only [isDigit, Bool.and_eq_true, decide_eq_true_eq, CodePoint] at this ⊢
    omega
  · have letters : ∀ name ∈ ([("inf" : Text), "infinity", "nan"] : List Text), name.all isDigit = false := by
      decide
    exact absurd (letters digits named) (by simpa using h.digit)

/-- Read as a floating-point number, an integer's digits denote the number nearest to it. -/
private theorem readFloat_ofInt (value : Int) :
    Numeral.readFloat (Text.ofInt value) = some (.ofDecimal (value < 0) value.natAbs 0) := by
  have digits := isDigits_ofNat value.natAbs
  obtain ⟨same, unnamed⟩ := map_asciiLower_digits digits
  have signed : Numeral.takeSign (Text.ofInt value) = (decide (value < 0), Text.ofNat value.natAbs) := by
    rw [← text_ofInt, takeSign_text]
    cases value <;> simp [ofInt, Int.negSucc_lt_zero]
  have decimal : Numeral.readDecimal (value < 0) (Text.ofNat value.natAbs) =
      some (.ofDecimal (value < 0) value.natAbs 0) := by
    have stop : ∀ c ∈ ([] : Text).head?, isDigit c = false := by simp
    have taken := takeWhile_digits digits.digit stop
    have dropped := dropWhile_digits digits.digit stop
    rw [List.append_nil] at taken dropped
    simp [Numeral.readDecimal, taken, dropped, Text.ofNat_ne_nil, Numeral.readExponent, Text.digitsValue_ofNat]
  have numeric := text_ofInt value ▸ (ofInt value).isNumeric
  simp only [List.mem_cons, List.not_mem_nil, or_false, not_or] at unnamed
  rw [Numeral.readFloat, withoutUnderscores_numeric numeric]
  simp only [signed, same, unnamed, decide_false, Bool.or_self, Bool.false_eq_true, if_false, decimal]

end Json.Literal

namespace Data
open Json (Number integralMin integralMax)

mutual

/-- Whether plain data are a tree of lists and dictionaries, whose keys are texts, over absent values, truth values,
integers that can be written, numbers whose text is read as them, and texts. -/
def IsTree : Data → Prop
  | .none | .bool _ | .str _ => True
  | .int value => IsPrintable value
  | .float value => Numeral.readFloat value.text = some value
  | .list items => AreTrees items
  | .dict entries => (∃ names : List Text, entries.map (·.1) = names.map .str ∧ names.Nodup) ∧ HaveTrees entries
  | .tuple _ | .set _ | .bytes | .document _ => False

def AreTrees : List Data → Prop
  | [] => True
  | item :: rest => IsTree item ∧ AreTrees rest

def HaveTrees : List (Data × Data) → Prop
  | [] => True
  | (_, value) :: rest => IsTree value ∧ HaveTrees rest

end

mutual

/-- Plain data with the integers outside signed 64 bits rounded to the nearest floating-point numbers. -/
def rounded : Data → Data
  | .int value => if integralMin ≤ value ∧ value ≤ integralMax then .int value
    else .float (.ofDecimal (value < 0) value.natAbs 0)
  | .list items => .list (roundedItems items)
  | .dict entries => .dict (roundedEntries entries)
  | data => data

def roundedItems : List Data → List Data
  | [] => []
  | item :: rest => rounded item :: roundedItems rest

def roundedEntries : List (Data × Data) → List (Data × Data)
  | [] => []
  | (key, value) :: rest => (key, rounded value) :: roundedEntries rest

end

/-- Rounding keeps the keys and their order. -/
private theorem keys_roundedEntries (entries : List (Data × Data)) :
    (roundedEntries entries).map (·.1) = entries.map (·.1) := by
  induction entries with
  | nil => rfl
  | cons entry rest ih => exact congrArg (entry.1 :: ·) ih

mutual

/-- Data without integers outside signed 64 bits are not rounded, and no others are as they were. -/
private theorem rounded_eq_self_iff : ∀ {data : Data}, data.IsTree → (data.rounded = data ↔ data.IsNarrow)
  | .none, _ | .bool _, _ | .str _, _ | .float _, _ => by simp [rounded, IsNarrow]
  | .int value, _ => by
    rw [rounded, IsNarrow, Number.IsNarrow]
    split
    · rename_i narrow
      simp [narrow]
    · rename_i wide
      simp [wide]
  | .list items, h => by rw [rounded, IsNarrow, Data.list.injEq, roundedItems_eq_self_iff h]
  | .dict entries, h => by rw [rounded, IsNarrow, Data.dict.injEq, roundedEntries_eq_self_iff h.2]
  | .tuple _, h | .set _, h | .bytes, h | .document _, h => h.elim

private theorem roundedItems_eq_self_iff : ∀ {items : List Data}, AreTrees items →
    (roundedItems items = items ↔ AreNarrow items)
  | [], _ => by simp [roundedItems, AreNarrow]
  | item :: rest, h => by
    rw [roundedItems, AreNarrow, List.cons.injEq, rounded_eq_self_iff h.1, roundedItems_eq_self_iff h.2]

private theorem roundedEntries_eq_self_iff : ∀ {entries : List (Data × Data)}, HaveTrees entries →
    (roundedEntries entries = entries ↔ HaveNarrow entries)
  | [], _ => by simp [roundedEntries, HaveNarrow]
  | (key, value) :: rest, h => by
    rw [roundedEntries, HaveNarrow, List.cons.injEq, Prod.mk.injEq, rounded_eq_self_iff h.1,
      roundedEntries_eq_self_iff h.2]
    simp

end

/-- An integer that can be written comes back as it is or rounded. -/
private theorem ofLiteral_ofInt_rounded {value : Int} (printable : IsPrintable value) :
    (Number.ofLiteral (Text.ofInt value)).map Number.toData = some (rounded (.int value)) := by
  rw [rounded]
  split
  · rename_i narrow
    rw [Json.ofLiteral_ofInt narrow.1 narrow.2]
    rfl
  · rename_i wide
    have outside : Json.integral? (Text.ofInt value) = Option.none := by
      rw [Json.integral?, Json.Literal.readInteger_ofInt printable]
      simpa using fun _ low => not_le.mp (not_and.mp wide low)
    rw [Number.ofLiteral, outside, Json.Literal.readFloat_ofInt]
    rfl

/-- A floating-point number comes back from its text, be it finite or not. -/
private theorem ofLiteral_text {value : Binary64} (exact : Numeral.readFloat value.text = some value) :
    Number.ofLiteral value.text = some (.float value) := by
  cases value with
  | nan => decide
  | infinite negative => cases negative <;> decide
  | finite negative significand exponent => exact Json.ofLiteral_floatLiteral exact

private theorem ofEntries_rounded {entries : List (Data × Data)} {names : List Text}
    (keys : entries.map (·.1) = names.map .str)
    (distinct : names.Nodup) : ofEntries (roundedEntries entries) = .dict (roundedEntries entries) := by
  have apart : AreApart ((roundedEntries entries).map (·.1)) := by
    rw [keys_roundedEntries, keys]
    exact areApart_str.mpr distinct
  exact congrArg Data.dict (putEntries_of_areApart apart)

mutual

/-- A tree can be made into a document, whose plain data are the tree with its integers rounded. -/
theorem restored : ∀ {data : Data}, data.IsTree →
    ∃ document, data.toDocument = .ok document ∧ document.toData .str = .ok data.rounded
  | .none, _ | .bool _, _ | .str _, _ => ⟨_, rfl, rfl⟩
  | .int value, h => by
    obtain ⟨number, hnumber, hdata⟩ := Option.map_eq_some_iff.mp (ofLiteral_ofInt_rounded h)
    refine ⟨.number (Text.ofInt value), ?_, ?_⟩
    · rw [toDocument, integerText, if_pos (show IsPrintable value from h)]
      rfl
    · rw [Json.Value.toData, hnumber]
      exact congrArg Except.ok hdata
  | .float value, h => ⟨_, rfl, by rw [Json.Value.toData, ofLiteral_text h]; rfl⟩
  | .list items, h => by
    obtain ⟨documents, hto, hfrom⟩ := restored_items h
    exact ⟨_, by rw [toDocument, hto]; rfl, by rw [Json.Value.toData, hfrom]; rfl⟩
  | .dict entries, ⟨⟨names, keys, distinct⟩, h⟩ => by
    obtain ⟨members, hto, hfrom⟩ := restored_entries keys h
    refine ⟨_, by rw [toDocument, hto]; rfl, ?_⟩
    rw [Json.Value.toData, hfrom]
    exact congrArg Except.ok (ofEntries_rounded keys distinct)
  | .tuple _, h | .set _, h | .bytes, h | .document _, h => h.elim

private theorem restored_items : ∀ {items : List Data}, AreTrees items →
    ∃ documents, toDocuments items = .ok documents ∧
      Json.Value.toDataItems Data.str documents = .ok (roundedItems items)
  | [], _ => ⟨[], rfl, rfl⟩
  | item :: rest, h => by
    obtain ⟨document, hto, hfrom⟩ := restored h.1
    obtain ⟨documents, hrest, hmore⟩ := restored_items h.2
    exact ⟨document :: documents, by rw [toDocuments, hto, hrest]; rfl,
      by rw [Json.Value.toDataItems, hfrom, hmore]; rfl⟩

private theorem restored_entries : ∀ {entries : List (Data × Data)} {names : List Text},
    entries.map (·.1) = names.map .str → HaveTrees entries →
    ∃ members, toMembers entries = .ok members ∧
      Json.Value.toDataEntries Data.str members = .ok (roundedEntries entries)
  | [], _, _, _ => ⟨[], rfl, rfl⟩
  | (_, value) :: rest, [], keys, _ => by cases keys
  | (key, value) :: rest, name :: names, keys, h => by
    obtain ⟨rfl, others⟩ := List.cons.inj keys
    obtain ⟨document, hto, hfrom⟩ := restored h.1
    obtain ⟨members, hrest, hmore⟩ := restored_entries others h.2
    exact ⟨(name, document) :: members, by rw [toMembers, hto, hrest]; rfl,
      by rw [Json.Value.toDataEntries, hfrom, hmore]; rfl⟩

end

/-- Every tree can be made into a document, and the document gives back the tree, with its order and with integers
told from other numbers, but for the integers outside signed 64 bits: each comes back as the floating-point number
nearest to it. So what comes back is the tree itself exactly if it has none of these. -/
theorem toData_toDocument {data : Data} (tree : data.IsTree) :
    ∃ document, data.toDocument = .ok document ∧ document.toData .str = .ok data.rounded ∧
      (document.toData .str = .ok data ↔ data.IsNarrow) := by
  obtain ⟨document, hto, hfrom⟩ := restored tree
  refine ⟨document, hto, hfrom, ?_⟩
  rw [hfrom, Except.ok.injEq]
  exact rounded_eq_self_iff tree

theorem toData_toDocument_nested :
    let numbers : List Binary64 := [.finite true (2 ^ 52) (-53), .nan, .infinite true, .zero true]
    let inner : List Data := [.bool true, .int (-1), .int (2 ^ 63)] ++ numbers.map .float
    let data : Data := .dict [(.str "b", .list inner), (.str "a", .dict [(.str "", .none), (.str "b", .str "c")])]
    data.IsTree ∧ ∃ document, data.toDocument = .ok document ∧ document.toData .str = .ok data.rounded ∧
      (document.toData .str = .ok data ↔ data.IsNarrow) := by
  intro numbers inner data
  have printable : IsPrintable (-1) ∧ IsPrintable (2 ^ 63) := by decide +kernel
  have exact : ∀ value ∈ numbers, Numeral.readFloat value.text = some value := by decide +kernel
  simp only [numbers, List.forall_mem_cons] at exact
  obtain ⟨half, nan, infinite, zero, -⟩ := exact
  have tree : data.IsTree := ⟨⟨["b", "a"], rfl, by decide⟩,
    ⟨trivial, printable.1, printable.2, half, nan, infinite, zero, trivial⟩,
    ⟨⟨["", "b"], rfl, by decide⟩, trivial, trivial, trivial⟩, trivial⟩
  exact ⟨tree, toData_toDocument tree⟩

/-- An integer just outside signed 64 bits comes back as a floating-point number, which is not even equal to it. -/
theorem toData_toDocument_wide :
    (Data.int (2 ^ 63 + 1)).IsTree ∧ (Data.int (2 ^ 63 + 1)).toDocument = .ok (.number "9223372036854775809") ∧
      Json.Value.toData Data.str (.number "9223372036854775809") = .ok (.float (.finite false (2 ^ 52) 11)) ∧
      Binary64.toInt? (.finite false (2 ^ 52) 11) = some (2 ^ 63) ∧
      ¬ ∀ data : Data, data.IsTree → ∃ document, data.toDocument = .ok document ∧
        document.toData .str = .ok data := by
  have printable : IsPrintable (2 ^ 63 + 1) := by decide +kernel
  have read : Number.ofLiteral "9223372036854775809" = some (.float (.finite false (2 ^ 52) 11)) := by decide +kernel
  have back : Json.Value.toData Data.str (.number "9223372036854775809") =
      .ok (.float (.finite false (2 ^ 52) 11)) := by
    rw [Json.Value.toData, read]
    rfl
  refine ⟨printable, congrArg (Except.ok ∘ Json.Value.number) (by decide +kernel), back, by decide +kernel,
    fun claim => ?_⟩
  obtain ⟨document, hto, hfrom⟩ := claim (.int (2 ^ 63 + 1)) printable
  have same : document = .number "9223372036854775809" := by
    rw [← Except.ok.inj hto]
    exact congrArg Json.Value.number (by decide +kernel)
  rw [same, back] at hfrom
  cases hfrom

end Data

end Specimen
