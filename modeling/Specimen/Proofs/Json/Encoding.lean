import Specimen.Proofs.Json.Rereading
import Specimen.Proofs.Text.Gap

/-! What keeps a value from having a text, or the text from being encoded: a literal that is no number, a name that
cannot be a key or is not written, or a surrogate in a string or in a name. -/
namespace Specimen.Json

section Encodable
open Text (Encodable)

theorem encodable_escaped {c : CodePoint} (h : Text.isSurrogate c = false) : Encodable (escaped c) := by
  by_cases control : c < 0x20
  · exact (show ∀ c < 0x20, Encodable (escaped c) by decide) c control
  · have apart (d : CodePoint) (hd : d < 0x20) : c ≠ d := fun same => control (same ▸ hd)
    rw [escaped]
    split
    · exact Text.encodable_cons.mpr ⟨rfl, Text.encodable_cons.mpr ⟨h, Text.encodable_nil⟩⟩
    · rw [if_neg (apart 0x08 (by decide)), if_neg (apart 0x09 (by decide)), if_neg (apart 0x0A (by decide)),
        if_neg (apart 0x0C (by decide)), if_neg (apart 0x0D (by decide))]
      exact Text.encodable_cons.mpr ⟨h, Text.encodable_nil⟩

end Encodable

namespace Value
open Text (Encodable)
variable {κ : Type} {name : κ → Data}

mutual

/-- The strings in a value, and its names as they are written. -/
def texts (name : κ → Data) : Value κ → List Text
  | .string value => [value]
  | .array items => textsOfItems name items
  | .object members => textsOfMembers name members
  | .null | .bool _ | .number _ => []

def textsOfItems (name : κ → Data) : List (Value κ) → List Text
  | [] => []
  | item :: rest => texts name item ++ textsOfItems name rest

def textsOfMembers (name : κ → Data) : List (κ × Value κ) → List Text
  | [] => []
  | (key, value) :: rest => (name key).nameText :: texts name value ++ textsOfMembers name rest

end

section Error
variable {bad : Failure → Prop}

mutual

/-- Reading data from a value fails on a literal that is no number or on a name that cannot be a key. -/
theorem of_toData_error : ∀ (value : Value κ) {failure : Failure},
    (∀ literal ∈ value.literals, Number.ofLiteral literal = none → bad (.notANumber literal)) →
    (value.EveryObject fun names => ∀ key ∈ names, ∀ typeName, (name key).unhashable? = some typeName →
      bad (.unhashable typeName)) →
    value.toData name = .error failure → bad failure
  | .null, _, _, _, h | .bool _, _, _, _, h | .string _, _, _, _, h => by cases h
  | .number literal, _, literals, _, h => by
    rw [toData] at h
    split at h
    · cases h
    · rename_i none
      cases h
      exact literals literal (List.mem_singleton_self literal) none
  | .array items, _, literals, names, h => of_toDataItems_error items literals names (error_of_map h)
  | .object members, _, literals, names, h =>
    of_toDataEntries_error members literals names.1 names.2 (error_of_map h)

private theorem of_toDataItems_error : ∀ (items : List (Value κ)) {failure : Failure},
    (∀ literal ∈ literalsOfItems items, Number.ofLiteral literal = none → bad (.notANumber literal)) →
    (EveryObjectOfItems (fun names => ∀ key ∈ names, ∀ typeName, (name key).unhashable? = some typeName →
      bad (.unhashable typeName)) items) →
    toDataItems name items = .error failure → bad failure
  | [], _, _, _, h => by cases h
  | item :: rest, _, literals, names, h => by
    obtain ⟨here, behind⟩ := List.forall_mem_append.mp literals
    rw [toDataItems] at h
    rcases error_of_bind h with h | ⟨first, -, h⟩
    · exact of_toData_error item here names.1 h
    · rcases error_of_bind h with h | ⟨more, -, h⟩
      · exact of_toDataItems_error rest behind names.2 h
      · cases h

private theorem of_toDataEntries_error : ∀ (members : List (κ × Value κ)) {failure : Failure},
    (∀ literal ∈ literalsOfMembers members, Number.ofLiteral literal = none → bad (.notANumber literal)) →
    (∀ key ∈ names members, ∀ typeName, (name key).unhashable? = some typeName → bad (.unhashable typeName)) →
    (EveryObjectOfMembers (fun names => ∀ key ∈ names, ∀ typeName, (name key).unhashable? = some typeName →
      bad (.unhashable typeName)) members) →
    toDataEntries name members = .error failure → bad failure
  | [], _, _, _, _, h => by cases h
  | (key, value) :: rest, _, literals, own, names, h => by
    obtain ⟨here, behind⟩ := List.forall_mem_append.mp literals
    obtain ⟨ownKey, ownRest⟩ := List.forall_mem_cons.mp own
    rw [toDataEntries] at h
    rcases error_of_bind h with h | ⟨first, -, h⟩
    · exact of_toData_error value here names.1 h
    · cases unhashable : (name key).unhashable? with
      | some typeName =>
        rw [unhashable] at h
        cases h
        exact ownKey typeName unhashable
      | none =>
        rw [unhashable] at h
        rcases error_of_bind h with h | ⟨more, -, h⟩
        · exact of_toDataEntries_error rest behind ownRest names.2 h
        · cases h

end

end Error

section Passing
variable {fine : Text → Prop} {key good : Data → Prop}

/-- What holds of scalars, and of lists and dictionaries whose parts it holds of. Texts and keys have to be fine. -/
structure IsPassedOn (fine : Text → Prop) (key good : Data → Prop) : Prop where
  none : good .none
  bool : ∀ value, good (.bool value)
  number : ∀ {number : Number}, number.IsNarrow → good number.toData
  str : ∀ {text}, fine text → good (.str text)
  list : ∀ {items}, (∀ item ∈ items, good item) → good (.list items)
  dict : ∀ {entries : List (Data × Data)},
    (∀ entry ∈ entries, (fine entry.1.nameText ∧ key entry.1) ∧ good entry.2) → good (.dict entries)

mutual

/-- What is passed on holds of the data that are read from a value. -/
private theorem IsPassedOn.of_toData (passed : IsPassedOn fine key good) : ∀ (value : Value κ) {data : Data},
    (∀ text ∈ value.texts name, fine text) → (value.EveryObject fun names => ∀ k ∈ names, key (name k)) →
    value.toData name = .ok data → good data
  | .null, _, _, _, h => by
    cases h
    exact passed.none
  | .bool value, _, _, _, h => by
    cases h
    exact passed.bool value
  | .string value, _, texts, _, h => by
    cases h
    exact passed.str (texts value (List.mem_singleton_self value))
  | .number literal, _, _, _, h => by
    rw [toData] at h
    split at h
    · rename_i number found
      cases h
      exact passed.number (isNarrow_ofLiteral found)
    · cases h
  | .array items, _, texts, keys, h => by
    obtain ⟨data, hdata, rfl⟩ := ok_of_map h
    exact passed.list (passed.of_toDataItems items texts keys hdata)
  | .object members, _, texts, keys, h => by
    obtain ⟨entries, hentries, rfl⟩ := ok_of_map h
    exact passed.dict (Data.forall_putEntries (p := fun entry => fine entry.nameText ∧ key entry) (q := good)
      (passed.of_toDataEntries members texts keys.1 keys.2 hentries))

private theorem IsPassedOn.of_toDataItems (passed : IsPassedOn fine key good) : ∀ (items : List (Value κ))
    {data : List Data}, (∀ text ∈ textsOfItems name items, fine text) →
    EveryObjectOfItems (fun names => ∀ k ∈ names, key (name k)) items → toDataItems name items = .ok data →
    ∀ item ∈ data, good item
  | [], _, _, _, h => by
    cases h
    exact nofun
  | item :: rest, _, texts, keys, h => by
    obtain ⟨here, behind⟩ := List.forall_mem_append.mp texts
    obtain ⟨first, more, hfirst, hmore, rfl⟩ := ok_of_toDataItems h
    exact List.forall_mem_cons.mpr ⟨passed.of_toData item here keys.1 hfirst,
      passed.of_toDataItems rest behind keys.2 hmore⟩

private theorem IsPassedOn.of_toDataEntries (passed : IsPassedOn fine key good) :
    ∀ (members : List (κ × Value κ)) {entries : List (Data × Data)},
    (∀ text ∈ textsOfMembers name members, fine text) → (∀ k ∈ names members, key (name k)) →
    EveryObjectOfMembers (fun names => ∀ k ∈ names, key (name k)) members →
    toDataEntries name members = .ok entries →
    ∀ entry ∈ entries, (fine entry.1.nameText ∧ key entry.1) ∧ good entry.2
  | [], _, _, _, _, h => by
    cases h
    exact nofun
  | (k, value) :: rest, _, texts, own, keys, h => by
    obtain ⟨here, behind⟩ := List.forall_mem_append.mp texts
    obtain ⟨title, inner⟩ := List.forall_mem_cons.mp here
    obtain ⟨ownKey, ownRest⟩ := List.forall_mem_cons.mp own
    obtain ⟨entry, more, hentry, hmore, rfl⟩ := ok_of_toDataEntries h
    exact List.forall_mem_cons.mpr
      ⟨⟨hentry.key ▸ ⟨title, ownKey⟩, passed.of_toData value inner keys.1 hentry.value⟩,
        passed.of_toDataEntries rest behind ownRest keys.2 hmore⟩

end

end Passing

section Rendering
variable {formatting : Formatting} {bad : Failure → Prop}

private theorem of_renderItems_error {items : List Data} {level : Nat} {failure : Failure}
    (each : ∀ item ∈ items, ∀ level failure, renderAt formatting level item = .error failure → bad failure)
    (h : renderItems formatting level items = .error failure) : bad failure := by
  induction items with
  | nil => cases h
  | cons item rest ih =>
    obtain ⟨here, behind⟩ := List.forall_mem_cons.mp each
    rcases error_of_bind h with h | ⟨first, -, h⟩
    · exact here level failure h
    · rcases error_of_bind h with h | ⟨more, -, h⟩
      · exact ih behind h
      · cases h

private theorem of_renderEntries_error {entries : List (Data × Data)} {level : Nat} {failure : Failure}
    (each : ∀ entry ∈ entries, (True ∧ ∀ failure, nameOf entry.1 = .error failure → bad failure) ∧
      ∀ level failure, renderAt formatting level entry.2 = .error failure → bad failure)
    (h : renderEntries formatting level entries = .error failure) : bad failure := by
  induction entries with
  | nil => cases h
  | cons entry rest ih =>
    obtain ⟨⟨title, value⟩, behind⟩ := List.forall_mem_cons.mp each
    rcases error_of_bind h with h | ⟨name, -, h⟩
    · exact title.2 failure h
    · rcases error_of_bind h with h | ⟨first, -, h⟩
      · exact value level failure h
      · rcases error_of_bind h with h | ⟨more, -, h⟩
        · exact ih behind h
        · cases h

/-- What is read from a value has no text only because of a name that is not written. -/
theorem of_renderData_error (bad : Failure → Prop) (value : Value κ) {data : Data} {failure : Failure}
    (names : value.EveryObject fun names => ∀ key ∈ names, ∀ failure,
      nameOf (name key) = .error failure → bad failure)
    (read : value.toData name = .ok data) (h : renderData formatting data = .error failure) : bad failure := by
  have passed : IsPassedOn (fun _ => True) (fun key => ∀ failure, nameOf key = .error failure → bad failure)
      fun data => ∀ level failure, renderAt formatting level data = .error failure → bad failure :=
    { none := nofun
      bool := nofun
      number := by
        intro number narrow level failure h
        cases number with
        | int value => cases (integerText_of_isNarrow narrow).symm.trans h
        | float value => cases h
      str := nofun
      list := fun each level failure h => of_renderItems_error each (error_of_map h)
      dict := fun each level failure h => of_renderEntries_error each (error_of_map h) }
  exact passed.of_toData value (fun _ _ => trivial) names read 0 failure h

/-- What is read from a document has a text. -/
theorem exists_renderData_str (formatting : Formatting) {document : Document} {data : Data}
    (read : document.toData .str = .ok data) : ∃ text, renderData formatting data = .ok text := by
  cases h : renderData formatting data with
  | ok text => exact ⟨text, rfl⟩
  | error failure =>
    exact (of_renderData_error (fun _ => False) document (everyObject_of_forall (fun _ _ _ => nofun) document)
      read h).elim

end Rendering

end Value

end Specimen.Json
