import Specimen.Proofs.Data.Entries
import Specimen.Proofs.Json.Decoder
import Mathlib.Data.List.TakeWhile

/-! The text of plain data. Whatever its layout, it is read as the document that the data stand for, and texts
are rendered only of data that readers take. -/
namespace Specimen

namespace Data
open Json (Document Number nameOf floatLiteral)

/-- The name that a key is written as; nothing for one that is not written. -/
def nameText (key : Data) : Text := (nameOf key).toOption.getD []

theorem nameText_eq {key : Data} {name : Text} (h : nameOf key = .ok name) : key.nameText = name := by
  rw [nameText, h]
  rfl

mutual

/-- The document that the text of plain data is read as. -/
def reread : Data → Document
  | .none => .null
  | .bool value => .bool value
  | .int value => .number (Text.ofInt value)
  | .float value => .number (floatLiteral value)
  | .str value => .string value
  | .list items => .array (rereadItems items)
  | .tuple items => .array (rereadItems items)
  | .dict entries => .object (rereadEntries entries)
  | .set _ | .bytes | .document _ => .null

def rereadItems : List Data → List Document
  | [] => []
  | item :: rest => reread item :: rereadItems rest

def rereadEntries : List (Data × Data) → List (Text × Document)
  | [] => []
  | (key, value) :: rest => (key.nameText, reread value) :: rereadEntries rest

end

mutual

/-- Whether no integer among plain data is outside signed 64 bits. -/
def IsNarrow : Data → Prop
  | .int value => (Number.int value).IsNarrow
  | .list items => AreNarrow items
  | .tuple items => AreNarrow items
  | .dict entries => HaveNarrow entries
  | _ => True

def AreNarrow : List Data → Prop
  | [] => True
  | item :: rest => IsNarrow item ∧ AreNarrow rest

def HaveNarrow : List (Data × Data) → Prop
  | [] => True
  | (_, value) :: rest => IsNarrow value ∧ HaveNarrow rest

end

mutual

/-- Whether plain data have a text: integers have few enough digits, keys can be written as names, and nothing but
values of JSON is among them. -/
def IsWritable : Data → Prop
  | .int value => IsPrintable value
  | .list items => AreWritable items
  | .tuple items => AreWritable items
  | .dict entries => HaveWritable entries
  | .set _ | .bytes | .document _ => False
  | _ => True

def AreWritable : List Data → Prop
  | [] => True
  | item :: rest => IsWritable item ∧ AreWritable rest

def HaveWritable : List (Data × Data) → Prop
  | [] => True
  | (key, value) :: rest => (∃ name, nameOf key = .ok name) ∧ IsWritable value ∧ HaveWritable rest

end

theorem rereadEntries_eq (entries : List (Data × Data)) :
    rereadEntries entries = entries.map fun entry => (entry.1.nameText, entry.2.reread) := by
  induction entries with
  | nil => rfl
  | cons entry rest ih => exact congrArg (_ :: ·) ih

theorem haveWritable_iff {entries : List (Data × Data)} :
    HaveWritable entries ↔ ∀ entry ∈ entries, (∃ name, nameOf entry.1 = .ok name) ∧ entry.2.IsWritable := by
  induction entries with
  | nil => simp [HaveWritable]
  | cons entry rest ih => rw [HaveWritable, ih, List.forall_mem_cons, and_assoc]

private theorem haveNarrow_iff {entries : List (Data × Data)} :
    HaveNarrow entries ↔ ∀ entry ∈ entries, entry.2.IsNarrow := by
  induction entries with
  | nil => simp [HaveNarrow]
  | cons entry rest ih => rw [HaveNarrow, ih, List.forall_mem_cons]

end Data

namespace Json

variable {κ : Type} {limits : ReadLimits}

section Data
open Value

/-- Whether an entry is read from a member. -/
structure EntryOf (name : κ → Data) (member : κ × Value κ) (entry : Data × Data) : Prop where
  key : entry.1 = name member.1
  hashable : (name member.1).unhashable? = none
  value : member.2.toData name = .ok entry.2

theorem ok_of_toDataItems {name : κ → Data} {item : Value κ} {rest : List (Value κ)} {data : List Data}
    (h : toDataItems name (item :: rest) = .ok data) :
    ∃ first more, item.toData name = .ok first ∧ toDataItems name rest = .ok more ∧ data = first :: more := by
  rw [toDataItems] at h
  obtain ⟨first, hfirst, h⟩ := ok_of_bind h
  obtain ⟨more, hmore, h⟩ := ok_of_bind h
  cases h
  exact ⟨first, more, hfirst, hmore, rfl⟩

theorem ok_of_toDataEntries {name : κ → Data} {member : κ × Value κ} {rest : List (κ × Value κ)}
    {entries : List (Data × Data)} (h : toDataEntries name (member :: rest) = .ok entries) :
    ∃ entry more, EntryOf name member entry ∧ toDataEntries name rest = .ok more ∧ entries = entry :: more := by
  rw [toDataEntries] at h
  obtain ⟨first, hfirst, h⟩ := ok_of_bind h
  cases hashable : (name member.1).unhashable? with
  | some typeName =>
    rw [hashable] at h
    cases h
  | none =>
    rw [hashable] at h
    obtain ⟨more, hmore, h⟩ := ok_of_bind h
    cases h
    exact ⟨(name member.1, first), more, ⟨rfl, hashable, hfirst⟩, hmore, rfl⟩

theorem keys_toDataEntries {name : κ → Data} {members : List (κ × Value κ)} {entries : List (Data × Data)}
    (h : toDataEntries name members = .ok entries) : entries.map (·.1) = (names members).map name := by
  induction members generalizing entries with
  | nil =>
    cases h
    rfl
  | cons member rest ih =>
    obtain ⟨entry, more, hentry, hmore, rfl⟩ := ok_of_toDataEntries h
    rw [List.map_cons, ih hmore, hentry.key]
    rfl

mutual

/-- Data that are read from a value are narrow, and their text is no deeper than the value. -/
theorem isNarrow_toData {name : κ → Data} : ∀ (value : Value κ) (data : Data), value.toData name = .ok data →
    data.IsNarrow ∧ data.reread.depth ≤ value.depth
  | .null, _, h | .bool _, _, h | .string _, _, h => by
    cases h
    exact ⟨trivial, Nat.zero_le _⟩
  | .number literal, _, h => by
    rw [toData] at h
    split at h
    · rename_i number found
      cases h
      have narrow := isNarrow_ofLiteral found
      cases number with
      | int value => exact ⟨narrow, Nat.zero_le _⟩
      | float value => exact ⟨trivial, Nat.zero_le _⟩
    · cases h
  | .array items, _, h => by
    obtain ⟨data, hdata, rfl⟩ := ok_of_map h
    obtain ⟨narrow, deep⟩ := areNarrow_toDataItems items data hdata
    exact ⟨narrow, Nat.add_le_add_left deep 1⟩
  | .object members, _, h => by
    obtain ⟨entries, hentries, rfl⟩ := ok_of_map h
    have each := isNarrow_toDataEntries members entries hentries
    have kept := Data.forall_putEntries (p := fun _ => True)
      (q := fun value => value.IsNarrow ∧ value.reread.depth ≤ depthOfMembers members)
      fun entry he => ⟨trivial, each entry he⟩
    refine ⟨Data.haveNarrow_iff.mpr fun entry he => (kept entry he).2.1, ?_⟩
    rw [Data.ofEntries, Data.reread, depth, depth, Data.rereadEntries_eq]
    exact Nat.add_le_add_left
      (depthOfMembers_le.mpr (List.forall_mem_map.mpr fun entry he => (kept entry he).2.2)) 1

private theorem areNarrow_toDataItems {name : κ → Data} : ∀ (items : List (Value κ)) (data : List Data),
    toDataItems name items = .ok data →
    Data.AreNarrow data ∧ depthOfItems (Data.rereadItems data) ≤ depthOfItems items
  | [], _, h => by
    cases h
    exact ⟨trivial, Nat.le_refl _⟩
  | item :: rest, _, h => by
    obtain ⟨first, more, hfirst, hmore, rfl⟩ := ok_of_toDataItems h
    obtain ⟨narrow, deep⟩ := isNarrow_toData item first hfirst
    obtain ⟨narrowMore, deepMore⟩ := areNarrow_toDataItems rest more hmore
    exact ⟨⟨narrow, narrowMore⟩, max_le_max deep deepMore⟩

private theorem isNarrow_toDataEntries {name : κ → Data} : ∀ (members : List (κ × Value κ))
    (entries : List (Data × Data)), toDataEntries name members = .ok entries →
    ∀ entry ∈ entries, entry.2.IsNarrow ∧ entry.2.reread.depth ≤ depthOfMembers members
  | [], _, h => by
    cases h
    exact nofun
  | (_, value) :: rest, _, h => by
    obtain ⟨entry, more, hentry, hmore, rfl⟩ := ok_of_toDataEntries h
    obtain ⟨narrow, deep⟩ := isNarrow_toData value entry.2 hentry.value
    exact List.forall_mem_cons.mpr ⟨⟨narrow, le_max_of_le_left deep⟩,
      fun other ho => (isNarrow_toDataEntries rest more hmore other ho).imp_right le_max_of_le_right⟩

end

section Texts
variable {formatting : Formatting} {level : Nat}

theorem ok_of_integerText {value : Int} {text : Text} (h : Data.integerText value = .ok text) :
    Data.IsPrintable value ∧ text = Text.ofInt value := by
  rw [Data.integerText] at h
  split at h
  · cases h
    exact ⟨‹_›, rfl⟩
  · cases h

theorem integerText_of_isNarrow {value : Int} (narrow : (Number.int value).IsNarrow) :
    Data.integerText value = .ok (Text.ofInt value) :=
  if_pos ((length_ofInt_le narrow.1 narrow.2).1.trans (by decide))

theorem ok_of_renderItems {item : Data} {rest : List Data} {texts : List Text}
    (h : renderItems formatting level (item :: rest) = .ok texts) :
    ∃ first more, renderAt formatting level item = .ok first ∧ renderItems formatting level rest = .ok more ∧
      texts = first :: more := by
  obtain ⟨first, hfirst, h⟩ := ok_of_bind h
  obtain ⟨more, hmore, h⟩ := ok_of_bind h
  cases h
  exact ⟨first, more, hfirst, hmore, rfl⟩

theorem ok_of_renderEntries {entry : Data × Data} {rest : List (Data × Data)} {texts : List Text}
    (h : renderEntries formatting level (entry :: rest) = .ok texts) :
    ∃ name first more, nameOf entry.1 = .ok name ∧ renderAt formatting level entry.2 = .ok first ∧
      renderEntries formatting level rest = .ok more ∧
      texts = (stringLiteral name ++ colonText formatting ++ first) :: more := by
  obtain ⟨name, hname, h⟩ := ok_of_bind h
  obtain ⟨first, hfirst, h⟩ := ok_of_bind h
  obtain ⟨more, hmore, h⟩ := ok_of_bind h
  cases h
  exact ⟨name, first, more, hname, hfirst, hmore, rfl⟩

mutual

/-- Plain data have a text in either layout and at every level exactly if they are writable. -/
theorem exists_renderAt (formatting : Formatting) : ∀ (data : Data) (level : Nat),
    (∃ text, renderAt formatting level data = .ok text) ↔ data.IsWritable
  | .none, _ | .bool _, _ | .float _, _ | .str _, _ => iff_of_true ⟨_, rfl⟩ trivial
  | .int value, _ => by
    refine ⟨fun ⟨_, h⟩ => (ok_of_integerText h).1, fun printable => ⟨Text.ofInt value, if_pos printable⟩⟩
  | .list items, level | .tuple items, level => by
    refine Iff.trans ⟨fun ⟨_, h⟩ => ?_, fun ⟨texts, h⟩ => ?_⟩ (exists_renderItems formatting items (level + 1))
    · obtain ⟨texts, htexts, -⟩ := ok_of_map h
      exact ⟨texts, htexts⟩
    · exact ⟨_, by rw [renderAt, h]; rfl⟩
  | .dict entries, level => by
    refine Iff.trans ⟨fun ⟨_, h⟩ => ?_, fun ⟨texts, h⟩ => ?_⟩ (exists_renderEntries formatting entries (level + 1))
    · obtain ⟨texts, htexts, -⟩ := ok_of_map h
      exact ⟨texts, htexts⟩
    · exact ⟨_, by rw [renderAt, h]; rfl⟩
  | .set _, _ | .bytes, _ | .document _, _ => iff_of_false nofun id

private theorem exists_renderItems (formatting : Formatting) : ∀ (items : List Data) (level : Nat),
    (∃ texts, renderItems formatting level items = .ok texts) ↔ Data.AreWritable items
  | [], _ => iff_of_true ⟨[], rfl⟩ trivial
  | item :: rest, level => by
    rw [Data.AreWritable, ← exists_renderAt formatting item level, ← exists_renderItems formatting rest level]
    refine ⟨fun ⟨_, h⟩ => ?_, fun ⟨⟨first, hfirst⟩, more, hmore⟩ => ⟨first :: more, ?_⟩⟩
    · obtain ⟨first, more, hfirst, hmore, -⟩ := ok_of_renderItems h
      exact ⟨⟨first, hfirst⟩, more, hmore⟩
    · rw [renderItems, hfirst, hmore]
      rfl

private theorem exists_renderEntries (formatting : Formatting) : ∀ (entries : List (Data × Data)) (level : Nat),
    (∃ texts, renderEntries formatting level entries = .ok texts) ↔ Data.HaveWritable entries
  | [], _ => iff_of_true ⟨[], rfl⟩ trivial
  | (key, value) :: rest, level => by
    rw [Data.HaveWritable, ← exists_renderAt formatting value level, ← exists_renderEntries formatting rest level]
    refine ⟨fun ⟨_, h⟩ => ?_, fun ⟨⟨name, hname⟩, ⟨first, hfirst⟩, more, hmore⟩ =>
      ⟨(stringLiteral name ++ colonText formatting ++ first) :: more, ?_⟩⟩
    · obtain ⟨name, first, more, hname, hfirst, hmore, -⟩ := ok_of_renderEntries h
      exact ⟨⟨name, hname⟩, ⟨first, hfirst⟩, more, hmore⟩
    · rw [renderEntries, hname, hfirst, hmore]
      rfl

end

mutual

/-- The text of narrow data is read as the document that they stand for. -/
private theorem reads_reread (admits : limits.AdmitsNumerals) (formatting : Formatting) : ∀ (data : Data) (level : Nat)
    {text : Text}, data.IsNarrow → renderAt formatting level data = .ok text → Reads limits text data.reread
  | .none, _, _, _, h => by
    cases h
    exact reads_null
  | .bool value, _, _, _, h => by
    cases h
    exact reads_bool value
  | .int value, _, _, narrow, h => by
    obtain ⟨-, rfl⟩ := ok_of_integerText h
    exact reads_number admits (.int value) narrow
  | .float value, _, _, _, h => by
    cases h
    exact reads_number admits (.float value) trivial
  | .str value, _, _, _, h => by
    cases h
    exact reads_string value
  | .list items, level, _, narrow, h | .tuple items, level, _, narrow, h => by
    obtain ⟨texts, htexts, rfl⟩ := ok_of_map h
    exact reads_bracketed (reads_rereadItems admits formatting items (level + 1) narrow htexts) level
  | .dict entries, level, _, narrow, h => by
    obtain ⟨texts, htexts, rfl⟩ := ok_of_map h
    exact reads_bracketed (reads_rereadEntries admits formatting entries (level + 1) narrow htexts) level
  | .set _, _, _, _, h | .bytes, _, _, _, h | .document _, _, _, _, h => by cases h

private theorem reads_rereadItems (admits : limits.AdmitsNumerals) (formatting : Formatting) :
    ∀ (items : List Data) (level : Nat) {texts : List Text}, Data.AreNarrow items →
      renderItems formatting level items = .ok texts →
      List.Forall₂ (Container.array.ReadsPart limits) texts (Data.rereadItems items)
  | [], _, _, _, h => by
    cases h
    exact .nil
  | item :: rest, level, _, narrow, h => by
    obtain ⟨first, more, hfirst, hmore, rfl⟩ := ok_of_renderItems h
    exact .cons (reads_reread admits formatting item level narrow.1 hfirst).item
      (reads_rereadItems admits formatting rest level narrow.2 hmore)

private theorem reads_rereadEntries (admits : limits.AdmitsNumerals) (formatting : Formatting) :
    ∀ (entries : List (Data × Data)) (level : Nat) {texts : List Text}, Data.HaveNarrow entries →
      renderEntries formatting level entries = .ok texts →
      List.Forall₂ (Container.object.ReadsPart limits) texts (Data.rereadEntries entries)
  | [], _, _, _, h => by
    cases h
    exact .nil
  | (key, value) :: rest, level, _, narrow, h => by
    obtain ⟨name, first, more, hname, hfirst, hmore, rfl⟩ := ok_of_renderEntries h
    rw [Data.rereadEntries, Data.nameText_eq hname]
    exact .cons ((reads_reread admits formatting value level narrow.1 hfirst).member formatting name)
      (reads_rereadEntries admits formatting rest level narrow.2 hmore)

end

end Texts

end Data

section Whole

/-- A rendered text begins with a visible character. -/
private theorem exists_head_renderAt {formatting : Formatting} {level : Nat} {data : Data} {text : Text}
    (h : renderAt formatting level data = .ok text) : ∃ c rest, text = c :: rest ∧ 0x21 ≤ c ∧ c < 0x7F := by
  have literal (parts : Literal) : ∃ c rest, parts.text = c :: rest ∧ 0x21 ≤ c ∧ c < 0x7F := by
    obtain ⟨c, rest, htext, range, -⟩ := Token.Literal.exists_head parts
    exact ⟨c, rest, htext, Nat.le_trans (by decide) range.2, Nat.lt_trans range.1 (by decide)⟩
  have brackets (opening closing : CodePoint) (parts : List Text) (low : 0x21 ≤ opening)
      (high : opening < 0x7F) :
      ∃ c rest, bracketed formatting level opening closing parts = c :: rest ∧ 0x21 ≤ c ∧ c < 0x7F := by
    rw [bracketed]
    split
    · exact ⟨_, _, rfl, low, high⟩
    · exact ⟨_, _, rfl, low, high⟩
  cases data with
  | none | str =>
    cases h
    exact ⟨_, _, rfl, by decide, by decide⟩
  | bool value =>
    cases h
    cases value <;> exact ⟨_, _, rfl, by decide, by decide⟩
  | int value =>
    obtain ⟨-, rfl⟩ := ok_of_integerText h
    rw [← Literal.text_ofInt]
    exact literal _
  | float value =>
    cases h
    cases value with
    | nan => exact ⟨_, _, rfl, by decide, by decide⟩
    | infinite negative => cases negative <;> exact ⟨_, _, rfl, by decide, by decide⟩
    | finite negative significand exponent =>
      obtain ⟨parts, -, htext⟩ := exists_literal_finite negative significand exponent
      rw [← htext]
      exact literal parts
  | list | tuple | dict =>
    obtain ⟨parts, -, rfl⟩ := ok_of_map h
    exact brackets _ _ _ (by decide) (by decide)
  | set | bytes | document => cases h

theorem isEmptyText_of_head {c : CodePoint} {rest : Text} (h : Text.isBlank c = false) :
    isEmptyText (c :: rest) = false := by
  have keep : (c :: rest).dropWhile Text.isBlank = c :: rest := by simp [h]
  have visible : (c :: rest).reverse.dropWhile Text.isBlank ≠ [] := fun blank => by
    have := List.dropWhile_eq_nil_iff.mp blank c (by simp)
    rw [h] at this
    cases this
  rw [isEmptyText, Text.trim, keep]
  simpa using visible

/-- A text that is read as a document wherever a value may begin is read as that document on its own. -/
private theorem read_of_reads {text : Text} {document : Document} {c : CodePoint} {rest : Text}
    (head : text = c :: rest) (visible : c < 0x7F) (room : document.depth ≤ limits.nesting)
    (reads : Reads limits text document) : read limits text = .ok document := by
  have mark : text.head? ≠ some 0xFEFF := by
    rw [head]
    rintro ⟨⟩
    exact absurd visible (by decide)
  obtain ⟨after, h⟩ := reads [] .value text.length 0 [] rfl (by simpa using room) (by simp [Ends])
  rw [List.append_nil] at h
  rw [read, if_neg mark, Reader.start, Token.scan, h]
  rfl

variable {formatting : Formatting} {data : Data} {text : Text}

/-- The text of narrow data is read as the document that they stand for. -/
private theorem read_renderData (admits : limits.AdmitsNumerals) (narrow : data.IsNarrow)
    (h : renderData formatting data = .ok text) (room : data.reread.depth ≤ limits.nesting) :
    read limits text = .ok data.reread := by
  obtain ⟨c, rest, head, visible⟩ := exists_head_renderAt h
  exact read_of_reads head visible.2 room (reads_reread admits formatting data 0 narrow h)

/-- Within the bounds, the text of narrow data is parsed as what they stand for, with each name once. -/
theorem parse_renderData (narrow : data.IsNarrow) (h : renderData formatting data = .ok text)
    (nested : data.reread.depth ≤ documentNesting) : parse text = .ok data.reread.dedupe := by
  have validated : read validationLimits text = .ok data.reread :=
    read_renderData (fun most h => (Option.some.inj h).le) narrow h (nested.trans (by decide))
  have parsed : read parseLimits text = .ok data.reread :=
    read_renderData (fun most h => by cases h) narrow h (nested.trans (by decide))
  obtain ⟨c, rest, head, visible⟩ := exists_head_renderAt h
  have blank : Text.isBlank c = false :=
    (show ∀ c < 0x7F, 0x21 ≤ c → Text.isBlank c = false by decide) c visible.2 visible.1
  have filled : isEmptyText text = false := by
    rw [head]
    exact isEmptyText_of_head blank
  rw [parse, validate, filled, validated]
  simp only [parsed]
  rw [if_neg (by decide), if_neg (Nat.not_lt.mpr nested)]

/-- The text of narrow data is decoded as what they stand for, at any depth. -/
theorem decode_renderData (narrow : data.IsNarrow) (h : renderData formatting data = .ok text) :
    Hooks.document.decode text = some data.reread := by
  have found : read ⟨data.reread.depth, none⟩ text = .ok data.reread :=
    read_renderData (fun most h => by cases h) narrow h (Nat.le_refl _)
  exact decode_of_read found

end Whole

end Json

end Specimen
