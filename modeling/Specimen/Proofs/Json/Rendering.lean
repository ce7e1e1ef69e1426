import Specimen.Proofs.Json.Encoding
import Mathlib.Data.List.Permutation

/-! Rendering and parsing. Whatever the layout, a rendered document is read as the document with every literal
as its number is written, and that stands for the same data. -/
namespace Specimen.Json

namespace Value
variable {κ : Type}

mutual

/-- The value with every number literal changed. -/
def mapNumbers (f : Text → Text) : Value κ → Value κ
  | .null => .null
  | .bool value => .bool value
  | .number literal => .number (f literal)
  | .string value => .string value
  | .array items => .array (mapNumbersOfItems f items)
  | .object members => .object (mapNumbersOfMembers f members)

def mapNumbersOfItems (f : Text → Text) : List (Value κ) → List (Value κ)
  | [] => []
  | item :: rest => mapNumbers f item :: mapNumbersOfItems f rest

def mapNumbersOfMembers (f : Text → Text) : List (κ × Value κ) → List (κ × Value κ)
  | [] => []
  | (name, value) :: rest => (name, mapNumbers f value) :: mapNumbersOfMembers f rest

end

mutual

private theorem depth_mapNumbers (f : Text → Text) : ∀ value : Value κ, (value.mapNumbers f).depth = value.depth
  | .array items => by rw [mapNumbers, depth, depth, depth_mapNumbersOfItems f items]
  | .object members => by rw [mapNumbers, depth, depth, depth_mapNumbersOfMembers f members]
  | .null | .bool _ | .number _ | .string _ => rfl

private theorem depth_mapNumbersOfItems (f : Text → Text) : ∀ items : List (Value κ),
    depthOfItems (mapNumbersOfItems f items) = depthOfItems items
  | [] => rfl
  | item :: rest => by
    rw [mapNumbersOfItems, depthOfItems, depthOfItems, depth_mapNumbers f item, depth_mapNumbersOfItems f rest]

private theorem depth_mapNumbersOfMembers (f : Text → Text) : ∀ members : List (κ × Value κ),
    depthOfMembers (mapNumbersOfMembers f members) = depthOfMembers members
  | [] => rfl
  | (_, value) :: rest => by
    rw [mapNumbersOfMembers, depthOfMembers, depthOfMembers, depth_mapNumbers f value,
      depth_mapNumbersOfMembers f rest]

end

private theorem names_mapNumbers (f : Text → Text) (members : List (κ × Value κ)) :
    names (mapNumbersOfMembers f members) = names members := by
  induction members with
  | nil => rfl
  | cons member rest ih => exact congrArg (member.1 :: ·) ih

mutual

private theorem everyObject_mapNumbers (p : List κ → Prop) (f : Text → Text) : ∀ value : Value κ,
    EveryObject p value → EveryObject p (value.mapNumbers f)
  | .array items, h => everyObjectOfItems_mapNumbers p f items h
  | .object members, h => by
    rw [mapNumbers, EveryObject, names_mapNumbers]
    exact ⟨h.1, everyObjectOfMembers_mapNumbers p f members h.2⟩
  | .null, h | .bool _, h | .number _, h | .string _, h => h

private theorem everyObjectOfItems_mapNumbers (p : List κ → Prop) (f : Text → Text) : ∀ items : List (Value κ),
    EveryObjectOfItems p items → EveryObjectOfItems p (mapNumbersOfItems f items)
  | [], h => h
  | item :: rest, h => ⟨everyObject_mapNumbers p f item h.1, everyObjectOfItems_mapNumbers p f rest h.2⟩

private theorem everyObjectOfMembers_mapNumbers (p : List κ → Prop) (f : Text → Text) :
    ∀ members : List (κ × Value κ), EveryObjectOfMembers p members →
      EveryObjectOfMembers p (mapNumbersOfMembers f members)
  | [], h => h
  | (_, value) :: rest, h =>
    ⟨everyObject_mapNumbers p f value h.1, everyObjectOfMembers_mapNumbers p f rest h.2⟩

end

end Value

section Entries

private theorem collapse_of_nodup {κ α : Type} [BEq κ] [LawfulBEq κ] {entries : List (κ × α)}
    (h : (entries.map (·.1)).Nodup) : collapse entries = entries := by
  refine foldl_append (fun entry kept => put entry.1 entry.2 kept) (fun before entry => before.1 ≠ entry.1)
    (fun entry kept new => ?_) (List.pairwise_map.mp h)
  refine put_of_notMem (fun hin => ?_) entry.2
  obtain ⟨before, hb, he⟩ := List.mem_map.mp hin
  exact new before hb he

/-- Entries with distinct names are a dictionary as they are. -/
theorem ofEntries_of_nodup {entries : List (Data × Data)} {names : List Text}
    (keys : entries.map (·.1) = names.map .str) (h : names.Nodup) : Data.ofEntries entries = .dict entries :=
  congrArg Data.dict (Data.putEntries_of_areApart (keys ▸ Data.areApart_str.mpr h))

namespace Value

mutual

private theorem dedupe_of_distinctNames : ∀ document : Document, document.DistinctNames → document.dedupe = document
  | .array items, h => congrArg Value.array (dedupeItems_of_distinctNames items h)
  | .object members, h => by
    have hmembers := dedupeMembers_of_distinctNames members h.2
    rw [dedupe, hmembers, collapse_of_nodup h.1]
  | .null, _ | .bool _, _ | .number _, _ | .string _, _ => rfl

private theorem dedupeItems_of_distinctNames : ∀ items : List Document,
    EveryObjectOfItems List.Nodup items → dedupeItems items = items
  | [], _ => rfl
  | item :: rest, h => by
    rw [dedupeItems, dedupe_of_distinctNames item h.1, dedupeItems_of_distinctNames rest h.2]

private theorem dedupeMembers_of_distinctNames : ∀ members : List (Text × Document),
    EveryObjectOfMembers List.Nodup members → dedupeMembers members = members
  | [], _ => rfl
  | (name, value) :: rest, h => by
    rw [dedupeMembers, dedupe_of_distinctNames value h.1, dedupeMembers_of_distinctNames rest h.2]

end

end Value

end Entries

section Data
open Value

/-- Whether a literal stands for a number, and still does as another literal. -/
def Keeps (f : Text → Text) (literal : Text) : Prop :=
  ∃ number, Number.ofLiteral literal = some number ∧ Number.ofLiteral (f literal) = some number

mutual

/-- Literals that stand for the same numbers make no difference to the data of a document. -/
theorem exists_toData (f : Text → Text) : ∀ document : Document,
    (∀ literal ∈ document.literals, Keeps f literal) →
    ∃ data, document.toData .str = .ok data ∧ (document.mapNumbers f).toData .str = .ok data
  | .null, _ | .bool _, _ | .string _, _ => ⟨_, rfl, rfl⟩
  | .number literal, h => by
    obtain ⟨number, here, there⟩ := h literal (by simp [literals])
    exact ⟨number.toData, by rw [toData, here], by rw [mapNumbers, toData, there]⟩
  | .array items, h => by
    obtain ⟨data, here, there⟩ := exists_toDataItems f items h
    exact ⟨.list data, by rw [toData, here]; rfl, by rw [mapNumbers, toData, there]; rfl⟩
  | .object members, h => by
    obtain ⟨data, here, there⟩ := exists_toDataEntries f members h
    exact ⟨.ofEntries data, by rw [toData, here]; rfl, by rw [mapNumbers, toData, there]; rfl⟩

private theorem exists_toDataItems (f : Text → Text) : ∀ items : List Document,
    (∀ literal ∈ literalsOfItems items, Keeps f literal) →
    ∃ data, toDataItems .str items = .ok data ∧ toDataItems .str (mapNumbersOfItems f items) = .ok data
  | [], _ => ⟨[], rfl, rfl⟩
  | item :: rest, h => by
    rw [literalsOfItems, List.forall_mem_append] at h
    obtain ⟨data, here, there⟩ := exists_toData f item h.1
    obtain ⟨more, hereMore, thereMore⟩ := exists_toDataItems f rest h.2
    exact ⟨data :: more, by rw [toDataItems, here, hereMore]; rfl,
      by rw [mapNumbersOfItems, toDataItems, there, thereMore]; rfl⟩

private theorem exists_toDataEntries (f : Text → Text) : ∀ members : List (Text × Document),
    (∀ literal ∈ literalsOfMembers members, Keeps f literal) →
    ∃ data, toDataEntries .str members = .ok data ∧
      toDataEntries .str (mapNumbersOfMembers f members) = .ok data
  | [], _ => ⟨[], rfl, rfl⟩
  | (name, value) :: rest, h => by
    rw [literalsOfMembers, List.forall_mem_append] at h
    obtain ⟨data, here, there⟩ := exists_toData f value h.1
    obtain ⟨more, hereMore, thereMore⟩ := exists_toDataEntries f rest h.2
    exact ⟨(.str name, data) :: more, by rw [toDataEntries, here, hereMore]; rfl,
      by rw [mapNumbersOfMembers, toDataEntries, there, thereMore]; rfl⟩

end

private theorem reread_toData_number (number : Number) : number.toData.reread = .number number.text := by
  cases number <;> rfl

mutual

/-- What is rendered from a document stands for that document with its numbers as they are written. -/
private theorem reread_toData : ∀ (document : Document) (data : Data), document.DistinctNames →
    document.toData .str = .ok data → data.reread = document.mapNumbers written
  | .null, _, _, h | .bool _, _, _, h | .string _, _, _, h => by
    cases h
    rfl
  | .number literal, _, _, h => by
    rw [toData] at h
    split at h
    · rename_i number found
      cases h
      rw [reread_toData_number, mapNumbers, written_eq found]
    · cases h
  | .array items, _, distinct, h => by
    obtain ⟨data, hdata, rfl⟩ := ok_of_map h
    exact congrArg Value.array (reread_toDataItems items data distinct hdata)
  | .object members, _, distinct, h => by
    obtain ⟨entries, hentries, rfl⟩ := ok_of_map h
    rw [ofEntries_of_nodup (keys_toDataEntries hentries) distinct.1]
    exact congrArg Value.object (reread_toDataEntries members entries distinct.2 hentries)

private theorem reread_toDataItems : ∀ (items : List Document) (data : List Data),
    EveryObjectOfItems List.Nodup items → toDataItems .str items = .ok data →
    Data.rereadItems data = mapNumbersOfItems written items
  | [], _, _, h => by
    cases h
    rfl
  | item :: rest, _, distinct, h => by
    obtain ⟨first, more, hfirst, hmore, rfl⟩ := ok_of_toDataItems h
    rw [Data.rereadItems, mapNumbersOfItems, reread_toData item first distinct.1 hfirst,
      reread_toDataItems rest more distinct.2 hmore]

private theorem reread_toDataEntries : ∀ (members : List (Text × Document)) (entries : List (Data × Data)),
    EveryObjectOfMembers List.Nodup members → toDataEntries .str members = .ok entries →
    Data.rereadEntries entries = mapNumbersOfMembers written members
  | [], _, _, h => by
    cases h
    rfl
  | (name, value) :: rest, _, distinct, h => by
    obtain ⟨⟨_, first⟩, more, hentry, hmore, rfl⟩ := ok_of_toDataEntries h
    obtain ⟨rfl, -, hfirst⟩ := hentry
    rw [Data.rereadEntries, mapNumbersOfMembers, reread_toData value first distinct.1 hfirst,
      reread_toDataEntries rest more distinct.2 hmore]
    rfl

end

end Data

section Whole

/-- Rendering a parsed document, in either layout, and parsing the text gives a document with the same data, if
the text of each of its floating-point numbers is read as that number. Both layouts give one document. -/
theorem parse_render {text : Text} {document : Document} (parsed : parse text = .ok document)
    (exact : ∀ literal ∈ document.literals, IsExact literal) :
    ∃ data again, document.toData .str = .ok data ∧ again.toData .str = .ok data ∧
      ∀ formatting, ∃ rendered, render formatting document = .ok rendered ∧ parse rendered = .ok again := by
  have keeps (literal : Text) (h : literal ∈ document.literals) : Keeps written literal := by
    obtain ⟨number, hnumber⟩ := (parse_literals parsed literal h).exists_ofLiteral
    exact ⟨number, hnumber, (ofLiteral_written (exact literal h)).trans hnumber⟩
  obtain ⟨data, here, there⟩ := exists_toData written document keeps
  obtain ⟨distinct, nested⟩ := parse_ok parsed
  refine ⟨data, document.mapNumbers written, here, there, fun formatting => ?_⟩
  obtain ⟨rendered, hrendered⟩ := Value.exists_renderData_str formatting here
  refine ⟨rendered, ?_, ?_⟩
  · rw [render, renderNamed, here]
    exact hrendered
  · have stands := reread_toData document data distinct here
    have single := Value.dedupe_of_distinctNames _ (Value.everyObject_mapNumbers _ written document distinct)
    rw [parse_renderData (isNarrow_toData document data here).1 hrendered
      (by rwa [stands, Value.depth_mapNumbers]), stands, single]

private def unevenText : Text :=
  "\x7b\"a\": [], \"b\\ud800\\u0001\": [1E2, NaN, 18446744073709551616, 1e400, -0.0, \x7b\x7d]," ++
    " \"a\": -9223372036854775808\x7d"

private def unevenDocument : Document :=
  .object [(("a" : Text), .number "-9223372036854775808"), (0x62 :: 0xD800 :: [0x01], .array
    [.number "1E2", .number "NaN", .number "18446744073709551616", .number "1e400", .number "-0.0",
      .object []])]

theorem parse_render_uneven : parse unevenText = .ok unevenDocument ∧
    ∃ data again, unevenDocument.toData .str = .ok data ∧ again.toData .str = .ok data ∧
      ∀ formatting, ∃ rendered, render formatting unevenDocument = .ok rendered ∧ parse rendered = .ok again :=
  have parsed : parse unevenText = .ok unevenDocument := by cbv
  ⟨parsed, parse_render parsed (by decide +kernel)⟩

end Whole

end Specimen.Json
