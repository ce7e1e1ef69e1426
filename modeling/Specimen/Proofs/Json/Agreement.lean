import Specimen.Proofs.Json.Plain
import Specimen.Proofs.Json.Rereading

/-! Objects, the dictionaries read from them, and the texts of those. They agree exactly if no two names of an
object are the same key; objects made of dictionaries have distinct names exactly if the texts of the keys
differ. -/
namespace Specimen

namespace Data

mutual

/-- Whether the texts of the keys of each dictionary among plain data differ, and no document among them names
a member twice. -/
def KeysDiffer : Data → Prop
  | .list items => AllKeysDiffer items
  | .tuple items => AllKeysDiffer items
  | .dict entries => (entries.map (·.1.text)).Nodup ∧ ValueKeysDiffer entries
  | .document value => value.DistinctNames
  | _ => True

def AllKeysDiffer : List Data → Prop
  | [] => True
  | item :: rest => KeysDiffer item ∧ AllKeysDiffer rest

def ValueKeysDiffer : List (Data × Data) → Prop
  | [] => True
  | (_, value) :: rest => KeysDiffer value ∧ ValueKeysDiffer rest

end

private theorem ok_of_keyText {key : Data} {name : Text} (h : key.keyText = .ok name) : name = key.text := by
  rw [keyText] at h
  split at h
  · exact (Except.ok.inj h).symm
  · cases h

/-- Members are made of entries one by one. -/
private theorem ok_of_toMembers {entry : Data × Data} {rest : List (Data × Data)}
    {members : List (Text × Json.Document)}
    (h : toMembers (entry :: rest) = .ok members) :
    ∃ name first more, name = entry.1.text ∧ entry.2.toDocument = .ok first ∧ toMembers rest = .ok more ∧
      members = (name, first) :: more := by
  rw [toMembers] at h
  obtain ⟨name, hname, h⟩ := ok_of_bind h
  obtain ⟨first, hfirst, h⟩ := ok_of_bind h
  obtain ⟨more, hmore, h⟩ := ok_of_bind h
  cases h
  exact ⟨name, first, more, ok_of_keyText hname, hfirst, hmore, rfl⟩

private theorem names_toMembers {entries : List (Data × Data)} {members : List (Text × Json.Document)}
    (h : toMembers entries = .ok members) : Json.Value.names members = entries.map (·.1.text) := by
  induction entries generalizing members with
  | nil =>
    cases h
    rfl
  | cons entry rest ih =>
    obtain ⟨name, _, more, hname, -, hmore, rfl⟩ := ok_of_toMembers h
    rw [Json.Value.names, List.map_cons, List.map_cons, ← ih hmore, hname]
    rfl

mutual

/-- The document of plain data has distinct names exactly if the texts of their keys differ. -/
theorem distinctNames_toDocument : ∀ (data : Data) (document : Json.Document), data.toDocument = .ok document →
    (document.DistinctNames ↔ data.KeysDiffer)
  | .none, _, h | .bool _, _, h | .float _, _, h | .str _, _, h => by
    cases h
    exact Iff.rfl
  | .int _, _, h => by
    obtain ⟨text, -, rfl⟩ := ok_of_map h
    exact Iff.rfl
  | .list items, _, h | .tuple items, _, h => by
    obtain ⟨documents, hdocuments, rfl⟩ := ok_of_map h
    exact distinctNames_toDocuments items documents hdocuments
  | .dict entries, _, h => by
    obtain ⟨members, hmembers, rfl⟩ := ok_of_map h
    rw [Json.Value.DistinctNames, Json.Value.EveryObject, KeysDiffer, names_toMembers hmembers]
    exact and_congr_right fun _ => distinctNames_toMembers entries members hmembers
  | .document _, _, h => by
    cases h
    exact Iff.rfl
  | .set _, _, h | .bytes, _, h => by cases h

private theorem distinctNames_toDocuments : ∀ (items : List Data) (documents : List Json.Document),
    toDocuments items = .ok documents →
    (Json.Value.EveryObjectOfItems List.Nodup documents ↔ AllKeysDiffer items)
  | [], _, h => by
    cases h
    exact Iff.rfl
  | item :: rest, _, h => by
    obtain ⟨first, hfirst, h⟩ := ok_of_bind h
    obtain ⟨more, hmore, h⟩ := ok_of_bind h
    cases h
    exact and_congr (distinctNames_toDocument item first hfirst) (distinctNames_toDocuments rest more hmore)

private theorem distinctNames_toMembers : ∀ (entries : List (Data × Data)) (members : List (Text × Json.Document)),
    toMembers entries = .ok members →
    (Json.Value.EveryObjectOfMembers List.Nodup members ↔ ValueKeysDiffer entries)
  | [], _, h => by
    cases h
    exact Iff.rfl
  | (_, value) :: rest, _, h => by
    obtain ⟨_, first, more, -, hfirst, hmore, rfl⟩ := ok_of_toMembers h
    exact and_congr (distinctNames_toDocument value first hfirst) (distinctNames_toMembers rest more hmore)

end

end Data

namespace Json
open Value

variable {κ : Type}

namespace Value

mutual

theorem everyObject_of_holds (p : List Text → Prop) : ∀ document : Document,
    (∀ members, Holds document (.object members) → p (names members)) → document.EveryObject p
  | .array items, h => everyObjectOfItems_of_holds p items fun _ mem _ holds => h _ (.item mem holds)
  | .object members, h =>
    ⟨h members (.self _), everyObjectOfMembers_of_holds p members fun _ mem _ holds => h _ (.member mem holds)⟩
  | .null, _ | .bool _, _ | .number _, _ | .string _, _ => trivial

private theorem everyObjectOfItems_of_holds (p : List Text → Prop) : ∀ items : List Document,
    (∀ item ∈ items, ∀ members, Holds item (.object members) → p (names members)) → EveryObjectOfItems p items
  | [], _ => trivial
  | item :: rest, h =>
    have h := List.forall_mem_cons.mp h
    ⟨everyObject_of_holds p item h.1, everyObjectOfItems_of_holds p rest h.2⟩

private theorem everyObjectOfMembers_of_holds (p : List Text → Prop) : ∀ members : List (Text × Document),
    (∀ member ∈ members, ∀ inner, Holds member.2 (.object inner) → p (names inner)) →
    EveryObjectOfMembers p members
  | [], _ => trivial
  | (_, value) :: rest, h =>
    have h := List.forall_mem_cons.mp h
    ⟨everyObject_of_holds p value h.1, everyObjectOfMembers_of_holds p rest h.2⟩

end

variable {μ : Type} (p : List μ → Prop) (f : κ → μ)

private theorem names_mapNamesMembers (members : List (κ × Value κ)) :
    names (mapNamesMembers f members) = (names members).map f := by
  induction members with
  | nil => rfl
  | cons member rest ih => exact congrArg (f member.1 :: ·) ih

mutual

/-- Changed names of objects are what the names are changed to. -/
theorem everyObject_mapNames : ∀ value : Value κ, value.EveryObject (fun names => p (names.map f)) →
    (value.mapNames f).EveryObject p
  | .array items, h => everyObjectOfItems_mapNames items h
  | .object members, h => by
    rw [mapNames, EveryObject, names_mapNamesMembers]
    exact ⟨h.1, everyObjectOfMembers_mapNames members h.2⟩
  | .null, _ | .bool _, _ | .number _, _ | .string _, _ => trivial

private theorem everyObjectOfItems_mapNames : ∀ items : List (Value κ),
    EveryObjectOfItems (fun names => p (names.map f)) items → EveryObjectOfItems p (mapNamesItems f items)
  | [], _ => trivial
  | item :: rest, h => ⟨everyObject_mapNames item h.1, everyObjectOfItems_mapNames rest h.2⟩

private theorem everyObjectOfMembers_mapNames : ∀ members : List (κ × Value κ),
    EveryObjectOfMembers (fun names => p (names.map f)) members →
    EveryObjectOfMembers p (mapNamesMembers f members)
  | [], _ => trivial
  | (_, value) :: rest, h => ⟨everyObject_mapNames value h.1, everyObjectOfMembers_mapNames rest h.2⟩

end

end Value

variable {name : κ → Data} {members : List (κ × Value κ)} {entries : List (Data × Data)}

/-- Whether a member of a text shows a member: its name as it is written, and what the text of its value shows. -/
structure IsShown (name : κ → Data) (member : κ × Value κ) (shown : Text × Document) : Prop where
  named : nameOf (name member.1) = .ok shown.1
  value : ∃ data, member.2.toData name = .ok data ∧
    ∀ formatting, ∃ text, renderData formatting data = .ok text ∧ Hooks.document.decode text = some shown.2

/-- An object agrees with a dictionary, and with the text of it if it has one. They have its names in its order, and
each name leads to what it leads to in the object. -/
structure IsFaithful (name : κ → Data) (members : List (κ × Value κ)) (entries : List (Data × Data)) : Prop where
  keys : entries.map (·.1) = (names members).map name
  get : ∀ key, (members.find? fun member => (name member.1).sameKey key).map (·.2.toData name) =
    (entries.find? fun entry => entry.1.sameKey key).map fun entry => .ok entry.2
  text : ∀ formatting text, renderData formatting (.dict entries) = .ok text → ∃ shown,
    Hooks.document.decode text = some (.object shown) ∧ List.Forall₂ (IsShown name) members shown

private theorem find?_toDataEntries (h : toDataEntries name members = .ok entries) (key : Data) :
    (members.find? fun member => (name member.1).sameKey key).map (·.2.toData name) =
      (entries.find? fun entry => entry.1.sameKey key).map fun entry => .ok entry.2 := by
  induction members generalizing entries with
  | nil =>
    cases h
    rfl
  | cons member rest ih =>
    obtain ⟨entry, more, hentry, hmore, rfl⟩ := ok_of_toDataEntries h
    rw [List.find?_cons, List.find?_cons, hentry.key]
    split
    · exact congrArg some hentry.value
    · exact ih hmore

private theorem isShown_toDataEntries (h : toDataEntries name members = .ok entries)
    (writable : Data.HaveWritable entries) :
    List.Forall₂ (IsShown name) members (Data.rereadEntries entries) := by
  induction members generalizing entries with
  | nil =>
    cases h
    exact .nil
  | cons member rest ih =>
    obtain ⟨entry, more, hentry, hmore, rfl⟩ := ok_of_toDataEntries h
    obtain ⟨⟨written, hwritten⟩, whole, others⟩ := writable
    refine .cons ⟨?_, entry.2, hentry.value, fun formatting => ?_⟩ (ih hmore others)
    · rw [← hentry.key, hwritten, Data.nameText_eq hwritten]
    · obtain ⟨text, htext⟩ := (exists_renderAt formatting entry.2 0).mpr whole
      exact ⟨text, htext, decode_renderData (isNarrow_toData member.2 entry.2 hentry.value).1 htext⟩

/-- An object agrees with the dictionary that is read from it, and with its text if it has one, exactly if its names
are apart. -/
theorem isFaithful_iff {data : Data} (h : (Value.object members).toData name = .ok data) :
    ∃ entries, data = .dict entries ∧
      (IsFaithful name members entries ↔ Data.AreApart ((names members).map name)) := by
  have narrow := (isNarrow_toData (.object members) data h).1
  obtain ⟨entries, hentries, rfl⟩ := ok_of_map h
  have keys := keys_toDataEntries hentries
  refine ⟨Data.putEntries entries, rfl, fun faithful => ?_, fun apart => ?_⟩
  · rw [← keys]
    refine Data.length_putEntries.mp ?_
    have := congrArg List.length (faithful.keys.trans keys.symm)
    simpa using this
  · have same : Data.putEntries entries = entries := Data.putEntries_of_areApart (keys ▸ apart)
    rw [Data.ofEntries, show List.foldl _ _ _ = Data.putEntries entries from rfl] at narrow
    rw [same] at narrow ⊢
    refine ⟨keys, find?_toDataEntries hentries, fun formatting text htext => ?_⟩
    have writable : (Data.dict entries).IsWritable := (exists_renderAt formatting _ 0).mp ⟨text, htext⟩
    exact ⟨Data.rereadEntries entries, decode_renderData narrow htext, isShown_toDataEntries hentries writable⟩

end Json

end Specimen
