import Specimen.Proofs.Json.Agreement
import Specimen.Proofs.Loading.Module
import Specimen.Proofs.Projection.Placeholders
import Specimen.Proofs.Reflection.Members
import Specimen.Serialization

/-! The names of objects. Objects made of plain data are named by the texts of keys, and objects of classes as their
members are renamed, so either may name a member twice; where none does, objects agree with what is read from
them and with their text. -/
namespace Specimen.World
open Json (Hooks nameOf)
open Json.Value (names)

section Own
variable {world : World} {visibility : Visibility} {c : ClassRef}

private theorem nodup_addMemberNames {classes : List ClassRef} {kept result : List Text} (h : kept.Nodup)
    (added : world.addMemberNames kept classes = .ok result) : result.Nodup := by
  induction classes generalizing kept with
  | nil => exact Except.ok.inj added ▸ h
  | cons k rest ih =>
    obtain ⟨entries, -, added⟩ := ok_of_bind added
    exact ih (nodup_foldl_addName _ h) added

theorem sublist_membersOf {fields : List DataField} {candidates : Bindings} {members : List ReflectedMember}
    (h : world.membersOf visibility c fields candidates = .ok members) :
    (members.map (·.name)).Sublist (candidates.map (·.1)) := by
  induction candidates generalizing members with
  | nil =>
    cases h
    exact .slnil
  | cons candidate rest ih =>
    rw [membersOf_cons] at h
    obtain ⟨shown, -, h⟩ := ok_of_bind h
    cases shown with
    | false => exact (ih h).cons _
    | true =>
      obtain ⟨others, hothers, h⟩ := ok_of_bind h
      cases h
      exact (ih hothers).cons_cons _

/-- Reflection gives no name twice. -/
theorem nodup_names_of_reflection {memory after : Memory} {members : List ReflectedMember}
    (h : world.reflection visibility c memory = (.ok members, after)) : (members.map (·.name)).Nodup := by
  obtain ⟨hints, middle, fields, candidates, reflects⟩ := exists_reflects h
  have nodup : candidates.Nodup := nodup_addMemberNames List.nodup_nil reflects.named
  have same := (memberTypes_eq world c hints candidates middle).1
  exact (same ▸ nodup).sublist (sublist_membersOf reflects.shown)

end Own

section Titles
variable (world : World) (visibility : Visibility) (root : ClassRef)

/-- The names of an object in a projection: those that a class shows its members under, whose own names differ;
none; or those of an object in plain data that a member quotes. -/
inductive Titles : List Data → Prop
  | members {c members} (reaches : world.Reaches visibility root c members)
    (distinct : (members.map (·.name)).Nodup) : Titles (members.map (·.jsonName))
  | none : Titles []
  | quoted {member value document inner} (meets : world.Meets visibility root member)
    (quotes : world.Quotes member.type value) (made : value.toDocument = .ok document)
    (holds : Json.Holds document (.object inner)) : Titles ((names inner).map .str)

variable {world visibility root}

/-- The objects in what a member shows that is no record have no names, or those of objects in what its type
quotes. -/
theorem everyObject_of_entry {p : List Data → Prop} {member : ReflectedMember} {sample : Sample}
    (entry : world.entry member = .ok (.inr sample)) (blank : p [])
    (quoted : ∀ {value document inner}, world.Quotes member.type value → value.toDocument = .ok document →
      Json.Holds document (.object inner) → p ((names inner).map .str)) : sample.EveryObject p := by
  rcases places_of_entry entry with rfl | places
  · exact trivial
  · generalize placed : Except.ok sample = outcome at places
    generalize hd : member.type = d at places
    cases places with
    | blank mem =>
      cases placed
      exact everyObject_blanks blank _ mem
    | quoted quotes =>
      obtain ⟨document, made, rfl⟩ := ok_of_dataSample placed.symm
      exact Json.Value.everyObject_mapNames _ _ document (Json.Value.everyObject_of_holds _ document
        fun inner holds => quoted (hd ▸ quotes) made holds)
    | label =>
      cases placed
      exact trivial
    | empty | unreadable => cases placed

private theorem closed_titles : Closed world visibility root (·.EveryObject (world.Titles visibility root)) where
  plain meets entry := everyObject_of_entry entry .none fun quotes made holds => .quoted meets quotes made holds
  null := trivial
  empty := trivial
  item h := ⟨h, trivial⟩
  object {c members samples} reaches titled each := by
    obtain ⟨_, _, reflected⟩ := reaches.reflected
    refine (Json.Value.everyObject_object _ samples).mpr ⟨?_, each⟩
    rw [titled]
    exact .members reaches (nodup_names_of_reflection reflected)

/-- What a projection gives is an object of the members that are shown, and every object in it has names of a
known origin. -/
theorem everyObject_project {settings : Settings} {members : List ReflectedMember} {sample : Sample}
    (h : world.project settings root = .ok (members, sample)) :
    sample.EveryObject (world.Titles settings.visibility root) ∧
      ∃ samples, sample = .object samples ∧ names samples = members.map (·.jsonName) := by
  obtain ⟨outcome, trail, projects, same | ⟨-, message, path, refused⟩⟩ :=
    exists_projects_of_project world settings root
  · obtain ⟨-, samples, closed⟩ := (same.symm.trans h ▸ projects).forall_sample
    exact ⟨closed closed_titles, samples⟩
  · cases refused.symm.trans h

/-- Where no member is renamed, and the keys in what is quoted differ, names are apart. -/
private theorem Titles.areApart {titles : List Data} (h : world.Titles visibility root titles)
    (plain : ∀ member, world.Meets visibility root member →
      member.jsonName = .str member.name ∧ ∀ value, world.Quotes member.type value → value.KeysDiffer) :
    Data.AreApart titles := by
  cases h with
  | @members c members reaches distinct =>
    have own : members.map (·.jsonName) = (members.map (·.name)).map .str := by
      rw [List.map_map]
      exact List.map_congr_left fun member hm => (plain member ⟨c, members, reaches, hm⟩).1
    exact own ▸ Data.areApart_str.mpr distinct
  | none => exact .nil
  | quoted meets quotes made holds =>
    have distinct := (Data.distinctNames_toDocument _ _ made).mpr ((plain _ meets).2 _ quotes)
    exact Data.areApart_str.mpr (holds.distinctNames distinct).1

end Titles

section Serialized
variable {world : World} {settings : Settings} {handle : Option Handle} {result : Serialized}

/-- What is serialized is the text of a projection. -/
theorem ok_of_serialize (h : world.serialize settings handle = .ok result) :
    ∃ found c members sample data text, Handle.require handle = .ok (found, c) ∧
      world.project (settings.forType found.isBuilt) c = .ok (members, sample) ∧
      sample.toData id = .ok data ∧ Json.renderData (settings.forType found.isBuilt).formatting data = .ok text ∧
      result = ⟨text, found.qualifiedName, members.length, settings.forType found.isBuilt⟩ := by
  obtain ⟨⟨found, c⟩, required, h⟩ := ok_of_bind h
  obtain ⟨⟨members, sample⟩, projected, h⟩ := ok_of_bind h
  obtain ⟨text, rendered, h⟩ := ok_of_bind h
  obtain ⟨_, -, h⟩ := ok_of_bind h
  obtain ⟨data, hdata, written⟩ := ok_of_bind rendered
  cases h
  exact ⟨found, c, members, sample, data, text, required, projected, hdata, written, rfl⟩

/-- The text of dictionaries that entries are put in has as many members, under different names, exactly if the
keys are apart and written differently. -/
private theorem rereadEntries_putEntries {entries : List (Data × Data)}
    (writable : Data.HaveWritable (Data.putEntries entries)) :
    (Data.rereadEntries (Data.putEntries entries)).length = entries.length ∧
        (names (Data.rereadEntries (Data.putEntries entries))).Nodup ↔
      Data.AreApart (entries.map (·.1)) ∧ ((entries.map (·.1)).map nameOf).Nodup := by
  rw [Data.rereadEntries_eq, List.length_map, Data.length_putEntries, names]
  refine and_congr_right fun apart => ?_
  rw [Data.putEntries_of_areApart apart] at writable ⊢
  have written : (entries.map (·.1)).map nameOf = (entries.map (·.1.nameText)).map .ok := by
    rw [List.map_map, List.map_map]
    refine List.map_congr_left fun entry he => ?_
    obtain ⟨name, hname⟩ := (Data.haveWritable_iff.mp writable entry he).1
    rw [Function.comp_apply, Function.comp_apply, hname, Data.nameText_eq hname]
  rw [written, List.nodup_map_iff fun _ _ => Except.ok.inj, List.map_map]
  rfl

/-- The document of plain data names no member of an object twice exactly if the keys of no dictionary have the
same text. An object agrees with the dictionary that is read from it, and with the text of that, exactly if its
names are apart; and there is a text, in either layout, exactly if everything in the dictionary can be written, its
keys as names. In projections objects have the names of members, which differ unless members are renamed, or
those of plain data; and a serialized text has as many members as it was made from, under different names,
exactly if their names are apart and written differently. -/
theorem objects_named (world : World) (settings : Settings) :
    (∀ (data : Data) document, data.toDocument = .ok document → (document.DistinctNames ↔ data.KeysDiffer)) ∧
    (∀ (κ : Type) (name : κ → Data) members data, (Json.Value.object members).toData name = .ok data →
      ∃ entries, data = .dict entries ∧
        (Json.IsFaithful name members entries ↔ Data.AreApart ((names members).map name)) ∧
        ∀ formatting, (∃ text, Json.renderData formatting data = .ok text) ↔ data.IsWritable) ∧
    (∀ root members sample, world.project settings root = .ok (members, sample) →
      sample.EveryObject (world.Titles settings.visibility root) ∧
        ((∀ member, world.Meets settings.visibility root member → member.jsonName = .str member.name ∧
            ∀ value, world.Quotes member.type value → value.KeysDiffer) →
          sample.EveryObject Data.AreApart)) ∧
    ∀ handle result, world.serialize settings handle = .ok result →
      ∃ found c members sample shown, Handle.require handle = .ok (found, c) ∧
        world.project (settings.forType found.isBuilt) c = .ok (members, sample) ∧
        result.memberCount = members.length ∧ Hooks.document.decode result.text = some (.object shown) ∧
        (shown.length = result.memberCount ∧ (names shown).Nodup ↔
          Data.AreApart (members.map (·.jsonName)) ∧ ((members.map (·.jsonName)).map nameOf).Nodup) := by
  refine ⟨Data.distinctNames_toDocument, fun κ name members data read => ?_,
    fun root members sample projected => ?_, fun handle result h => ?_⟩
  · obtain ⟨entries, whole, faithful⟩ := Json.isFaithful_iff read
    exact ⟨entries, whole, faithful, fun formatting => Json.exists_renderAt formatting data 0⟩
  · have titled := (everyObject_project projected).1
    exact ⟨titled, fun plain => titled.imp (fun titles ht => ht.areApart plain) sample⟩
  · obtain ⟨found, c, members, sample, data, text, required, projected, hdata, written, rfl⟩ := ok_of_serialize h
    obtain ⟨-, samples, rfl, titled⟩ := everyObject_project projected
    have narrow := (Json.isNarrow_toData _ data hdata).1
    obtain ⟨entries, hentries, rfl⟩ := ok_of_map hdata
    have keys := Json.keys_toDataEntries hentries
    rw [List.map_id, titled] at keys
    have writable : (Data.ofEntries entries).IsWritable := (Json.exists_renderAt _ _ 0).mp ⟨text, written⟩
    have counted := rereadEntries_putEntries writable
    rw [keys, show entries.length = members.length by simpa using congrArg List.length keys] at counted
    exact ⟨found, c, members, _, _, required, projected, rfl, Json.decode_renderData narrow written, counted⟩

/-- A renamed member beside one that has the name. -/
def pair : World where
  classes :=
    [⟨"Pair", "Pair", .text "pair", "pair", [.standard .object], ⟨.standard .object, true, true⟩,
      .table [("first", .cls (.standard .str)), ("second", .cls (.standard .str))], [],
      some [⟨"first", .regular, [(.str jsonKey, .str "second")]⟩, ⟨"second", .regular, []⟩], none⟩]
  modules := []
  memory := .empty

/-- Of the two members the text shows one. -/
theorem objects_named_pair : ∃ (result : Serialized) (members : List ReflectedMember)
      (shown : List (Text × Json.Document)),
    pair.serialize ⟨.declaredOnly, .ignore, .compact⟩ (some ⟨"pair.Pair", some (.declared 0), true, none⟩) =
      .ok result ∧
    result.text = "\x7b\"second\":\"\"\x7d" ∧ result.memberCount = 2 ∧ result.memberCount = members.length ∧
    Hooks.document.decode result.text = some (.object shown) ∧
    (shown.length = result.memberCount ∧ (names shown).Nodup ↔
      Data.AreApart (members.map (·.jsonName)) ∧ ((members.map (·.jsonName)).map nameOf).Nodup) := by
  have made : (pair.serialize ⟨.declaredOnly, .ignore, .compact⟩
      (some ⟨"pair.Pair", some (.declared 0), true, none⟩)).toOption.map
        (fun result => (result.text, result.memberCount)) = some (("\x7b\"second\":\"\"\x7d" : Text), 2) := by
    decide +kernel
  obtain ⟨result, serialized, hmade⟩ := exists_ok_of_map made
  obtain ⟨htext, hcount⟩ := Prod.mk.inj hmade
  obtain ⟨-, -, -, counts⟩ := objects_named pair ⟨.declaredOnly, .ignore, .compact⟩
  obtain ⟨found, c, members, sample, shown, -, -, counted, decoded, apart⟩ := counts _ result serialized
  exact ⟨result, members, shown, serialized, htext, hcount, counted, decoded, apart⟩

/-- Two keys that are apart have one text: the object names it twice, and the text of its dictionary shows it once. -/
theorem objects_named_twice :
    Data.AreApart [.int 1, .str "1"] ∧
    (Data.dict [(.int 1, .str "a"), (.str "1", .str "b")]).toDocument =
      .ok (.object [("1", .string "a"), ("1", .string "b")]) ∧
    ¬ (Json.Value.object [(("1" : Text), .string "a"), ("1", .string "b")]).DistinctNames ∧
    Json.render .compact (.object [("1", .string "a"), ("1", .string "b")]) = .ok "\x7b\"1\":\"b\"\x7d" :=
  ⟨by decide, rfl, by decide, by cbv⟩

end Serialized

end Specimen.World
