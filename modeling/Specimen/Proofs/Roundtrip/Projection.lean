import Specimen.Proofs.Loading.Module
import Specimen.Proofs.Projection.Policies
import Specimen.Proofs.Reflection.Dataclass
import Specimen.Proofs.Roundtrip.Documents
import Specimen.Proofs.Schema.Walk

/-! Projection of the classes of a loaded module of dataclasses. Members lead from each class to classes
loaded before it, so no class is met again, and each class shows a document that represents its record. -/
namespace Specimen
open Emission (attributeNames dataclassOf)
open Json (Document)
open Loading (IsLoaded IsEmitted)
open TypeGraph (Layered Represents)

/-- The annotations of the classes of records denote the types of the fields. -/
def World.Annotates (world : World) (moduleName : Text) (records : List RecordType) : Prop :=
  ∀ record ∈ records, ∀ c, List.lookup record.name (world.namesOf moduleName) = some (.cls c) →
    ∀ pair ∈ (attributeNames record.fields).zip record.fields, ∃ d,
      List.lookup pair.1 (world.ownAnnotations c).entries = some d ∧
        pair.2.Denotes (world.namesOf moduleName) d

/-- A member shows a field: under its key, with the type of its values. -/
structure Shows (names : Bindings) (field : Field) (member : ReflectedMember) : Prop where
  key : member.jsonName = .str field.key
  type : field.type.shown.Denotes names member.type
  isCollection : member.isCollection = field.type.isArray

theorem jsonNames_eq {names : Bindings} {fields : List Field} {members : List ReflectedMember}
    (shows : List.Forall₂ (Shows names) fields members) :
    members.map (·.jsonName) = fields.map fun field => .str field.key := by
  induction shows with
  | nil => rfl
  | cons first _ ih => rw [List.map_cons, List.map_cons, first.key, ih]

/-- The members of a sample as those of a document. -/
def samplesOf (members : List (Text × Document)) : List (Data × Sample) :=
  members.map fun member => (.str member.1, member.2.mapNames .str)

theorem mapNames_object (members : List (Text × Document)) :
    (Json.Value.object members).mapNames Data.str = .object (samplesOf members) := by
  rw [Json.Value.mapNames]
  refine congrArg Json.Value.object ?_
  induction members with
  | nil => rfl
  | cons member rest ih => rw [Json.Value.mapNamesMembers, ih]; rfl

section Class
variable {world : World} {index : Nat} {info : ClassInfo} {moduleName : Text}
  {attrs : List Emission.Attribute} {written : List Referent}

/-- Documents show the members of a class of an emitted dataclass. -/
theorem Reflectable.isRecord (h : Reflectable world index info moduleName attrs written) :
    world.isRecord (.cls (.declared index)) = .ok true := by
  have other : ∀ s : StandardClass, s ≠ .object → world.descends (.declared index) s = false := by
    intro s hs
    simp [World.descends, h.resolutionOrder_eq, hs]
  have scalar : world.scalar? (.declared index) = none := by
    rw [World.scalar?, Option.map_eq_none_iff, List.find?_eq_none]
    have apart : ∀ entry ∈ World.placeholders, entry.1 ≠ .object := by decide
    exact fun entry he => by simp [other entry.1 (apart entry he)]
  rw [World.isRecord]
  simp [h.not_isBuiltin, other .enum (by decide), scalar, h.isDataclass]

end Class

section Members
variable {world : World} {moduleName : Text} {first : Nat} {records : List RecordType}

private theorem forall₂_of_zip {holds : Field → Referent → Prop} {names : List Text}
    {fields : List Field} {written : List Referent} (nodup : names.Nodup) (hf : names.length = fields.length)
    (hw : names.length = written.length)
    (h : ∀ pair ∈ names.zip fields, ∃ d, List.lookup pair.1 (names.zip written) = some d ∧ holds pair.2 d) :
    List.Forall₂ holds fields written := by
  induction names generalizing fields written with
  | nil =>
    rw [List.eq_nil_of_length_eq_zero hf.symm, List.eq_nil_of_length_eq_zero hw.symm]
    exact .nil
  | cons name rest ih =>
    obtain ⟨field, fields, rfl⟩ := List.exists_cons_of_length_eq_add_one hf.symm
    obtain ⟨d, written, rfl⟩ := List.exists_cons_of_length_eq_add_one hw.symm
    obtain ⟨fresh, hnodup⟩ := List.nodup_cons.mp nodup
    obtain ⟨found, hfound, hd⟩ := h (name, field) List.mem_cons_self
    rw [List.zip_cons_cons, List.lookup_cons_self] at hfound
    cases hfound
    refine .cons hd (ih hnodup (Nat.succ.inj hf) (Nat.succ.inj hw) fun pair hp => ?_)
    obtain ⟨other, hother, hholds⟩ := h pair (List.mem_cons_of_mem _ hp)
    have hne : name ≠ pair.1 := fun he => fresh (he ▸ (List.of_mem_zip hp).1)
    rw [List.zip_cons_cons, lookup_cons_ne hne] at hother
    exact ⟨other, hother, hholds⟩

private theorem forall₂_shows {bindings : Bindings} {index : Nat} {names : List Text}
    {fields : List Field} {written : List Referent} (length : names.length = fields.length)
    (denotes : List.Forall₂ (Field.Denotes bindings) fields written) :
    List.Forall₂ (Shows bindings) fields
      ((((names.zip fields).map fun (name, field) => Emission.attributeOf name field).zip written).map
        fun pair => memberOf index pair.1 pair.2) := by
  induction denotes generalizing names with
  | nil =>
    rw [List.zip_nil_right]
    exact .nil
  | cons hd _ ih =>
    obtain ⟨name, names, rfl⟩ := List.exists_cons_of_length_eq_add_one length
    obtain ⟨item, type, hread⟩ := hd.read_eq
    refine .cons ⟨rfl, ?_, ?_⟩ (ih (Nat.succ.inj length))
    · simpa only [memberOf, hread] using type
    · simp only [memberOf, hread]

private theorem exists_of_forall₂ {α β : Type} {relation : α → β → Prop} {left : List α}
    {right : List β} (h : List.Forall₂ relation left right) : ∀ b ∈ right, ∃ a, relation a b := by
  induction h with
  | nil => exact nofun
  | cons first _ ih =>
    intro b hb
    rcases List.mem_cons.mp hb with rfl | hb
    · exact ⟨_, first⟩
    · exact ih b hb

/-- Reflection gives each class a member for each field of its record, whatever is remembered. -/
theorem exists_members (loaded : IsLoaded world moduleName first records)
    (outside : moduleName ≠ StandardClass.builtinModule) (annotates : world.Annotates moduleName records)
    {k : Nat} {record : RecordType} (hk : records[k]? = some record) :
    world.isRecord (.cls (.declared (first + k))) = .ok true ∧ ∃ members,
      (∀ visibility memory,
        world.reflection visibility (.declared (first + k)) memory = (.ok members, memory)) ∧
        List.Forall₂ (Shows (world.namesOf moduleName)) record.fields members := by
  obtain ⟨info, written, found, emitted⟩ := loaded.emitted k record hk
  have names := Emission.names_attributes record
  have lengths := Emission.length_attributeNames record.fields
  have nodup := Emission.nodup_attributeNames record.fields
  have count : (attributeNames record.fields).length = written.length := by
    rw [emitted.length, ← names, List.length_map]
  have entries : world.ownAnnotations (.declared (first + k)) =
      .table ((attributeNames record.fields).zip written) := by
    simp [World.ownAnnotations, World.info?, found, emitted.annotations, names]
  have denotes : List.Forall₂ (Field.Denotes (world.namesOf moduleName)) record.fields written := by
    refine forall₂_of_zip nodup lengths count ?_
    have annotated := annotates record (List.mem_of_getElem? hk) _ (loaded.bound k record hk)
    rwa [entries] at annotated
  have reflectable :
      Reflectable world (first + k) info moduleName (dataclassOf record).attributes written := by
    refine ⟨found, emitted, outside, fun attr ha => ?_, names ▸ nodup, fun d hd => ?_⟩
    · exact Emission.attributeNames_public attr.name (names ▸ List.mem_map_of_mem ha)
    · obtain ⟨field, hfield⟩ := exists_of_forall₂ denotes d hd
      exact ⟨_, field, hfield⟩
  refine ⟨reflectable.isRecord, _,
    fun visibility memory => reflectable.yields_reflect visibility memory, ?_⟩
  rw [Emission.attributes_eq]
  exact forall₂_shows lengths denotes

end Members

private theorem TypeRef.Denotes.eq_of_object {names : Bindings} {name : Text} {index : Nat} {d : Referent}
    (h : (TypeRef.object name).Denotes names d)
    (bound : List.lookup name names = some (.cls (.declared index))) :
    d = .cls (.declared index) := by
  cases h with
  | object own => exact Option.some.inj (own.symm.trans bound)

private theorem TypeRef.target?_of_shown {type : TypeRef} {name : Text} (h : type.shown = .object name) :
    type.target? = some name := by
  cases type with
  | object other =>
    cases h
    rfl
  | array element =>
    cases h
    rfl
  | _ => cases h

section Entries
variable {world : World} {graph : TypeGraph} {names : Bindings} {field : Field} {member : ReflectedMember}

private theorem entry_sample {sample : Sample} (h : world.isRecord member.type = .ok false)
    (hs : world.plainSample member = .ok sample) : world.entry member = .ok (.inr sample) := by
  rw [World.entry.eq_def, h, hs]
  cases member.type <;> rfl

private theorem entry_record {target : ClassRef} (ht : member.type = .cls target)
    (h : world.isRecord (.cls target) = .ok true) : world.entry member = .ok (.inl target) := by
  rw [World.entry.eq_def, ht, h]

/-- A member for a field that shows no record has a sample of the field's type. -/
private theorem Shows.exists_sample (shows : Shows names field member)
    (plain : ∀ name, field.type.shown ≠ .object name) :
    ∃ document, world.entry member = .ok (.inr (document.mapNames .str)) ∧
      graph.Represents field.type document := by
  obtain ⟨key, type, isCollection⟩ := shows
  obtain ⟨name, jsonName, mtype, collection, optional, declaring, inherited⟩ := member
  obtain ⟨fkey, fname, ftype, foptional⟩ := field
  cases isCollection
  cases ftype with
  | null =>
    cases type
    exact ⟨.null, entry_sample rfl rfl, .null⟩
  | any =>
    cases type
    exact ⟨.null, entry_sample rfl rfl, .any⟩
  | scalar kind =>
    cases type
    cases kind
    · exact ⟨.bool false, entry_sample rfl rfl, .boolean⟩
    · exact ⟨.number "0", entry_sample rfl rfl, .integer⟩
    · exact ⟨.number "0.0", entry_sample rfl rfl, .float⟩
    · exact ⟨.string [], entry_sample rfl rfl, .string⟩
  | object name => exact absurd rfl (plain name)
  | array element =>
    refine ⟨.array [], entry_sample ?_ rfl, .empty plain⟩
    cases element with
    | object name => exact absurd rfl (plain name)
    | _ =>
      cases type
      rfl

end Entries

section Expansion
variable {world : World} {moduleName : Text} {first : Nat} {records : List RecordType} {graph : TypeGraph}
  {visibility : Visibility}

/-- Members that show fields are expanded along a path: each key gets a document that represents the type
of its field, no class is met again, and nothing is remembered. -/
def IsExpanded (world : World) (visibility : Visibility) (graph : TypeGraph) (path : List ClassRef)
    (memory : Memory) (fields : List Field) (members : List ReflectedMember) : Prop :=
  ∃ documents trail,
    World.Expands world visibility path memory members (.ok (samplesOf documents)) memory trail ∧
      trail.loops = [] ∧ documents.map (·.1) = fields.map (·.key) ∧
      ∀ pair ∈ fields.zip documents, graph.Represents pair.1.type pair.2.2

/-- The name of a record leads to a class that is not on the path and is expanded behind it. -/
structure Opens (world : World) (visibility : Visibility) (graph : TypeGraph) (names : Bindings)
    (path : List ClassRef) (name : Text) : Prop where
  exists_class : ∃ index record members,
    List.lookup name names = some (.cls (.declared index)) ∧
      world.isRecord (.cls (.declared index)) = .ok true ∧ .declared index ∉ path ∧
      graph.find? name = some record ∧ ∀ memory,
        world.reflection visibility (.declared index) memory = (.ok members, memory) ∧
          IsExpanded world visibility graph (path ++ [.declared index]) memory record.fields members

/-- The document of a field whose values or items are a record. -/
def recordDocument (type : TypeRef) (documents : List (Text × Document)) : Document :=
  if type.isArray then .array [.object documents] else .object documents

private theorem shownSample_eq {names : Bindings} {field : Field} {member : ReflectedMember}
    (shows : Shows names field member) (documents : List (Text × Document)) :
    World.shownSample member (.object (samplesOf documents)) =
      (recordDocument field.type documents).mapNames .str := by
  rw [World.shownSample, recordDocument, shows.isCollection, ← mapNames_object]
  split <;> rfl

private theorem represents_record {type : TypeRef} {name : Text} {record : RecordType}
    {documents : List (Text × Document)} (shown : type.shown = .object name)
    (found : graph.find? name = some record) (keys : documents.map (·.1) = record.fields.map (·.key))
    (values : ∀ pair ∈ record.fields.zip documents, graph.Represents pair.1.type pair.2.2) :
    graph.Represents type (recordDocument type documents) := by
  cases type with
  | object other =>
    cases shown
    exact .object found keys values
  | array element =>
    cases shown
    exact .item (.object found keys values)
  | _ => cases shown

/-- Members for fields whose records can be opened are expanded, one after the other. -/
private theorem isExpanded_of_opens {names : Bindings} {path : List ClassRef} {memory : Memory}
    {fields : List Field} {members : List ReflectedMember} (shows : List.Forall₂ (Shows names) fields members)
    (opens : ∀ field ∈ fields, ∀ name, field.type.shown = .object name →
      Opens world visibility graph names path name) :
    IsExpanded world visibility graph path memory fields members := by
  induction shows with
  | nil => exact ⟨[], _, .nil, rfl, rfl, nofun⟩
  | @cons field member rest others first _ ih =>
    obtain ⟨documents, trail, expands, quiet, keys, values⟩ :=
      ih fun field hf => opens field (List.mem_cons_of_mem _ hf)
    -- the field's own document, before those of the others
    have put : ∀ {document : Document} {trail : Trail}, graph.Represents field.type document →
        trail.loops = [] → World.Expands world visibility path memory (member :: others)
          ((Except.ok (samplesOf documents)).map ((member.jsonName, document.mapNames .str) :: ·))
            memory trail →
        IsExpanded world visibility graph path memory (field :: rest) (member :: others) := by
      intro document trail represents quiet expands
      rw [first.key] at expands
      refine ⟨(field.key, document) :: documents, trail, expands, quiet, ?_, fun pair hp => ?_⟩
      · rw [List.map_cons, List.map_cons, keys]
      · rcases List.mem_cons.mp hp with rfl | hp
        · exact represents
        · exact values pair hp
    by_cases shown : ∃ name, field.type.shown = .object name
    · obtain ⟨name, shown⟩ := shown
      obtain ⟨index, record, inner, bound, isRecord, fresh, found, reaches⟩ :=
        (opens field List.mem_cons_self name shown).exists_class
      obtain ⟨reflected, nested, inside, expands', quiet', keys', values'⟩ := reaches memory
      have target := (shown ▸ first.type).eq_of_object bound
      have opened := World.Expands.nested (entry_record target isRecord) fresh reflected expands' expands
      rw [shownSample_eq first nested] at opened
      exact put (represents_record shown found keys' values')
        (List.append_eq_nil_iff.mpr ⟨quiet', quiet⟩) opened
    · obtain ⟨document, hentry, represents⟩ := @Shows.exists_sample world graph _ _ _ first
        fun name hn => shown ⟨name, hn⟩
      exact put represents quiet (.plain hentry expands)

/-- The class of a record is expanded along every path of classes that were not loaded before it. -/
theorem isExpanded_of_loaded (loaded : IsLoaded world moduleName first records)
    (outside : moduleName ≠ StandardClass.builtinModule) (annotates : world.Annotates moduleName records)
    (layered : Layered records) (finds : ∀ record ∈ records, graph.find? record.name = some record)
    (k : Nat) : ∀ record, records[k]? = some record → ∀ path : List ClassRef,
      (∀ c ∈ path, ∃ i, k ≤ i ∧ c = .declared (first + i)) → ∀ members memory,
      List.Forall₂ (Shows (world.namesOf moduleName)) record.fields members →
      IsExpanded world visibility graph path memory record.fields members := by
  induction k using Nat.strongRecOn with
  | _ k deeper =>
    intro record hk path later members memory shows
    refine isExpanded_of_opens shows fun field hf name shown => ⟨?_⟩
    -- the record that the field leads to stands before its own
    obtain ⟨j, hj, inner, hinner, rfl⟩ := layered.exists_lower hk
      (TypeGraph.mem_targetsOf.mpr ⟨field, hf, TypeRef.target?_of_shown shown⟩)
    obtain ⟨isRecord, members, reflected, shows⟩ := exists_members loaded outside annotates hinner
    refine ⟨first + j, inner, members, loaded.bound j inner hinner, isRecord, fun hin => ?_,
      finds inner (List.mem_of_getElem? hinner), fun memory => ⟨reflected visibility memory, ?_⟩⟩
    · obtain ⟨i, hi, he⟩ := later _ hin
      have := ClassRef.declared.inj he
      omega
    · refine deeper j hj inner hinner _ (fun c hc => ?_) members memory shows
      rcases List.mem_append.mp hc with hc | hc
      · obtain ⟨i, hi, rfl⟩ := later c hc
        exact ⟨i, by omega, rfl⟩
      · exact ⟨j, Nat.le_refl j, List.mem_singleton.mp hc⟩

end Expansion

end Specimen
