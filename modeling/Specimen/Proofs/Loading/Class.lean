import Specimen.Proofs.Json.Names
import Specimen.Proofs.Loading.Body

/-! Classes made of emitted dataclasses. Such a class keeps the annotations of its body, its fields are
its attributes with their keys as metadata, and it has no bases. -/
namespace Specimen
open Emission (Attribute)

namespace Loading

/-- The body as its class is made a dataclass: without the name of the class. -/
def finished (frame : Frame) (attrs : List Attribute) (written : List Referent) : Body :=
  (collected frame attrs written).without [Body.qualnameKey]

/-- The name under which a class asks that its annotations are not evaluated. -/
def uncheckedName : Text := "__no_type_check__"

/-- Attributes without computed ones, of which none asks that annotations are not evaluated. -/
def ArePlain (attributes : List (Text × ClassAttribute)) : Prop :=
  ∀ entry ∈ attributes, entry.2.isProperty = false ∧ entry.1 ≠ uncheckedName

/-- The field of a dataclass that an attribute makes. -/
def regularField (attr : Attribute) : DataField :=
  ⟨attr.name, .regular, [(.str jsonKey, .str attr.key)]⟩

/-- What makes a regular field of the name it annotates. -/
def IsRegular (d : Referent) : Prop := (∀ expr, d ≠ .text expr) ∧ Dataclass.roleOf d = some .regular

/-- A class made of an emitted dataclass in a module. -/
structure IsEmitted (moduleName : Text) (attrs : List Attribute) (written : List Referent)
    (info : ClassInfo) : Prop where
  label : info.label = .text moduleName
  ancestors : info.ancestors = [.standard .object]
  annotations : info.annotations = .table ((attrs.map (·.name)).zip written)
  length : written.length = attrs.length
  attributes : ArePlain info.attributes
  isDataclass : info.fields.isSome
  fields : (∀ d ∈ written, IsRegular d) → info.fields = some (attrs.map regularField)

section Attributes
variable {name : Text} {value : ClassAttribute} {names : List Text} {body : Body}
  {entries : List (Text × ClassAttribute)}

theorem ArePlain.bind (h : ArePlain body.attributes) (hvalue : value.isProperty = false)
    (hname : name ≠ uncheckedName) : ArePlain (body.bind name value).attributes := by
  intro entry he
  rcases Json.mem_put he with rfl | he
  · exact ⟨hvalue, hname⟩
  · exact h entry he

theorem ArePlain.without (h : ArePlain body.attributes) (names : List Text) :
    ArePlain (body.without names).attributes :=
  fun entry he => h entry (List.mem_filter.mp he).1

private theorem attribute?_without (h : name ∉ names) :
    (body.without names).attribute? name = body.attribute? name := by
  rw [Body.attribute?, Body.attribute?, Body.without, lookup_filter fun _ => by simp [h]]

private theorem attribute?_bind_ne {other : Text} (h : other ≠ name) :
    (body.bind other value).attribute? name = body.attribute? name :=
  lookup_put_ne h value body.attributes

end Attributes

section Finished
variable {frame : Frame} {attrs : List Attribute} {written : List Referent} {world : World}
  (hpublic : ∀ attr ∈ attrs, attr.name.startsWith "_" = false)
include hpublic

theorem notMem_names {special : Text} (hs : special.startsWith "_" = true) :
    special ∉ attrs.map (·.name) := by
  intro hin
  obtain ⟨attr, ha, he⟩ := List.mem_map.mp hin
  exact ne_of_public (hpublic attr ha) hs he

private theorem arePlain_finished : ArePlain (finished frame attrs written).attributes := by
  refine ArePlain.without (fun entry he => ?_) _
  rcases List.mem_append.mp he with he | he
  · have names : ∀ name ∈ [Body.moduleKey, Body.qualnameKey], name ≠ uncheckedName := by decide
    rcases List.mem_pair.mp he with rfl | rfl
    · exact ⟨rfl, names _ List.mem_cons_self⟩
    · exact ⟨rfl, names _ (List.mem_cons_of_mem _ List.mem_cons_self)⟩
  · obtain ⟨attr, ha, rfl⟩ := List.mem_map.mp he
    exact ⟨rfl, ne_of_public (hpublic attr ha) (by decide)⟩

private theorem layOut_collected (c : ClassRef) :
    layOut frame world c [.standard .object] (collected frame attrs written) =
      .ok (Layout.plain world c (.standard .object), []) := by
  have unplaced : (collected frame attrs written).attribute? placesName = none := by
    rw [collected_attribute?_of_notMem (notMem_names hpublic (by decide))]
    exact lookup_eq_none (show placesName ∉ [Body.moduleKey, Body.qualnameKey] by decide)
  rw [layOut]
  have base : Layout.choose world [.standard .object] = .ok (.standard .object) := rfl
  simp only [bind, Except.bind, base, unplaced]
  rfl

private theorem takeQualname_collected :
    takeQualname frame world (collected frame attrs written) =
      .ok (List.intercalate "." frame.path, finished frame attrs written) := by
  have found : (collected frame attrs written).attribute? Body.qualnameKey =
      some (.plain (.data (.str (List.intercalate "." frame.path)))) := by
    rw [collected_attribute?_of_notMem (notMem_names hpublic (by decide))]
    rfl
  rw [takeQualname, found]
  rfl

private theorem labelOf_finished : labelOf (finished frame attrs written) = .text frame.moduleName := by
  have found : (finished frame attrs written).attribute? Body.moduleKey =
      some (.plain (.data (.str frame.moduleName))) := by
    rw [finished, attribute?_without (by decide),
      collected_attribute?_of_notMem (notMem_names hpublic (by decide))]
    rfl
  rw [labelOf, found]

private theorem attribute?_finished (nodup : (attrs.map (·.name)).Nodup) {attr : Attribute}
    (ha : attr ∈ attrs) :
    (finished frame attrs written).attribute? attr.name = some (specification attr) := by
  have hm := ne_of_public (hpublic attr ha) (show Body.moduleKey.startsWith "_" = true by decide)
  have hq := ne_of_public (hpublic attr ha) (show Body.qualnameKey.startsWith "_" = true by decide)
  have free : attr.name ∉ (frame.start false).attributes.map (·.1) := by
    simp [Frame.start, Body.start, hm, hq]
  rw [finished, attribute?_without (by simpa using hq), Body.attribute?, collected, List.lookup_append,
    lookup_eq_none free, Option.none_or]
  refine lookup_of_mem ?_ (List.mem_map.mpr ⟨attr, ha, rfl⟩)
  rwa [List.map_map]

end Finished

end Loading

namespace Dataclass
open Loading
variable {world : World} {className moduleName : Text} {ancestors : List ClassRef} {body settled : Body}

/-- Reading field specifications leaves the annotations as they are and makes nothing computed. -/
private theorem settle_spec {names : List Text} (h : settle world className ancestors body names = .ok settled)
    (hpublic : ∀ name ∈ names, name.startsWith "_" = false) (plain : ArePlain body.attributes) :
    settled.annotations = body.annotations ∧ ArePlain settled.attributes := by
  induction names generalizing body with
  | nil =>
    cases h
    exact ⟨rfl, plain⟩
  | cons name rest ih =>
    have others := fun other ho => hpublic other (List.mem_cons_of_mem name ho)
    have special := ne_of_public (hpublic name List.mem_cons_self)
      (show uncheckedName.startsWith "_" = true by decide)
    rw [settle] at h
    split at h
    · obtain ⟨annotations, hplain⟩ := ih h others (plain.bind rfl special)
      exact ⟨annotations, hplain⟩
    · have hrest : settle world className ancestors (body.without [name]) rest = .ok settled := by
        by_cases fixed : fixedNames.contains name = true
        · rw [if_pos fixed] at h
          cases h
        · by_cases absent : (List.lookup name body.attributes).isNone = true
          · rw [if_neg fixed, if_pos absent] at h
            cases h
          · rw [if_neg fixed, if_neg absent] at h
            exact h
      obtain ⟨annotations, hplain⟩ := ih hrest others (plain.without [name])
      exact ⟨annotations, hplain⟩
    · exact ih h others plain

private theorem name_fieldOf {name : Text} {role : FieldRole} {field : DataField}
    (h : fieldOf world ancestors body name role = .ok field) : field.name = name := by
  rw [fieldOf] at h
  split at h
  · cases h
    rfl
  · split at h
    · cases h
    · cases h
      rfl
  · split at h
    · cases h
    · cases h
      rfl
  · cases h
    rfl

/-- The own fields have the names of annotations, in their order; at most one of these is a mark. -/
theorem ownFields_spec {isMarked : Bool} {entries : Bindings} {own : List DataField}
    (h : ownFields world moduleName ancestors body isMarked entries = .ok own) :
    (own.map (·.name)).Sublist (entries.map (·.1)) ∧ entries.length ≤ own.length + if isMarked then 0 else 1 := by
  induction entries generalizing isMarked own with
  | nil =>
    cases h
    exact ⟨.slnil, Nat.zero_le _⟩
  | cons entry rest ih =>
    obtain ⟨name, written⟩ := entry
    rw [ownFields] at h
    obtain ⟨role, -, hown⟩ := ok_of_bind h
    cases role with
    | some role =>
      obtain ⟨first, hfirst, hothers⟩ := ok_of_bind hown
      obtain ⟨others, hrest, ⟨⟩⟩ := ok_of_bind hothers
      obtain ⟨sublist, length⟩ := ih hrest
      rw [List.map_cons, List.map_cons, name_fieldOf hfirst, List.length_cons, List.length_cons]
      exact ⟨sublist.cons_cons name, by omega⟩
    | none =>
      dsimp only at hown
      split at hown
      · cases hown
      · rename_i unmarked
        obtain ⟨sublist, length⟩ := ih hown
        rw [if_pos rfl] at length
        rw [if_neg unmarked, List.length_cons]
        exact ⟨sublist.cons name, by omega⟩

private theorem foldl_put {fields : List DataField} (kept : List DataField)
    (nodup : ((kept ++ fields).map (·.name)).Nodup) :
    fields.foldl (fun kept field => Json.put field.name field kept)
      (kept.map fun field => (field.name, field)) =
        (kept ++ fields).map fun field => (field.name, field) := by
  induction fields generalizing kept with
  | nil => rw [List.append_nil, List.foldl_nil]
  | cons field rest ih =>
    have fresh : field.name ∉ (kept.map fun field => (field.name, field)).map (·.1) := by
      rw [List.map_append, List.map_cons] at nodup
      rw [List.map_map]
      exact fun hin => (List.nodup_append.mp nodup).2.2 _ hin _ List.mem_cons_self rfl
    have more : (kept.map fun field => (field.name, field)) ++ [(field.name, field)] =
        (kept ++ [field]).map fun field => (field.name, field) := by
      rw [List.map_append]
      rfl
    rw [List.foldl_cons, put_of_notMem fresh, more, ih _ (by rwa [List.append_assoc]),
      List.append_assoc]
    rfl

private theorem addFields_nil {fields : List DataField} (nodup : (fields.map (·.name)).Nodup) :
    addFields [] fields = fields := by
  rw [addFields, foldl_put [] nodup, List.map_map, List.nil_append]
  exact List.map_id _

/-- Where each name is bound to the specification of an attribute and annotated as a regular field, the
fields are those of the attributes. -/
private theorem ownFields_regular {attrs : List Attribute} {written : List Referent}
    (length : written.length = attrs.length) (regular : ∀ d ∈ written, IsRegular d)
    (hpublic : ∀ attr ∈ attrs, attr.name.startsWith "_" = false)
    (found : ∀ attr ∈ attrs, body.attribute? attr.name = some (specification attr)) :
    ownFields world moduleName ancestors body false ((attrs.map (·.name)).zip written) =
      .ok (attrs.map regularField) := by
  induction attrs generalizing written with
  | nil => rfl
  | cons attr rest ih =>
    obtain ⟨d, more, rfl⟩ := List.exists_cons_of_length_eq_add_one length
    obtain ⟨untexted, role⟩ := regular d List.mem_cons_self
    have hrole : role? world moduleName d = .ok (some .regular) := by
      rw [← role]
      cases d with
      | text expr => exact absurd rfl (untexted expr)
      | _ => rfl
    have special : ∀ name : Text, name.startsWith "_" = true → attr.name ≠ name :=
      fun _ hs => ne_of_public (hpublic attr List.mem_cons_self) hs
    have hfield : fieldOf world ancestors body attr.name .regular = .ok (regularField attr) := by
      have hdefault : default? world ancestors body attr.name = some (specification attr) := by
        rw [default?, if_neg (special _ (by decide)), if_neg (special _ (by decide)), bound?]
        rw [show List.lookup attr.name body.attributes = _ from found attr List.mem_cons_self]
        rfl
      rw [fieldOf, hdefault]
      rfl
    have others := ih (Nat.succ.inj length) (fun d hd => regular d (List.mem_cons_of_mem _ hd))
      (fun other ho => hpublic other (List.mem_cons_of_mem _ ho))
      (fun other ho => found other (List.mem_cons_of_mem _ ho))
    rw [List.map_cons, List.zip_cons_cons, ownFields, hrole]
    simp only [bind, Except.bind, hfield, others]
    rfl

/-- Made a dataclass, a body keeps its annotations, and the fields are those of its attributes. -/
private theorem make_finished {frame : Frame} {attrs : List Attribute} {written : List Referent}
    {fields : List DataField}
    (h : make world (.text moduleName) className [.standard .object] (finished frame attrs written) =
      .ok (fields, settled))
    (hpublic : ∀ attr ∈ attrs, attr.name.startsWith "_" = false) (nodup : (attrs.map (·.name)).Nodup)
    (length : written.length = attrs.length) :
    settled.annotations = .table ((attrs.map (·.name)).zip written) ∧ ArePlain settled.attributes ∧
      ((∀ d ∈ written, IsRegular d) → fields = attrs.map regularField) := by
  have names : ((attrs.map (·.name)).zip written).map (·.1) = attrs.map (·.name) :=
    List.map_fst_zip (by simp [length])
  -- of its parts, only reading the own fields and settling their names can change the body
  obtain ⟨-, -, hinheriting⟩ := ok_of_bind h
  obtain ⟨_, ⟨⟩, hreading⟩ := ok_of_bind hinheriting
  obtain ⟨_, ⟨⟩, hlisting⟩ := ok_of_bind hreading
  obtain ⟨own, hown, hsettling⟩ := ok_of_bind hlisting
  obtain ⟨kept, hkept, hchecking⟩ := ok_of_bind hsettling
  obtain ⟨-, -, ⟨⟩⟩ := ok_of_bind hchecking
  have hpublic' : ∀ name ∈ own.map (·.name), name.startsWith "_" = false := by
    intro name hn
    obtain ⟨field, hf, rfl⟩ := List.mem_map.mp hn
    obtain ⟨attr, ha, he⟩ := List.mem_map.mp (names ▸ (ownFields_spec hown).1.subset (List.mem_map_of_mem hf))
    exact he ▸ hpublic attr ha
  obtain ⟨annotations, plain⟩ :=
    settle_spec hkept hpublic' ((arePlain_finished hpublic).bind rfl (by decide))
  refine ⟨annotations, plain.bind rfl (by decide), fun regular => ?_⟩
  have found : ∀ attr ∈ attrs,
      (keep World.parametersName (finished frame attrs written)).attribute? attr.name =
        some (specification attr) := by
    intro attr ha
    rw [keep, attribute?_bind_ne (ne_of_public (hpublic attr ha) (by decide)).symm]
    exact attribute?_finished hpublic nodup ha
  cases (ownFields_regular length regular hpublic found).symm.trans hown
  exact addFields_nil (by rwa [List.map_map])

end Dataclass

namespace Loading
variable {frame : Frame} {attrs : List Attribute} {written : List Referent} {world after : World}
  {c : ClassRef}

/-- The class of a body is put behind those that there are. -/
private theorem finishClass_collected
    (h : Gives (finishClass frame true ⟨[], false, false, none⟩ none (collected frame attrs written))
      world c after)
    (hpublic : ∀ attr ∈ attrs, attr.name.startsWith "_" = false) (nodup : (attrs.map (·.name)).Nodup)
    (length : written.length = attrs.length) :
    c = .declared world.classes.length ∧ ∃ info, IsEmitted frame.moduleName attrs written info ∧
      after = { world with classes := world.classes ++ [info] } := by
  rw [finishClass] at h
  obtain ⟨_, ⟨⟩, hlaying⟩ := h.bind_get.bind_lift
  obtain ⟨_, layout, htaking⟩ := hlaying.bind_lift
  cases (layOut_collected hpublic _).symm.trans layout
  obtain ⟨_, taken, hchecking⟩ := htaking.bind_lift
  cases (takeQualname_collected hpublic).symm.trans taken
  obtain ⟨-, -, hordering⟩ := hchecking.bind_lift
  obtain ⟨_, ⟨⟩, hannouncing⟩ := hordering.bind_lift
  obtain ⟨-, -, hmaking⟩ := hannouncing.bind_lift
  obtain ⟨⟨fields, settled⟩, made, hkeeping⟩ := hmaking.bind_pure.bind_lift
  obtain ⟨_, _, hset, hreturn⟩ := hkeeping.bind_pure.bind
  obtain ⟨rfl, rfl⟩ := hreturn.pure
  have label : labelOf (bindPlaces (finished frame attrs written) []) = .text frame.moduleName :=
    labelOf_finished hpublic
  rw [label] at made
  obtain ⟨annotations, plain, hfields⟩ := Dataclass.make_finished made hpublic nodup length
  refine ⟨rfl, _, ⟨label, rfl, annotations, length, plain, rfl, fun regular => ?_⟩, hset.set⟩
  exact congrArg some (hfields regular)

/-- The class of an emitted dataclass is put behind those that there are. -/
theorem createClass_emitted {moduleName : Text} {declared : Emission.Dataclass}
    (h : Gives (createClass moduleName false declared.source) world c after)
    (hpublic : ∀ attr ∈ declared.attributes, attr.name.startsWith "_" = false)
    (nodup : (declared.attributes.map (·.name)).Nodup) :
    c = .declared world.classes.length ∧ ∃ info written memory,
      IsEmitted moduleName declared.attributes written info ∧
        after = { world with classes := world.classes ++ [info], memory } := by
  rw [createClass] at h
  obtain ⟨-, -, hinheriting⟩ := h.bind_get.bind_lift
  obtain ⟨_, ⟨⟩, hbeginning⟩ := hinheriting.bind_lift
  obtain ⟨_, ⟨⟩, hrunning⟩ := hbeginning.bind_lift
  obtain ⟨_, _, hbody, hfinishing⟩ := hrunning.bind
  let frame : Frame := ⟨moduleName, world.namesOf moduleName, false, [declared.name]⟩
  obtain ⟨written, memory, length, rfl, rfl⟩ :=
    @runMembers_collected frame [] declared.attributes [] world _ _ hbody hpublic nodup rfl
  obtain ⟨rfl, info, emitted, rfl⟩ := finishClass_collected hfinishing hpublic nodup length
  exact ⟨rfl, info, written, memory, emitted, rfl⟩

end Loading

end Specimen
