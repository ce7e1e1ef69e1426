import Specimen.Proofs.Projection.FieldOrder
import Specimen.Proofs.Projection.Titles
import Specimen.Proofs.Resolution.Reached

/-! The order of members. They come in the order of a dataclass's fields where the farthest class that knows a name
annotates it as one of its own fields. -/
namespace Specimen.World
variable {world : World} {c k : ClassRef} {name : Text} {names : List Text} {fields : List DataField}

section Members
variable {visibility : Visibility} {memory middle after : Memory} {members : List ReflectedMember} {hints : Bindings}

/-- No class in the order of another one declares a name but as a field, once. -/
def DeclaresAsField (world : World) (c : ClassRef) (name : Text) : Prop :=
  ∀ k ∈ world.resolutionOrder c, name ∈ (world.ownAnnotations k).entries.map (·.1) ∨ name ∈ world.ownProperties k →
    name ∈ world.annotatedNames k ∧ name ∈ world.fieldNames k ∧ (world.annotatedNames k).Nodup

/-- A field that is declared as one wherever it is declared is introduced. -/
private theorem IsOrdered.isIntroduced (ordered : world.IsOrdered) (own : world.ownFields? c = some fields)
    (has : name ∈ fields.map (·.name)) (plain : world.DeclaresAsField c name) : world.IsIntroduced c name := by
  have itself : world.fieldOwner c = c := by
    rw [fieldOwner, resolutionOrder_eq_cons, List.find?_cons_of_pos (by rw [ownFieldTable?_of_fields own]; rfl)]
    rfl
  cases first : world.introducer? c name with
  | none =>
    have unknown := List.find?_eq_none.mp first c (List.mem_reverse.mpr (world.mem_resolutionOrder_self c))
    have known : name ∈ world.fieldNames c := fieldNames_of_fields own ▸ has
    exact absurd (Bool.or_eq_true_iff.mpr (.inr (List.contains_iff_mem.mpr known))) unknown
  | some k =>
    have within : k ∈ world.resolutionOrder c := List.mem_reverse.mp (List.mem_of_find?_eq_some first)
    suffices declared : name ∈ (world.ownAnnotations k).entries.map (·.1) ∨ name ∈ world.ownProperties k by
      obtain ⟨annotated, given, nodup⟩ := plain k within declared
      exact ⟨k, itself.symm ▸ within, first, annotated, given, nodup⟩
    rcases known_of_introducer first with declared | has
    · exact (List.mem_append.mp declared).imp_left fun annotated => annotatedNames_of_mem annotated ▸ annotated
    · -- what makes it a field of this class is an annotation, since no class above knows it
      obtain ⟨fields, own⟩ := ordered.exists_fields_of_introducer first has
      obtain ⟨names, sublist, -, names_eq⟩ := ordered.extendsFields own
      rw [fieldNames_of_fields own, names_eq, mem_foldl_addName, mem_gather] at has
      rcases has with ⟨j, above, has⟩ | annotated
      · exact absurd has (ordered.unknown_above first j (List.mem_reverse.mp above)).2
      · exact .inl (sublist.subset annotated)

/-- The names of the fields that are told of a dataclass. -/
def regularNames (fields : List DataField) : List Text := (fields.filter (·.role = .regular)).map (·.name)

/-- A member belongs to the nearest class that declares it. -/
private theorem Reflects.declaring_spec (ordered : world.IsOrdered)
    (h : Reflects world visibility c memory members hints middle fields names) {member : ReflectedMember}
    (hm : member ∈ members) : ∃ nearer farther, world.resolutionOrder c = nearer ++ member.declaring :: farther ∧
      member.name ∈ world.declaredNames member.declaring ∧ ∀ k ∈ nearer, member.name ∉ world.declaredNames k := by
  obtain ⟨⟨name, written⟩, entry, -, rfl⟩ := (mem_membersOf h.shown).mp hm
  have named : name ∈ names :=
    (memberTypes_eq world c hints names middle).1 ▸ List.mem_map.mpr ⟨_, entry, rfl⟩
  rw [names_addMemberNames h.named] at named
  obtain ⟨k, within, declared⟩ := mem_gather.mp named
  obtain ⟨declaring, found⟩ := Option.isSome_iff_exists.mp
    (List.find?_isSome.mpr ⟨k, List.mem_reverse.mp within, ordered.declares_iff.mpr declared⟩)
  obtain ⟨declares, nearer, farther, order, others⟩ := List.find?_eq_some_iff_append.mp found
  obtain rfl : world.declaringClass c name = declaring := by
    rw [declaringClass, found]
    rfl
  refine ⟨nearer, farther, order, ordered.declares_iff.mp declares, fun j hj again => ?_⟩
  have apart : world.declares name j = false := by simpa using others j hj
  exact Bool.false_ne_true (apart.symm.trans (ordered.declares_iff.mpr again))

/-- Among the fields that are introduced, members come in the order of fields. -/
private theorem Reflects.sublist_regularNames (ordered : world.IsOrdered)
    (h : Reflects world visibility c memory members hints middle fields names) :
    ((members.map (·.name)).filter fun name => name ∈ regularNames fields ∧ world.IsIntroduced c name).Sublist
      (regularNames fields) := by
  have shown : (members.map (·.name)).Sublist names :=
    (memberTypes_eq world c hints names middle).1 ▸ sublist_membersOf h.shown
  have gathered : names = gather world.declaredNames (world.resolutionOrder c).reverse := names_addMemberNames h.named
  rcases fields_cases h.read with rfl | known
  · simp [regularNames]
  obtain ⟨within, own⟩ := fieldOwner_spec known
  have all : world.fieldNames (world.fieldOwner c) = fields.map (·.name) := fieldNames_of_fields own
  have regular : ((fields.map (·.name)).filter (· ∈ regularNames fields)) = regularNames fields :=
    filter_mem_of_sublist (List.filter_sublist.map _) (all ▸ ordered.gather_fieldNames own ▸ nodup_gather _ _)
  have same : (fun name => decide (name ∈ regularNames fields ∧ world.IsIntroduced c name)) =
      fun name => decide (name ∈ regularNames fields) && decide (world.IsIntroduced c name) :=
    funext fun name => Bool.decide_and _ _
  calc (members.map (·.name)).filter (fun name => name ∈ regularNames fields ∧ world.IsIntroduced c name)
      _ = ((members.map (·.name)).filter (world.IsIntroduced c ·)).filter (· ∈ regularNames fields) := by
        rw [List.filter_filter, same]
      List.Sublist _ ((names.filter (world.IsIntroduced c ·)).filter (· ∈ regularNames fields)) :=
        (shown.filter _).filter _
      _ = (((fields.map (·.name)).filter (· ∈ regularNames fields)).filter (world.IsIntroduced c ·)) := by
        rw [gathered, ordered.filter_declaredNames own within, all, List.filter_comm]
      List.Sublist _ (regularNames fields) := regular.symm ▸ List.filter_sublist

/-- The members of a class are in order. -/
structure AreOrdered (world : World) (c : ClassRef) (members : List ReflectedMember) : Prop where
  distinct : (members.map (·.name)).Nodup
  /-- Each belongs to the nearest class that annotates or computes it. -/
  nearest : ∀ member ∈ members, ∃ nearer farther, world.resolutionOrder c = nearer ++ member.declaring :: farther ∧
    member.name ∈ world.declaredNames member.declaring ∧ ∀ k ∈ nearer, member.name ∉ world.declaredNames k
  /-- Those that are fields come as the fields do, as far as the farthest classes that know them introduce them. -/
  aligned : ∀ fields, world.fields c = .ok fields →
    ((members.map (·.name)).filter fun name => name ∈ regularNames fields ∧ world.IsIntroduced c name).Sublist
      (regularNames fields)
  /-- The fields are those of the classes above, the farthest first, and then the annotated names. -/
  extending : ∀ fields, world.ownFields? c = some fields →
    world.ExtendsFields (world.resolutionOrder c).tail ((world.ownAnnotations c).entries.map (·.1))
      (fields.map (·.name))
  introduced : ∀ fields, world.ownFields? c = some fields → ∀ name ∈ fields.map (·.name),
    world.DeclaresAsField c name → world.IsIntroduced c name

/-- In every world that is reached, reflection gives the members of a class in order. -/
theorem reflect_ordered (reached : world.Reached) (h : Gives (world.reflect visibility c) memory members after) :
    world.AreOrdered c members := by
  have ordered := reached.isOrdered
  obtain ⟨hints, middle, found, names, reflects⟩ := exists_reflects h
  refine ⟨nodup_names_of_reflection h, fun member hm => reflects.declaring_spec ordered hm, fun fields read => ?_,
    fun fields own => ordered.extendsFields own, fun fields own name has plain => ordered.isIntroduced own has plain⟩
  obtain rfl : found = fields := Except.ok.inj (reflects.read.symm.trans read)
  exact reflects.sublist_regularNames ordered

/-- The world after a module with some classes has been loaded. -/
def loading (name : Text) (classes : List ClassSource) : World :=
  ((Loading.enterModule (fun _ => return ()) ⟨name, false, [], classes, [], [], none⟩).run.run Library.world).2

private theorem reached_loading (name : Text) (classes : List ClassSource) :
    (loading name classes).Reached := .alone _ .library

/-- A diamond of dataclasses that declare a field again, beside a class that is none. -/
def diamond : World := loading "diamond"
  [⟨"Base", true, [], [.field "id" (.name "int") .absent, .field "name" (.name "str") .absent]⟩,
    ⟨"Left", true, ["Base"], [.field "name" (.name "str") .absent, .field "left" (.name "int") .absent]⟩,
    ⟨"Right", true, ["Base"], [.field "right" (.name "int") .absent]⟩,
    ⟨"Mixin", false, [], [.field "note" (.name "str") .absent]⟩,
    ⟨"Bottom", true, ["Left", "Right", "Mixin"], [.field "total" (.name "int") .absent,
      .field "id" (.name "str") .absent, .property "label" (some (.name "str")) true]⟩]

/-- All fields of the diamond's last class are introduced, and its members have their order. -/
theorem reflect_ordered_diamond : diamond.Reached ∧ ∃ members after fields,
    Gives (diamond.reflect .declaredOnly (.declared 4)) .empty members after ∧
    members.map (·.name) = ["note", "id", "name", "right", "left", "total", "label"] ∧
    diamond.fields (.declared 4) = .ok fields ∧ regularNames fields = ["id", "name", "right", "left", "total"] ∧
    (∀ name ∈ regularNames fields, diamond.IsIntroduced (.declared 4) name) ∧
    diamond.AreOrdered (.declared 4) members := by
  have reached : diamond.Reached := reached_loading _ _
  have ⟨made, told, introduced⟩ :
      ((diamond.reflect .declaredOnly (.declared 4)).run.run .empty).1.toOption.map
          (fun members => members.map (·.name)) =
        some (["note", "id", "name", "right", "left", "total", "label"] : List Text) ∧
      (diamond.fields (.declared 4)).toOption.map regularNames =
        some (["id", "name", "right", "left", "total"] : List Text) ∧
      ∀ name ∈ (["id", "name", "right", "left", "total"] : List Text), diamond.IsIntroduced (.declared 4) name := by
    decide +kernel
  obtain ⟨members, after, gives, names⟩ := exists_gives_of_map made
  obtain ⟨fields, read, regular⟩ := exists_ok_of_map told
  exact ⟨reached, members, after, fields, gives, names, read, regular, regular ▸ introduced,
    reflect_ordered reached gives⟩

/-- A class that is no dataclass annotates a name, and a dataclass below it has a field of that name. -/
def audited : World := loading "m"
  [⟨"Audited", false, [], [.field "author" (.name "str") .absent]⟩,
    ⟨"Order", true, ["Audited"], [.field "number" (.name "int") .absent, .field "author" (.name "str") .absent]⟩]

/-- The name stands before the fields that come first. -/
theorem reflect_ordered_audited : audited.Reached ∧ ∃ members after fields,
    Gives (audited.reflect .declaredOnly (.declared 1)) .empty members after ∧
    audited.fields (.declared 1) = .ok fields ∧ regularNames fields = ["number", "author"] ∧
    members.map (·.name) = ["author", "number"] ∧
    ¬ ((members.map (·.name)).filter (· ∈ regularNames fields)).Sublist (regularNames fields) := by
  have ⟨made, told⟩ :
      ((audited.reflect .declaredOnly (.declared 1)).run.run .empty).1.toOption.map
          (fun members => members.map (·.name)) = some (["author", "number"] : List Text) ∧
      (audited.fields (.declared 1)).toOption.map regularNames = some (["number", "author"] : List Text) := by
    decide +kernel
  obtain ⟨members, after, gives, names⟩ := exists_gives_of_map made
  obtain ⟨fields, read, regular⟩ := exists_ok_of_map told
  refine ⟨reached_loading _ _, members, after, fields, gives, read, regular, names, ?_⟩
  rw [names, regular]
  decide

end Members

end Specimen.World
