import Specimen.Projection.Member
import Specimen.Proofs.Loading.Class
import Specimen.Proofs.Reflection.Annotations

/-! Reflection of classes made of emitted dataclasses. Its members are the attributes in their order, each
under its key and with the type that its annotation denotes; nothing is remembered of it. -/
namespace Specimen
open Emission (Attribute)
open Loading

/-- An evaluation gives a value and remembers nothing. -/
def Yields {α : Type} (step : Evaluator α) (memory : Memory) (value : α) : Prop :=
  Gives step memory value memory

section Yields
variable {α β : Type} {memory : Memory} {value : α} {result : β}

private theorem yields_pure (value : α) (memory : Memory) : Yields (pure value) memory value := rfl

private theorem yields_lift {outcome : Except Trouble α} (h : outcome = .ok value) (memory : Memory) :
    Yields (liftM outcome) memory value := by
  subst h
  rfl

private theorem yields_state {step : StateM Memory α} (h : step.run memory = (value, memory)) :
    Yields (liftM step) memory value := by
  have run : (liftM step : Evaluator α).run.run memory = (.ok (step.run memory).1, (step.run memory).2) :=
    rfl
  rw [Yields, Gives, run, h]

theorem Yields.bind {step : Evaluator α} {next : α → Evaluator β} (h : Yields step memory value)
    (hnext : Yields (next value) memory result) : Yields (step >>= next) memory result :=
  (run_bind h).trans hnext

theorem Yields.tryCatch {step : Evaluator α} (h : Yields step memory value)
    (handle : Trouble → Evaluator α) : Yields (tryCatch step handle) memory value :=
  run_tryCatch h

end Yields

section Annotations
variable {names : Bindings} {type : TypeRef} {field : Field} {d : Referent}

private theorem TypeRef.Denotes.followWhole_eq (h : type.Denotes names d) (env : Environment)
    (reuse lenient : Bool) : env.followWhole reuse lenient d = pure d := by
  have follows : env.followWhole reuse lenient d =
      d.replace env.world (env.find reuse Environment.chainLimit []) := by
    cases h <;> rfl
  rw [follows, h.replace_self]

/-- Following the strings in an annotation leaves it as it is. -/
private theorem Field.Denotes.yields_followWhole (h : field.Denotes names d) (env : Environment)
    (reuse lenient : Bool) (memory : Memory) : Yields (env.followWhole reuse lenient d) memory d := by
  cases h with
  | required _ type =>
    rw [type.followWhole_eq]
    rfl
  | @optional d _ type =>
    have same : Referent.sameList memory.agree [d, .noneType] [d, .noneType] = true := by
      simp only [Referent.sameList, Referent.compareList, type.compare_self]
      rfl
    have replaced : Yields (Referent.replaceAll env.world (env.find reuse Environment.chainLimit [])
        [d, .noneType]) memory [d, .noneType] := by
      simp only [Referent.replaceAll, type.replace_self, pure_bind]
      rfl
    refine Yields.bind replaced (Yields.bind (show Yields get memory memory from rfl) ?_)
    rw [if_pos same]
    rfl

end Annotations

/-- A class of an emitted dataclass, annotated with the types of fields under names of its own. -/
structure Reflectable (world : World) (index : Nat) (info : ClassInfo) (moduleName : Text)
    (attrs : List Attribute) (written : List Referent) : Prop where
  found : world.classes[index]? = some info
  emitted : IsEmitted moduleName attrs written info
  outside : moduleName ≠ StandardClass.builtinModule
  isPublic : ∀ attr ∈ attrs, attr.name.startsWith "_" = false
  nodup : (attrs.map (·.name)).Nodup
  annotated : ∀ d ∈ written, ∃ names field, Field.Denotes names field d

/-- The member that an attribute with a type makes of a class. -/
def memberOf (index : Nat) (attr : Attribute) (d : Referent) : ReflectedMember :=
  ⟨attr.name, .str attr.key, d.read.type, d.read.isCollection, d.read.optional, .declared index, false⟩

namespace Reflectable
variable {world : World} {index : Nat} {info : ClassInfo} {moduleName : Text} {attrs : List Attribute}
  {written : List Referent} (h : Reflectable world index info moduleName attrs written)
include h

private theorem info?_eq : world.info? (.declared index) = some info := h.found

private theorem label_eq : world.label (.declared index) = .text moduleName := by
  simp [World.label, h.info?_eq, h.emitted.label]

theorem not_isBuiltin : world.isBuiltin (.declared index) = false := by
  simp [World.isBuiltin, World.moduleName, h.label_eq, ModuleLabel.name, h.outside]

theorem resolutionOrder_eq :
    world.resolutionOrder (.declared index) = [.declared index, .standard .object] := by
  simp [World.resolutionOrder, h.info?_eq, h.emitted.ancestors]

private theorem ownAnnotations_eq :
    world.ownAnnotations (.declared index) = .table ((attrs.map (·.name)).zip written) := by
  simp [World.ownAnnotations, h.info?_eq, h.emitted.annotations]

private theorem ownAttributes_eq : world.ownAttributes (.declared index) = info.attributes := by
  simp [World.ownAttributes, h.info?_eq]

theorem names_eq : ((attrs.map (·.name)).zip written).map (·.1) = attrs.map (·.name) :=
  List.map_fst_zip (by simp [h.emitted.length])

private theorem fields_eq : world.fields (.declared index) = .ok (attrs.map regularField) := by
  have regular : ∀ d ∈ written, IsRegular d := fun d hd => by
    obtain ⟨names, field, denotes⟩ := h.annotated d hd
    exact ⟨denotes.ne_text, denotes.roleOf_eq⟩
  simp [World.fields, World.fieldTable?, h.resolutionOrder_eq, World.ownFieldTable?, World.ownFields?,
    h.info?_eq, h.emitted.fields regular, World.readFields]

theorem isDataclass : world.isDataclass (.declared index) = true := by
  obtain ⟨fields, hf⟩ := Option.isSome_iff_exists.mp h.emitted.isDataclass
  simp [World.isDataclass, World.fieldTable?, h.resolutionOrder_eq, World.ownFieldTable?,
    World.ownFields?, h.info?_eq, hf]

private theorem not_isUnchecked : world.isUnchecked (.declared index) = false := by
  have own : world.ownAttribute? (.declared index) uncheckedName = none := by
    rw [World.ownAttribute?, h.ownAttributes_eq]
    refine lookup_eq_none fun hin => ?_
    obtain ⟨entry, he, hname⟩ := List.mem_map.mp hin
    exact (h.emitted.attributes entry he).2 hname
  have base : world.ownAttribute? (.standard .object) uncheckedName = none := rfl
  have unfolded : world.isUnchecked (.declared index) =
      ((((world.resolutionOrder (.declared index)).findSome?
        fun k => world.ownAttribute? k uncheckedName).map (·.isTrue)).getD false) := rfl
  rw [unfolded, h.resolutionOrder_eq]
  simp [own, base]

private theorem ownProperties_eq : world.ownProperties (.declared index) = [] := by
  rw [World.ownProperties, h.ownAttributes_eq, List.map_eq_nil_iff, List.filter_eq_nil_iff]
  exact fun entry he => by simp [(h.emitted.attributes entry he).1]

theorem visibleAnnotations_eq : world.visibleAnnotations (.declared index) =
    .ok ((attrs.map (·.name)).zip written) := by
  rw [World.visibleAnnotations, h.not_isBuiltin, h.label_eq, h.ownAnnotations_eq]
  simp only [ModuleLabel.check, if_neg Bool.false_ne_true]
  split <;> rfl

omit h in
/-- Annotations under new names are put behind the others. -/
private theorem yields_addFollowed (c : ClassRef) {hints entries : Bindings} {memory : Memory}
    (annotated : ∀ entry ∈ entries, ∃ names field, Field.Denotes names field entry.2)
    (nodup : ((hints ++ entries).map (·.1)).Nodup) :
    Yields (world.addFollowed c hints entries) memory (hints ++ entries) := by
  induction entries generalizing hints with
  | nil =>
    rw [List.append_nil]
    exact yields_pure hints memory
  | cons entry rest ih =>
    obtain ⟨name, d⟩ := entry
    obtain ⟨names, field, denotes⟩ := annotated (name, d) List.mem_cons_self
    have fresh : name ∉ hints.map (·.1) := by
      rw [List.map_append, List.map_cons] at nodup
      exact fun hin => (List.nodup_append.mp nodup).2.2 _ hin _ List.mem_cons_self rfl
    have shift : hints ++ (name, d) :: rest = Json.put name d hints ++ rest := by
      rw [put_of_notMem fresh, List.append_assoc]
      rfl
    rw [shift] at nodup ⊢
    exact (denotes.yields_followWhole _ _ _ memory).bind
      (ih (fun other ho => annotated other (List.mem_cons_of_mem _ ho)) nodup)

private theorem yields_hints (memory : Memory) : Yields (world.hints (.declared index)) memory
    ((attrs.map (·.name)).zip written) := by
  have annotated : ∀ entry ∈ (attrs.map (·.name)).zip written,
      ∃ names field, Field.Denotes names field entry.2 :=
    fun entry he => h.annotated entry.2 (List.of_mem_zip he).2
  have own := @yields_addFollowed world (.declared index) [] _ memory annotated
    (by rw [List.nil_append, h.names_eq]; exact h.nodup)
  rw [World.hints, h.not_isUnchecked, if_neg Bool.false_ne_true, h.resolutionOrder_eq]
  refine Yields.tryCatch ?_ _
  refine (yields_lift rfl memory).bind ((yields_lift rfl memory).bind ((yields_pure [] memory).bind ?_))
  refine (yields_lift (by rw [h.label_eq]; rfl) memory).bind ?_
  refine (yields_lift (by rw [h.ownAnnotations_eq]; rfl) memory).bind ?_
  exact own.bind (yields_pure _ memory)

private theorem memberNames_eq : world.memberNames (.declared index) = .ok (attrs.map (·.name)) := by
  have listed : ∀ (kept names : List Text), (kept ++ names).Nodup →
      names.foldl World.addName kept = kept ++ names := by
    intro kept names nodup
    induction names generalizing kept with
    | nil => rw [List.append_nil, List.foldl_nil]
    | cons name rest ih =>
      have fresh : name ∉ kept := fun hin =>
        (List.nodup_append.mp nodup).2.2 _ hin _ List.mem_cons_self rfl
      have shift : kept ++ name :: rest = kept ++ [name] ++ rest := by rw [List.append_assoc]; rfl
      rw [List.foldl_cons, World.addName, if_neg (by simpa using fresh), shift]
      exact ih _ (shift ▸ nodup)
  have base : world.addMemberNames [] [.standard .object, .declared index] =
      world.addMemberNames [] [.declared index] := rfl
  rw [World.memberNames, h.resolutionOrder_eq]
  refine base.trans ?_
  rw [World.addMemberNames, h.visibleAnnotations_eq, h.ownProperties_eq]
  simp only [bind, Except.bind, World.addMemberNames, List.append_nil, h.names_eq]
  rw [listed [] _ h.nodup, List.nil_append]

private theorem lookup_entries {attr : Attribute} {d : Referent} (hm : (attr, d) ∈ attrs.zip written) :
    List.lookup attr.name ((attrs.map (·.name)).zip written) = some d := by
  refine lookup_of_mem (by rw [h.names_eq]; exact h.nodup) ?_
  rw [List.zip_map_left]
  exact List.mem_map.mpr ⟨(attr, d), hm, rfl⟩

theorem declaringClass_eq {attr : Attribute} {d : Referent} (hm : (attr, d) ∈ attrs.zip written) :
    world.declaringClass (.declared index) attr.name = .declared index := by
  have declares : world.declares attr.name (.declared index) = true := by
    simp [World.declares, World.ownAnnotation?, h.not_isBuiltin, h.ownAnnotations_eq,
      Annotations.entries, h.lookup_entries hm]
  rw [World.declaringClass, h.resolutionOrder_eq, List.find?_cons_of_pos declares]
  rfl

theorem memberType_eq {attr : Attribute} {d : Referent} (hm : (attr, d) ∈ attrs.zip written) :
    world.memberType ((attrs.map (·.name)).zip written) (.declared index) attr.name = pure d := by
  rw [World.memberType.eq_def]
  split
  · rename_i type readable own
    rw [World.ownAttribute?, h.ownAttributes_eq] at own
    cases (h.emitted.attributes _ (mem_of_lookup own)).1
  · rw [h.lookup_entries hm]
    rfl

private theorem metadataOf_eq {attr : Attribute} (ha : attr ∈ attrs) :
    metadataOf (attrs.map regularField) attr.name = [(.str jsonKey, .str attr.key)] := by
  have nodup := h.nodup
  clear h
  induction attrs with
  | nil => cases ha
  | cons first rest ih =>
    obtain ⟨fresh, hnodup⟩ := List.nodup_cons.mp nodup
    rcases List.mem_cons.mp ha with rfl | ha
    · simp [metadataOf, regularField]
    · have hne : first.name ≠ attr.name := fun he => fresh (List.mem_map.mpr ⟨attr, ha, he.symm⟩)
      rw [← ih ha hnodup, metadataOf, metadataOf, List.map_cons,
        List.find?_cons_of_neg (by simp [regularField, hne])]

/-- The names of the attributes with what their annotations denote, over some of the pairs. -/
private theorem memberTypes_eq {pairs : List (Attribute × Referent)}
    (hp : ∀ pair ∈ pairs, pair ∈ attrs.zip written) :
    world.memberTypes (.declared index) ((attrs.map (·.name)).zip written)
      (pairs.map fun pair => pair.1.name) = pure (pairs.map fun pair => (pair.1.name, pair.2)) := by
  induction pairs with
  | nil => rfl
  | cons pair rest ih =>
    have hpair := hp pair List.mem_cons_self
    rw [List.map_cons, World.memberTypes, h.declaringClass_eq hpair, h.memberType_eq hpair,
      ih fun other ho => hp other (List.mem_cons_of_mem _ ho)]
    rfl

private theorem membersOf_eq (visibility : Visibility) {pairs : List (Attribute × Referent)}
    (hp : ∀ pair ∈ pairs, pair ∈ attrs.zip written) :
    world.membersOf visibility (.declared index) (attrs.map regularField)
      (pairs.map fun pair => (pair.1.name, pair.2)) =
        .ok (pairs.map fun pair => memberOf index pair.1 pair.2) := by
  induction pairs with
  | nil => rfl
  | cons pair rest ih =>
    obtain ⟨attr, d⟩ := pair
    have hpair := hp (attr, d) List.mem_cons_self
    obtain ⟨ha, hd⟩ := List.of_mem_zip hpair
    obtain ⟨names, field, denotes⟩ := h.annotated d hd
    have isShown : world.isShown visibility (.declared index) (.declared index) attr.name d
        [(.str jsonKey, .str attr.key)] = .ok true := by
      have serialized : isExcluded [(.str jsonKey, .str attr.key)] = false := rfl
      simp [World.isShown, h.isPublic attr ha, World.isVisible, denotes.not_isStatic,
        denotes.not_isUnserialized, serialized]
    have named : (metadataValue? jsonKey [(.str jsonKey, .str attr.key)]).getD (.str attr.name) =
      .str attr.key := rfl
    have others := ih fun other ho => hp other (List.mem_cons_of_mem _ ho)
    rw [List.map_cons, World.membersOf]
    simp only [h.declaringClass_eq hpair, h.metadataOf_eq ha, isShown, others, bind, Except.bind, named]
    simp [memberOf, pure, Except.pure]

/-- Reflection gives the attributes in their order, and remembers nothing of it. -/
theorem yields_reflect (visibility : Visibility) (memory : Memory) :
    Yields (world.reflect visibility (.declared index)) memory
      ((attrs.zip written).map fun pair => memberOf index pair.1 pair.2) := by
  have names : attrs.map (·.name) = (attrs.zip written).map fun pair => pair.1.name := by
    rw [← h.names_eq, List.zip_map_left, List.map_map]
    rfl
  have types : world.memberTypes (.declared index) ((attrs.map (·.name)).zip written)
      (attrs.map (·.name)) = pure ((attrs.zip written).map fun pair => (pair.1.name, pair.2)) := by
    refine Eq.trans ?_ (h.memberTypes_eq fun _ hp => hp)
    rw [← names]
  refine (h.yields_hints memory).bind ((yields_lift h.fields_eq memory).bind
    ((yields_lift h.memberNames_eq memory).bind ((yields_state ?_).bind
      (yields_lift (h.membersOf_eq visibility fun _ hp => hp) memory))))
  rw [types]
  rfl

end Reflectable

end Specimen
