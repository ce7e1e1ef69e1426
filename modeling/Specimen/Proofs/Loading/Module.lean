import Specimen.Proofs.Loading.Class

/-! Modules of emitted dataclasses. Once such a module is loaded, its classes stand behind those loaded
before, in the order of their records, and each is bound under the name of its record. -/
namespace Specimen.Loading
open Emission (dataclassModule dataclassOf)

/-- Records whose classes a module has declared, the first one under this number. -/
structure IsLoaded (world : World) (moduleName : Text) (first : Nat) (records : List RecordType) :
    Prop where
  bound : ∀ k record, records[k]? = some record →
    List.lookup record.name (world.namesOf moduleName) = some (.cls (.declared (first + k)))
  emitted : ∀ k record, records[k]? = some record → ∃ info written,
    world.classes[first + k]? = some info ∧
      IsEmitted moduleName (dataclassOf record).attributes written info

section Names
variable {world : World} {moduleName name : Text} {d : Referent}

private theorem module?_map (world : World) (change : LoadedModule → LoadedModule)
    (same : ∀ m, (change m).name = m.name) (name : Text) :
    { world with modules := world.modules.map change }.module? name =
      (world.module? name).map change := by
  simp only [World.module?, List.find?_map, Function.comp_def, same]

private theorem module?_bindName :
    (bindName moduleName name d world).module? moduleName =
      (world.module? moduleName).map fun m => { m with names := Json.put name d m.names } := by
  rw [bindName, module?_map _ _ fun m => by split <;> rfl]
  cases hm : world.module? moduleName with
  | none => rfl
  | some m =>
    have : m.name = moduleName := by simpa using List.find?_some hm
    simp [this]

private theorem namesOf_bindName (h : (world.module? moduleName).isSome) :
    (bindName moduleName name d world).namesOf moduleName =
      Json.put name d (world.namesOf moduleName) := by
  obtain ⟨m, hm⟩ := Option.isSome_iff_exists.mp h
  rw [World.namesOf, World.namesOf, module?_bindName, hm]
  rfl

private theorem namesOf_markComplete (world : World) (moduleName other : Text) :
    (markComplete other world).namesOf moduleName = world.namesOf moduleName := by
  rw [World.namesOf, markComplete, module?_map _ _ fun m => by split <;> rfl, World.namesOf]
  cases world.module? moduleName with
  | none => rfl
  | some m =>
    rw [Option.map_some]
    split <;> rfl

end Names

section Run
variable {moduleName : Text} {records : List RecordType} {world after : World}

/-- What running the classes of records leaves behind: they are loaded, and other names and earlier
classes are as before. -/
structure Runs (moduleName : Text) (records : List RecordType) (world after : World) : Prop where
  loaded : IsLoaded after moduleName world.classes.length records
  classes : world.classes <+: after.classes
  names : ∀ name, name ∉ records.map (·.name) →
    List.lookup name (after.namesOf moduleName) = List.lookup name (world.namesOf moduleName)

theorem Runs.cons {record : RecordType} {info : ClassInfo} {written : List Referent} {memory : Memory}
    (h : Runs moduleName records
      (bindName moduleName record.name (.cls (.declared world.classes.length))
        { world with classes := world.classes ++ [info], memory }) after)
    (emitted : IsEmitted moduleName (dataclassOf record).attributes written info)
    (entered : (world.module? moduleName).isSome) (fresh : record.name ∉ records.map (·.name)) :
    Runs moduleName (record :: records) world after := by
  have names := @namesOf_bindName { world with classes := world.classes ++ [info], memory } moduleName
    record.name (.cls (.declared world.classes.length)) entered
  have next : ∀ k, (world.classes ++ [info]).length + k = world.classes.length + (k + 1) := by
    intro k
    rw [List.length_append, List.length_singleton]
    omega
  refine ⟨⟨fun k other hk => ?_, fun k other hk => ?_⟩, ?_, fun name hn => ?_⟩
  · cases k with
    | zero =>
      cases hk
      rw [h.names _ fresh, names]
      exact lookup_put_self _ _ _
    | succ k => exact (h.loaded.bound k other hk).trans (congrArg _ (congrArg _ (congrArg _ (next k))))
  · cases k with
    | zero =>
      cases hk
      obtain ⟨later, hlater⟩ := h.classes
      refine ⟨info, written, ?_, emitted⟩
      rw [← hlater]
      simp [bindName]
    | succ k => exact next k ▸ h.loaded.emitted k other hk
  · exact (List.prefix_append _ _).trans h.classes
  · obtain ⟨hne, hn⟩ := not_or.mp (mt List.mem_cons.mpr hn)
    rw [h.names name hn, names]
    exact lookup_put_ne (Ne.symm hne) _ _

/-- Each class of a module is created and bound under the name of its record. -/
private theorem runClasses_runs
    (h : Gives (runClasses moduleName false (records.map fun record => (dataclassOf record).source))
      world () after)
    (entered : (world.module? moduleName).isSome) (nodup : (records.map (·.name)).Nodup) :
    Runs moduleName records world after := by
  induction records generalizing world with
  | nil =>
    rw [List.map_nil, runClasses] at h
    obtain ⟨-, rfl⟩ := h.pure
    exact ⟨⟨nofun, nofun⟩, List.prefix_refl _, fun _ _ => rfl⟩
  | cons record rest ih =>
    obtain ⟨fresh, hnodup⟩ := List.nodup_cons.mp nodup
    rw [List.map_cons, runClasses] at h
    obtain ⟨_, _, hcreate, hbind⟩ := h.bind
    obtain ⟨_, _, hmodify, hrest⟩ := hbind.bind
    have hpublic : ∀ attr ∈ (dataclassOf record).attributes, attr.name.startsWith "_" = false := by
      intro attr ha
      have hin := List.mem_map_of_mem (f := (·.name)) ha
      rw [Emission.names_attributes] at hin
      exact Emission.attributeNames_public attr.name hin
    obtain ⟨rfl, info, written, memory, emitted, rfl⟩ := createClass_emitted hcreate.of_adapt hpublic
      (Emission.names_attributes record ▸ Emission.nodup_attributeNames record.fields)
    cases hmodify.modify
    refine (ih hrest ?_ hnodup).cons emitted entered fresh
    rw [module?_bindName, Option.isSome_map]
    exact entered

/-- A module of emitted dataclasses that loads has declared the classes of its records. -/
theorem enterModule_loaded {importOne : Text → Importer Unit}
    (h : Gives (enterModule importOne (dataclassModule moduleName records)) world () after)
    (nodup : (records.map (·.name)).Nodup) :
    IsLoaded after moduleName world.classes.length records := by
  obtain ⟨_, hrun, rfl⟩ := gives_runModule_of_enterModule h
  rw [runModule] at hrun
  obtain ⟨_, _, himports, hclasses⟩ := hrun.bind
  obtain ⟨-, rfl⟩ := himports.pure
  obtain ⟨_, _, hclasses, hfunctions⟩ := hclasses.bind
  obtain ⟨_, _, hfunctions, hvalues⟩ := hfunctions.bind
  cases hfunctions.modify
  obtain ⟨_, _, hvalues, hreturn⟩ := hvalues.bind
  cases hvalues.modify
  obtain ⟨-, rfl⟩ := hreturn.pure
  -- the module declares classes only, and these ran in the world that the module was entered in
  have runs := runClasses_runs hclasses (by simp [World.module?, dataclassModule]) nodup
  refine ⟨fun k record hk => ?_, runs.loaded.emitted⟩
  rw [namesOf_markComplete]
  exact runs.loaded.bound k record hk

end Run

end Specimen.Loading

namespace Specimen.World

/-- The world after a module with some classes has been loaded, where hardly any other module is. -/
def afterLoading (name : Text) (classes : List ClassSource) : World :=
  ((Loading.enterModule (fun _ => return ()) ⟨name, false, [], classes, [], [], none⟩).run.run
    ⟨[], [Library.complete "typing" Library.typingNames,
      Library.complete "enum" (Library.bindClasses [.enum])], .empty⟩).2

/-- A class with one annotated name. -/
def annotating (name : Text) (bases : List Text) (field : Text) (type : TypeExpr) : ClassSource :=
  ⟨name, false, bases, [.field field type .absent]⟩

end Specimen.World
