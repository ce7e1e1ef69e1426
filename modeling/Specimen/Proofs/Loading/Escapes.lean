import Specimen.Proofs.Loading.Steps

/-! What passes through the handlers of troubles while modules are imported is raised by one of them at its end. -/
namespace Specimen

/-- An exception outside the general ones is what a module raises. -/
def ModuleTree.Raises (tree : ModuleTree) (cause : Escape) : Prop :=
  ∃ source ∈ tree.modules, ∃ fault ∈ source.fault, ∃ env, Raising.haltOf env fault = .escape cause

/-- Trouble, or an exception outside the general ones that a module raises. -/
inductive ModuleTree.Halts (tree : ModuleTree) : Halt → Prop
  | trouble (cause : Trouble) : Halts tree (.trouble cause)
  | escape {cause : Escape} (raised : tree.Raises cause) : Halts tree (.escape cause)

namespace Loading
variable {tree : ModuleTree} {importOne : Text → Importer Unit}

theorem failsAmong_loading {α : Type} (step : Loader α) : FailsAmong tree.Halts (step.adapt .trouble) :=
  have any : FailsAmong (fun _ => True) step := fun _ _ _ _ => trivial
  any.adapt fun cause _ => .trouble cause

private theorem failsAmong_runClasses (moduleName : Text) (postponed : Bool) (sources : List ClassSource) :
    FailsAmong tree.Halts (runClasses moduleName postponed sources) := by
  induction sources with
  | nil => exact failsAmong_pure _
  | cons source rest ih =>
    exact (failsAmong_loading _).bind fun _ => (failsAmong_modify _).bind fun _ => ih

section Imports
variable (imports : ∀ name, FailsAmong tree.Halts (importOne name))
include imports

private theorem failsAmong_runImports (moduleName : Text) (names : List Text) :
    FailsAmong tree.Halts (runImports importOne moduleName names) := by
  induction names with
  | nil => exact failsAmong_pure _
  | cons name rest ih =>
    exact (imports name).bind fun _ => (imports _).bind fun _ => (failsAmong_modify _).bind fun _ => ih

private theorem failsAmong_runModule {source : ModuleSource} (mem : source ∈ tree.modules) :
    FailsAmong tree.Halts (runModule importOne source) := by
  rw [runModule]
  refine (failsAmong_runImports imports _ _).bind fun _ => (failsAmong_runClasses _ _ _).bind fun _ =>
    (failsAmong_modify _).bind fun _ => (failsAmong_modify _).bind fun _ => ?_
  split
  · rename_i fault raised
    refine FailsAmong.get_bind fun world => failsAmong_throw ?_
    cases halted : Raising.haltOf ⟨world, [world.namesOf source.name]⟩ fault with
    | trouble cause => exact .trouble cause
    | escape cause => exact .escape ⟨source, mem, fault, raised, _, halted⟩
  · exact failsAmong_pure _

private theorem failsAmong_enterModule {source : ModuleSource} (mem : source ∈ tree.modules) :
    FailsAmong tree.Halts (enterModule importOne source) := by
  rw [enterModule, enter]
  refine (failsAmong_modify _).bind fun _ => FailsAmong.bind ?_ fun _ => failsAmong_modify _
  exact (failsAmong_runModule imports mem).tryCatch fun halt among =>
    (failsAmong_modify _).bind fun _ => failsAmong_throw among

private theorem failsAmong_loadOne (name : Text) : FailsAmong tree.Halts (loadOne tree importOne name) := by
  refine FailsAmong.get_bind fun world => ?_
  split
  · exact failsAmong_pure _
  · dsimp only
    split
    · exact failsAmong_throw (.trouble _)
    · split
      · exact failsAmong_throw (.trouble _)
      · rename_i source found
        refine (failsAmong_enterModule imports (List.mem_of_find?_eq_some found)).bind fun _ => ?_
        split
        · exact failsAmong_modify _
        · exact failsAmong_pure _

private theorem failsAmong_loadEach (names : List Text) :
    FailsAmong tree.Halts (loadEach tree importOne names) := by
  induction names with
  | nil => exact failsAmong_pure _
  | cons name rest ih => exact (failsAmong_loadOne imports name).bind fun _ => ih

end Imports

/-- Importing a module ends with trouble or with what one of the modules raises, if it does not succeed. -/
theorem failsAmong_importFrom (tree : ModuleTree) (fuel : Nat) :
    ∀ name, FailsAmong tree.Halts (importFrom tree fuel name) := by
  induction fuel with
  | zero => exact fun _ => failsAmong_throw (.trouble _)
  | succ fuel ih => exact fun _ => FailsAmong.get_bind fun _ => failsAmong_loadEach ih _

theorem failsAmong_canFind (tree : ModuleTree) (name : Text) : FailsAmong tree.Halts (canFind tree name) := by
  rw [canFind]
  split
  · exact failsAmong_pure _
  · refine FailsAmong.get_bind fun world => ?_
    split
    · exact failsAmong_pure _
    · dsimp only
      split
      · exact failsAmong_pure _
      · exact (failsAmong_importFrom tree _ _).bind fun _ => failsAmong_pure _

end Loading

end Specimen
