import Specimen.Loading.Own
import Specimen.Proofs.Loading.Creation
import Specimen.Resolution.Handle

/-! The worlds in which classes are reflected. Whatever has been loaded and resolved, successfully or not, what all
loading keeps holds in them, and so classes are in order. -/
namespace Specimen
open Loading

section Kept
variable {α : Type} {holds : World → Prop} {tree : ModuleTree}

private theorem Resolver.keeps_load {wording : Trouble → Refusal} {step : Importer α} (h : Keeps holds step) :
    Keeps holds (load wording step) := h

variable (kept : IsKept holds) (admits : ∀ name, Admits holds name)
include kept admits

private theorem Loading.keeps_importModule (tree : ModuleTree) (name : Text) : Keeps holds (importModule tree name) :=
  keeps_importFrom kept tree (fun name _ _ _ => admits name) _ name

private theorem Loading.keeps_canFind (tree : ModuleTree) (name : Text) : Keeps holds (canFind tree name) := by
  rw [canFind]
  split
  · exact keeps_pure _
  · refine Keeps.get_bind fun world _ => ?_
    split
    · exact keeps_pure _
    · dsimp only
      split
      · exact keeps_pure _
      · exact (keeps_importModule kept admits tree _).bind fun _ => keeps_pure _

private theorem Loading.keeps_isFound (tree : ModuleTree) (name : Text) : Keeps holds (isFound tree name) := by
  refine Keeps.bind (keeps_canFind kept admits tree name) fun outcome => ?_
  split
  · exact keeps_pure _
  · exact keeps_pure _
  · exact keeps_throw _

namespace Resolver

private theorem keeps_searchModule (tree : ModuleTree) (name : Text) (parts : List Text) (count : Nat) :
    Keeps holds (searchModule tree name parts count) := by
  induction count with
  | zero => exact keeps_throw _
  | succ count ih =>
    rw [searchModule]
    refine (Keeps.adapt (keeps_isFound kept admits tree _)).bind fun found => ?_
    split
    · exact keeps_pure _
    · exact ih

private theorem keeps_importAttribute (tree : ModuleTree) (moduleName attr : Text) :
    Keeps holds (importAttribute tree moduleName attr) := by
  refine Keeps.bind ?_ fun _ => Keeps.get_bind fun _ _ => Keeps.adapt (keeps_result _)
  rw [importNamed]
  split
  · exact keeps_throw _
  · split
    · exact keeps_throw _
    · exact keeps_importModule kept admits tree moduleName

omit kept admits in
private theorem keeps_trimmed (name : Text) : Keeps holds (trimmed name) := by
  rw [trimmed]
  split
  · exact keeps_throw _
  · exact keeps_pure _

private theorem keeps_resolveImported (tree : ModuleTree) (name : Text) : Keeps holds (resolveImported tree name) := by
  refine (keeps_trimmed name).bind fun name => Keeps.bind ?_ fun (moduleName, attr) =>
    (keeps_load (keeps_importAttribute kept admits tree moduleName attr)).bind fun found => ?_
  · rw [splitName]
    split
    · exact keeps_pure _
    · dsimp only
      split
      · exact keeps_throw _
      · exact keeps_searchModule kept admits tree name _ _
  · split
    · exact keeps_pure _
    · exact keeps_throw _

private theorem keeps_resolveSource (workspace : Workspace) (path name : Text) :
    Keeps holds (resolveSource workspace path name) := by
  rw [resolveSource]
  refine (keeps_trimmed name).bind fun name => ?_
  extract_lets shown moduleName source loaded found
  have entered : Keeps holds (loaded ()) := by
    refine Keeps.bind (keeps_modify (admits _).forgotten) fun _ =>
      (keeps_load (keeps_enter kept (keeps_importModule kept admits workspace.tree) _ _ (admits _))).bind fun _ =>
        Keeps.get_bind fun world _ => ?_
    split
    · exact keeps_pure _
    · exact keeps_throw _
  -- either check of the path may refuse the name before the module is entered
  have present : Keeps holds (found ()) := by
    dsimp only [found]
    split
    · exact (keeps_throw _).bind fun _ => entered
    · exact entered
  split
  · exact (keeps_throw _).bind fun _ => present
  · exact present

/-- Resolving a name keeps what loading keeps, whether it leads to a class or is refused. -/
theorem keeps_resolve (workspace : Workspace) (file : Option Text) (name : Text) :
    Keeps holds (resolve workspace file name) := by
  cases file with
  | none => exact keeps_resolveImported kept admits workspace.tree name
  | some path => exact keeps_resolveSource kept admits workspace path name

end Resolver

end Kept

namespace World
variable {world : World}

/-- The worlds that are reached from the standard modules, or from those and the package's own, where names are
resolved, modules loaded alone and classes reflected, which changes what is remembered. -/
inductive Reached : World → Prop
  | library : Reached Library.world
  | own : Reached Own.world
  | reflected {world : World} (memory : Memory) (before : Reached world) : Reached { world with memory }
  | resolved {world : World} (workspace : Workspace) (file : Option Text) (name : Text) (before : Reached world) :
    Reached ((Resolver.resolve workspace file name).run.run world).2
  | alone {world : World} (source : ModuleSource) (before : Reached world) :
    Reached ((enterModule (fun _ => return ()) source).run.run world).2

private theorem isOrdered_library : Library.world.IsOrdered := by
  have others : ∀ m ∈ Library.modules.tail.take 10, AllKnown 0 m.names := by unfold AllKnown; decide +kernel
  have known : ∀ m ∈ Library.modules, AllKnown 0 m.names := by
    refine List.forall_mem_append.mpr ⟨List.forall_mem_cons.mpr ⟨allKnown_builtinNames 0, others⟩, ?_⟩
    -- of the modules that are silent no name is told
    exact List.forall_mem_map.mpr fun _ _ _ told => nomatch told
  refine ⟨known, fun index info found => ?_⟩
  cases found

private theorem keeps_alone (source : ModuleSource) :
    Keeps IsOrdered (enterModule (fun _ => return ()) source) :=
  keeps_enterModule isKept_isOrdered (fun _ => keeps_pure _) source (admits_isOrdered source.name)

private theorem isOrdered_own : Own.world.IsOrdered := by
  have loaded := keeps_alone Own.source _ isOrdered_library
  refine holds_foldl (fun world name ordered => ?_) (loaded.bindName Library.ownPackage "types" trivial)
  rw [Own.offer]
  split
  · rename_i d offers
    exact ordered.bindName _ name ((ordered.isScoped.allKnown_namesOf _).of_lookup offers)
  · exact ordered

/-- In every world that is reached classes are in order. -/
theorem Reached.isOrdered (h : world.Reached) : world.IsOrdered := by
  induction h with
  | library => exact isOrdered_library
  | own => exact isOrdered_own
  | reflected memory before ih => exact ih.of_classes rfl ih.names
  | resolved workspace file name before ih =>
    exact Resolver.keeps_resolve isKept_isOrdered admits_isOrdered workspace file name _ ih
  | alone source before ih => exact keeps_alone source _ ih

end World

end Specimen
