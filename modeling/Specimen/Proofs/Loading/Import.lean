import Specimen.Proofs.Loading.Keeping
import Specimen.Proofs.Loading.Packages
import Specimen.Proofs.Loading.Steps

/-! What importing a module loads: the packages around it that are missing, then the module. What is loaded stays
loaded, and what cannot be loaded never is. -/
namespace Specimen.Loading
variable {tree : ModuleTree} {importOne : Text → Importer Unit} {world after : World}
  {name outer inner : Text} {names more deeper : List Text} {trouble : Trouble}

section Names
variable {holds : List Text → Prop}

/-- The names of the modules that are loaded or being loaded. -/
def loadedNames (world : World) : List Text := world.modules.map (·.name)

theorem isLoaded_iff : isLoaded world name = true ↔ name ∈ loadedNames world := by
  simp [isLoaded, World.module?, loadedNames]

theorem isLoaded_eq_false_iff : isLoaded world name = false ↔ name ∉ loadedNames world := by
  rw [← isLoaded_iff, Bool.not_eq_true]

private theorem loadedNames_bindName (moduleName name : Text) (d : Referent) (world : World) :
    loadedNames (bindName moduleName name d world) = loadedNames world := by
  rw [loadedNames, bindName, List.map_map]
  exact List.map_congr_left fun m _ => by
    dsimp only [Function.comp]
    split <;> rfl

private theorem loadedNames_markComplete (name : Text) (world : World) :
    loadedNames (markComplete name world) = loadedNames world := by
  rw [loadedNames, markComplete, List.map_map]
  exact List.map_congr_left fun m _ => by
    dsimp only [Function.comp]
    split <;> rfl

private theorem loadedNames_entering (name : Text) (world : World) :
    loadedNames (entering name world) = loadedNames world ++ [name] := by
  rw [loadedNames, List.map_append]
  rfl

private theorem mem_loadedNames_forget {forgotten : Text} :
    name ∈ loadedNames (forget forgotten world) ↔ name ∈ loadedNames world ∧ name ≠ forgotten := by
  simp only [loadedNames, forget, List.mem_map, List.mem_filter, decide_eq_true_eq]
  constructor
  · rintro ⟨m, ⟨hm, hne⟩, rfl⟩
    exact ⟨⟨m, hm, rfl⟩, hne⟩
  · rintro ⟨⟨m, hm, rfl⟩, hne⟩
    exact ⟨m, ⟨hm, hne⟩, rfl⟩

/-- Neither evaluating expressions nor adding classes and names loads or forgets a module. -/
private theorem isLasting_names (holds : List Text → Prop) : IsLasting fun world => holds (loadedNames world) where
  evaluated _ _ := Keeps.get_bind fun _ start => Keeps.bind (keeps_set start) fun _ => keeps_result _
  added _ _ start := start
  bound world moduleName name d start := (loadedNames_bindName moduleName name d world).symm ▸ start
  completed world name start := (loadedNames_markComplete name world).symm ▸ start

/-- A module stays loaded where another one is entered and forgotten. -/
private theorem admits_loaded {other : Text} (apart : name ≠ other) :
    Admits (fun world => name ∈ loadedNames world) other where
  entered world loaded := by
    rw [loadedNames_entering]
    exact List.mem_append_left _ loaded
  forgotten _ loaded := mem_loadedNames_forget.mpr ⟨loaded, apart⟩

/-- What is loaded stays loaded. -/
theorem keeps_loaded (tree : ModuleTree) (name : Text) (fuel : Nat) (other : Text) :
    Keeps (fun world => name ∈ loadedNames world) (importFrom tree fuel other) := by
  refine keeps_importFrom (isLasting_names (name ∈ ·)).isKept tree (fun entered world loaded fresh => ?_) fuel other
  exact admits_loaded fun same => isLoaded_eq_false_iff.mp fresh (same ▸ loaded)

end Names

section Missing

private theorem missing_of_loaded (h : isLoaded world name = true) : missing world name = [] := by
  simp [missing, h]

private theorem missing_append (h : pathTo inner = pathTo outer ++ deeper)
    (fresh : ∀ name ∈ deeper, isLoaded world name = false) :
    missing world inner = missing world outer ++ deeper := by
  have passes : ∀ name ∈ deeper.reverse, (!isLoaded world name) = true := fun name hn => by
    simp [fresh name (List.mem_reverse.mp hn)]
  have unfolded (name : Text) : missing world name =
      ((pathTo name).reverse.takeWhile fun n => !isLoaded world n).reverse := rfl
  rw [unfolded, h, List.reverse_append, List.takeWhile_append_of_pos passes, List.reverse_append,
    List.reverse_reverse, unfolded]

/-- Of the modules that an import has to load, all but the last are packages around it. -/
private theorem exists_missing (h : isLoaded world name = false) :
    ∃ front, missing world name = front ++ [name] ∧ ∀ outer ∈ front, outer ∈ packagesOf name := by
  refine ⟨((packagesOf name).reverse.takeWhile fun n => !isLoaded world n).reverse, ?_, fun outer ho => ?_⟩
  · rw [missing, List.reverse_concat, List.takeWhile_cons_of_pos (by simp [h]), List.reverse_cons]
  · exact List.mem_reverse.mp ((List.takeWhile_sublist _).subset (List.mem_reverse.mp ho))

private theorem missing_suffix (world : World) (name : Text) : missing world name <:+ pathTo name := by
  rw [missing, ← List.reverse_prefix, List.reverse_reverse]
  exact List.takeWhile_prefix _

private theorem isLoaded_of_mem_missing (h : name ∈ missing world inner) : isLoaded world name = false := by
  simpa using List.all_eq_true.mp List.all_takeWhile name (List.mem_reverse.mp h)

/-- What is on the way behind a module that has to be loaded has to be loaded as well. -/
private theorem mem_missing_of_encloses_of_mem (h : outer ∈ missing world inner) (on : name ∈ pathTo inner)
    (within : Encloses outer name) : name ∈ missing world inner := by
  obtain ⟨kept, whole⟩ := missing_suffix world inner
  rcases List.mem_append.mp (whole ▸ on) with early | late
  · have sorted := Encloses.pairwise_pathTo inner
    rw [← whole, List.pairwise_append] at sorted
    exact absurd within (sorted.2.2 name early outer h)
  · exact late

/-- What is directly in front of modules that have to be loaded has to be loaded unless it is. -/
private theorem mem_missing_of_encloses (h : inner ∈ missing world name) (within : Encloses outer inner)
    (fresh : ∀ middle, Encloses outer middle → Encloses middle inner → isLoaded world middle = false) :
    outer ∈ missing world name := by
  have on := (missing_suffix world name).subset h
  obtain ⟨deeper, path, inside⟩ := (within.trans (Encloses.of_mem_pathTo on)).exists_pathTo
  have free : ∀ middle ∈ deeper, isLoaded world middle = false := fun middle hm => by
    have passed : middle ∈ pathTo name := path ▸ List.mem_append_right _ hm
    rcases (Encloses.of_mem_pathTo passed).total (Encloses.of_mem_pathTo on) with before | behind
    · exact fresh middle (inside middle hm) before
    · exact isLoaded_of_mem_missing (mem_missing_of_encloses_of_mem h passed behind)
  obtain ⟨front, missed, -⟩ := exists_missing (fresh outer (List.prefix_refl _) within)
  rw [missing_append path free, missed]
  simp

/-- In front of a module that has to be loaded are packages around it. -/
private theorem exists_missing_of_mem (h : outer ∈ missing world inner) :
    ∃ front deeper, missing world inner = front ++ outer :: deeper ∧ ∀ name ∈ front, name ∈ packagesOf outer := by
  have on := (missing_suffix world inner).subset h
  obtain ⟨deeper, path, inside⟩ := (Encloses.of_mem_pathTo on).exists_pathTo
  obtain ⟨front, missed, around⟩ := exists_missing (isLoaded_of_mem_missing h)
  refine ⟨front, deeper, ?_, around⟩
  rw [missing_append path, missed, List.append_assoc, List.singleton_append]
  exact fun name hn => isLoaded_of_mem_missing
    (mem_missing_of_encloses_of_mem h (path ▸ List.mem_append_right _ hn) (inside name hn))

private theorem loadEach_append (tree : ModuleTree) (importOne : Text → Importer Unit) (names more : List Text) :
    loadEach tree importOne (names ++ more) =
      loadEach tree importOne names >>= fun _ => loadEach tree importOne more := by
  induction names with
  | nil => rfl
  | cons name rest ih => simp only [List.cons_append, loadEach, ih, bind_assoc]

theorem loadEach_singleton (tree : ModuleTree) (importOne : Text → Importer Unit) (name : Text) :
    loadEach tree importOne [name] = loadOne tree importOne name := by
  rw [loadEach]
  exact bind_pure _

end Missing

section Import

/-- How the imports of a module that is loaded at the top are run. -/
abbrev nested (tree : ModuleTree) : Text → Importer Unit := importFrom tree (tree.modules.length + 1)

private theorem importModule_run (tree : ModuleTree) (name : Text) (world : World) :
    (importModule tree name).run.run world =
      (loadEach tree (nested tree) (missing world name)).run.run world := rfl

theorem loadOne_of_loaded (h : isLoaded world name = true) :
    (loadOne tree importOne name).run.run world = (.ok (), world) := by
  rw [loadOne, run_get_bind, if_pos h]
  rfl

theorem importModule_of_loaded (h : isLoaded world name = true) :
    (importModule tree name).run.run world = (.ok (), world) := by
  rw [importModule_run, missing_of_loaded h]
  rfl

/-- A module inside another one is imported behind it. -/
theorem importModule_append (h : pathTo inner = pathTo outer ++ deeper)
    (fresh : ∀ name ∈ deeper, isLoaded world name = false) :
    (importModule tree inner).run.run world =
      (importModule tree outer >>= fun _ => loadEach tree (nested tree) deeper).run.run world := by
  rw [importModule_run, missing_append h fresh, loadEach_append]
  exact run_bind_congr (importModule_run tree outer world).symm

/-- A module that was loaded without trouble is there. -/
private theorem loaded_of_loadOne (imports : ∀ other, Keeps (fun world => name ∈ loadedNames world) (importOne other))
    (h : Gives (loadOne tree importOne name) world () after) : name ∈ loadedNames after := by
  have kept := (isLasting_names (name ∈ ·)).isKept
  cases loaded : isLoaded world name with
  | true =>
    cases (loadOne_of_loaded loaded).symm.trans h
    exact isLoaded_iff.mp loaded
  | false =>
    rw [loadOne] at h
    have h := h.bind_get
    rw [if_neg (by simp [loaded])] at h
    dsimp only at h
    split at h
    · cases h
    · split at h
      · cases h
      · rename_i source found
        have named : source.name = name := by simpa using List.find?_some found
        obtain ⟨_, middle, entered, bound⟩ := h.bind
        have there : name ∈ loadedNames middle := by
          obtain ⟨_, ran, rfl⟩ := gives_runModule_of_enterModule entered
          have start : name ∈ loadedNames (entering source.name world) := by
            rw [loadedNames_entering, named]
            exact List.mem_append_right _ (List.mem_singleton_self name)
          rw [loadedNames_markComplete]
          exact (keeps_runModule kept imports source).of_gives start ran
        split at bound
        · cases bound.modify
          rwa [loadedNames_bindName]
        · cases bound.pure.2
          exact there

theorem loaded_of_importModule (h : Gives (importModule tree name) world () after) :
    isLoaded after name = true := by
  cases loaded : isLoaded world name with
  | true =>
    cases (importModule_of_loaded loaded).symm.trans h
    exact loaded
  | false =>
    obtain ⟨front, missed, -⟩ := exists_missing loaded
    have h : Gives (loadEach tree (nested tree) (front ++ [name])) world () after := missed ▸ h
    rw [loadEach_append, loadEach_singleton] at h
    obtain ⟨_, _, -, last⟩ := h.bind
    exact isLoaded_iff.mpr (loaded_of_loadOne (keeps_loaded tree name _) last)

end Import

section Unloadable

/-- A module inside a package cannot be loaded: there is none of its name, or what is around it holds none. -/
structure CannotLoad (tree : ModuleTree) (name : Text) : Prop where
  inside : parentOf name ≠ []
  lacking : (tree.isPackage (parentOf name) && (tree.find? name).isSome) = false

theorem CannotLoad.loadOne (h : CannotLoad tree name) (importOne : Text → Importer Unit)
    (fresh : isLoaded world name = false) :
    ∃ cause, (loadOne tree importOne name).run.run world = (.error (.trouble cause), world) := by
  have inside : (parentOf name).isEmpty = false := by simpa using h.inside
  rw [Loading.loadOne, run_get_bind, if_neg (by simp [fresh])]
  dsimp only
  split
  · exact ⟨_, rfl⟩
  · rename_i package
    have package : tree.isPackage (parentOf name) = true := by simpa [inside] using package
    have absent : tree.find? name = none := by simpa [package] using h.lacking
    rw [absent]
    exact ⟨_, rfl⟩

/-- Nothing on the way from a module to one inside it is among some names. -/
def NoneBetween (name whole : Text) (names : List Text) : Prop :=
  ∀ inner, Encloses name inner → Encloses inner whole → inner ∉ names

/-- What is around a module that cannot be loaded does not help to load what is on the way from it. -/
theorem CannotLoad.keeps (h : CannotLoad tree name) (whole : Text) (fuel : Nat) :
    ∀ other, Keeps (fun world => NoneBetween name whole (loadedNames world)) (importFrom tree fuel other) := by
  by_cases inside : Encloses name whole
  case neg => exact fun _ _ _ inner outer within => absurd (outer.trans within) inside
  have kept := (isLasting_names (NoneBetween name whole)).isKept
  have admits (other : Text) (outside : ¬ (Encloses name other ∧ Encloses other whole)) :
      Admits (fun world => NoneBetween name whole (loadedNames world)) other := by
    refine ⟨fun world none inner outer within => ?_, fun world none inner outer within hin => ?_⟩
    · rw [loadedNames_entering, List.mem_append, List.mem_singleton, not_or]
      exact ⟨none inner outer within, fun same => outside (same ▸ ⟨outer, within⟩)⟩
    · exact none inner outer within (mem_loadedNames_forget.mp hin).1
  induction fuel with
  | zero => exact fun _ => keeps_throw _
  | succ fuel ih =>
    intro other world start
    have away (names : List Text) (outside : ∀ entered ∈ names, ¬ (Encloses name entered ∧ Encloses entered whole)) :=
      keeps_loadEach kept ih tree names fun entered he _ _ _ => admits entered (outside entered he)
    rw [importFrom, run_get_bind]
    by_cases reached : name ∈ missing world other
    · -- the way to the other module leads over this one, where it ends
      obtain ⟨front, deeper, missed, around⟩ := exists_missing_of_mem reached
      rw [missed, loadEach_append]
      refine Keeps.bind (away front fun entered he within =>
        Encloses.not_of_mem_packagesOf (around entered he) within.1) (fun _ middle kept => ?_) world start
      obtain ⟨trouble, failed⟩ := h.loadOne (importFrom tree fuel)
        (isLoaded_eq_false_iff.mpr (kept name (List.prefix_refl _) inside))
      rw [loadEach, run_bind_error failed]
      exact kept
    · -- what is between this one and the whole would have been reached over this one
      refine away (missing world other) (fun entered he between => reached ?_) world start
      refine mem_missing_of_encloses he between.1 fun inner outer within => isLoaded_eq_false_iff.mpr ?_
      exact start inner outer (within.trans between.2)

/-- A module stays away where another one is entered and forgotten. -/
private theorem admits_unloaded {other : Text} (apart : name ≠ other) :
    Admits (fun world => name ∉ loadedNames world) other where
  entered world away := by
    rw [loadedNames_entering, List.mem_append, List.mem_singleton, not_or]
    exact ⟨away, apart⟩
  forgotten _ away hin := away (mem_loadedNames_forget.mp hin).1

/-- A module that does not stay where it is loaded is never loaded. -/
private theorem keeps_unloaded
    (own : ∀ importOne, Keeps (fun world => name ∉ loadedNames world) (loadOne tree importOne name))
    (fuel : Nat) (other : Text) : Keeps (fun world => name ∉ loadedNames world) (importFrom tree fuel other) := by
  refine keeps_importFrom_of_loadOne tree (fun importOne imports entered => ?_) fuel other
  by_cases same : entered = name
  · exact same ▸ own importOne
  · exact keeps_loadOne (isLasting_names (name ∉ ·)).isKept imports tree entered fun _ _ _ => admits_unloaded (Ne.symm same)

/-- What is none of the modules is never loaded. -/
theorem keeps_unloaded_of_absent (absent : tree.find? name = none) (fuel : Nat) (other : Text) :
    Keeps (fun world => name ∉ loadedNames world) (importFrom tree fuel other) := by
  refine keeps_unloaded (fun importOne world start => ?_) fuel other
  rw [loadOne, run_get_bind, if_neg (by simp [isLoaded_eq_false_iff.mpr start])]
  dsimp only
  split
  · exact start
  · rw [absent]
    exact start

variable {source : ModuleSource} (faulty : source.fault.isSome = true)
include faulty

private theorem fails_runModule (importOne : Text → Importer Unit) : Fails (runModule importOne source) := by
  obtain ⟨fault, hfault⟩ := Option.isSome_iff_exists.mp faulty
  refine fails_bind fun _ => fails_bind fun _ => fails_bind fun _ => fails_bind fun _ => ?_
  rw [hfault]
  exact fails_bind fun _ => fails_throw _

private theorem enterModule_of_faulty (importOne : Text → Importer Unit) (world : World) :
    ∃ trouble after, (enterModule importOne source).run.run world = (.error trouble, forget source.name after) := by
  cases ran : (runModule importOne source).run.run (entering source.name world) with
  | mk outcome after =>
    cases outcome with
    | ok => exact absurd ran (fails_runModule faulty importOne _ _ _)
    | error trouble =>
      refine ⟨trouble, after, ?_⟩
      have entered : Gives (modify (entering source.name) : Importer Unit) world () (entering source.name world) := rfl
      rw [enterModule]
      exact (run_bind entered).trans (run_bind_error ((run_tryCatch_error ran).trans rfl))

/-- A module that raises at its end is forgotten wherever it is entered. -/
theorem keeps_unloaded_of_faulty (found : tree.find? name = some source) (fuel : Nat) (other : Text) :
    Keeps (fun world => name ∉ loadedNames world) (importFrom tree fuel other) := by
  have named : source.name = name := by simpa using List.find?_some found
  refine keeps_unloaded (fun importOne world start => ?_) fuel other
  rw [loadOne, run_get_bind, if_neg (by simp [isLoaded_eq_false_iff.mpr start])]
  dsimp only
  split
  · exact start
  · obtain ⟨trouble, after, failed⟩ := enterModule_of_faulty faulty importOne world
    rw [found]
    dsimp only
    rw [run_bind_error failed]
    exact fun hin => (mem_loadedNames_forget.mp hin).2 named.symm

end Unloadable

end Specimen.Loading
