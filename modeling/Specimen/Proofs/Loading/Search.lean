import Mathlib.Logic.Function.Iterate
import Specimen.Proofs.Loading.Escapes
import Specimen.Proofs.Loading.Import

/-! Looking for a module imports the packages around it. What this leaves behind does not change what importing
the module itself does, and looking inside a module is one attempt to import that one. -/
namespace Specimen.Loading
variable {tree : ModuleTree} {world after : World} {name outer inner whole : Text} {cause : Escape}

section Found

/-- Whether a name can be found as a module; what ends the search early means that it cannot. -/
def finds (tree : ModuleTree) (world : World) (name : Text) : Bool :=
  ((canFind tree name).run.run world).1.toOption.getD false

theorem gives_isFound {found : Bool} (h : Gives (canFind tree name) world found after) :
    Gives (isFound tree name) world found after := by
  rw [Gives, isFound, run_bind (gives_state _ world), show (canFind tree name).run.run world = _ from h]
  rfl

private theorem gives_isFound_of_trouble {cause : Trouble}
    (h : (canFind tree name).run.run world = (.error (.trouble cause), after)) :
    Gives (isFound tree name) world false after := by
  rw [Gives, isFound, run_bind (gives_state _ world), h]
  rfl

private theorem isFound_run_of_escape (h : (canFind tree name).run.run world = (.error (.escape cause), after)) :
    (isFound tree name).run.run world = (.error cause, after) := by
  rw [isFound, run_bind (gives_state _ world), h]
  rfl

/-- Looking for a module ends early only with what one of the modules raises. -/
theorem failsAmong_isFound (tree : ModuleTree) (name : Text) : FailsAmong tree.Raises (isFound tree name) := by
  intro world cause after failed
  cases ran : (canFind tree name).run.run world with
  | mk outcome middle =>
    rcases outcome with (trouble | escaped) | found
    · cases (gives_isFound_of_trouble ran).symm.trans failed
    · cases (isFound_run_of_escape ran).symm.trans failed
      cases failsAmong_canFind tree name world _ _ ran with
      | escape raised => exact raised
    · cases (gives_isFound ran).symm.trans failed

theorem gives_of_finds (h : finds tree world name = true) : ∃ after, Gives (canFind tree name) world true after := by
  rw [finds] at h
  cases hrun : (canFind tree name).run.run world with
  | mk outcome after =>
    rw [hrun] at h
    cases outcome with
    | error trouble => cases h
    | ok found => exact ⟨after, hrun.trans (congrArg (fun b => (Except.ok b, after)) h)⟩

theorem canFind_of_relative (h : name.startsWith "." = true) :
    (canFind tree name).run.run world = (.ok false, world) := by
  rw [canFind, if_pos h]
  rfl

theorem canFind_of_loaded (absolute : name.startsWith "." = false) (h : isLoaded world name = true) :
    Gives (canFind tree name) world true world := by
  rw [canFind, if_neg (by simp [absolute]), Gives, run_get_bind, if_pos h]
  rfl

private theorem canFind_of_outermost (absolute : name.startsWith "." = false) (fresh : isLoaded world name = false)
    (top : parentOf name = []) :
    (canFind tree name).run.run world = (.ok (tree.find? name).isSome, world) := by
  rw [canFind, if_neg (by simp [absolute]), run_get_bind, if_neg (by simp [fresh])]
  dsimp only
  rw [if_pos (by rw [top]; rfl)]
  rfl

theorem canFind_of_inside (absolute : name.startsWith "." = false) (fresh : isLoaded world name = false)
    (inside : parentOf name ≠ []) :
    (canFind tree name).run.run world =
      (importModule tree (parentOf name) >>= fun _ =>
        pure (tree.isPackage (parentOf name) && (tree.find? name).isSome)).run.run world := by
  rw [canFind, if_neg (by simp [absolute]), run_get_bind, if_neg (by simp [fresh])]
  dsimp only
  rw [if_neg (by simpa using inside)]

/-- A name that is found is no relative one. It is loaded, or it is one of the modules and at the top, or in a
package that can be imported. -/
theorem found_cases (h : Gives (canFind tree name) world true after) :
    name.startsWith "." = false ∧
      ((isLoaded world name = true ∧ after = world) ∨
        (isLoaded world name = false ∧ parentOf name = [] ∧ (tree.find? name).isSome = true ∧ after = world) ∨
        (isLoaded world name = false ∧ parentOf name ≠ [] ∧ Gives (importModule tree (parentOf name)) world () after ∧
          (tree.isPackage (parentOf name) && (tree.find? name).isSome) = true)) := by
  cases absolute : name.startsWith "." with
  | true => cases (canFind_of_relative absolute).symm.trans h
  | false =>
    refine ⟨rfl, ?_⟩
    cases fresh : isLoaded world name with
    | true =>
      cases (canFind_of_loaded absolute fresh).symm.trans h
      exact .inl ⟨rfl, rfl⟩
    | false =>
      by_cases top : parentOf name = []
      · have same := (canFind_of_outermost absolute fresh top).symm.trans h
        obtain ⟨found, rfl⟩ := Prod.mk.inj same
        exact .inr (.inl ⟨rfl, top, Except.ok.inj found, rfl⟩)
      · obtain ⟨_, middle, imported, rest⟩ := Gives.bind ((canFind_of_inside absolute fresh top).symm.trans h)
        obtain ⟨found, rfl⟩ := rest.pure
        exact .inr (.inr ⟨rfl, top, imported, found.symm⟩)

/-- Importing a module does the same once it has been found. -/
theorem importModule_of_found (h : Gives (canFind tree name) world true after) :
    (importModule tree name).run.run after = (importModule tree name).run.run world := by
  rcases (found_cases h).2 with ⟨-, rfl⟩ | ⟨-, -, -, rfl⟩ | ⟨fresh, inside, imported, -⟩
  · rfl
  · rfl
  · have path := pathTo_parentOf inside
    have alone : ∀ middle ∈ [name], isLoaded world middle = false := by simpa using fresh
    rw [importModule_append path alone, run_bind imported, loadEach_singleton]
    cases loaded : isLoaded after name with
    | true => rw [importModule_of_loaded loaded, loadOne_of_loaded loaded]
    | false =>
      have around := loaded_of_importModule imported
      rw [importModule_append path (by simpa using loaded),
        run_bind (show Gives _ _ _ _ from importModule_of_loaded around), loadEach_singleton]

end Found

section Attempts

/-- Whether a module can be imported. -/
def canImport (tree : ModuleTree) (world : World) (name : Text) : Bool :=
  ((importModule tree name).run.run world).1.isOk

/-- The world after an attempt to import a module. -/
def attempt (tree : ModuleTree) (name : Text) (world : World) : World :=
  ((importModule tree name).run.run world).2

theorem importModule_run_of_canImport (h : canImport tree world name = true) :
    Gives (importModule tree name) world () (attempt tree name world) := by
  rw [canImport] at h
  cases hrun : (importModule tree name).run.run world with
  | mk outcome after =>
    rw [hrun] at h
    cases outcome with
    | error trouble => cases h
    | ok => rw [Gives, attempt, hrun]

/-- Whether importing a module ends with trouble. -/
def importFails (tree : ModuleTree) (world : World) (name : Text) : Bool :=
  match ((importModule tree name).run.run world).1 with
  | .error (.trouble _) => true
  | _ => false

theorem importModule_run_of_importFails (h : importFails tree world name = true) :
    ∃ cause, (importModule tree name).run.run world = (.error (.trouble cause), attempt tree name world) := by
  rw [importFails] at h
  split at h
  · rename_i cause failed
    exact ⟨cause, Prod.ext failed rfl⟩
  · cases h

/-- Importing a module succeeds or ends with trouble, unless an exception passes through it. -/
theorem importModule_cases (tree : ModuleTree) (world : World) (name : Text) :
    canImport tree world name = true ∨ importFails tree world name = true ∨
      ∃ cause, (importModule tree name).run.run world = (.error (.escape cause), attempt tree name world) := by
  rw [canImport, importFails, attempt]
  rcases (importModule tree name).run.run world with ⟨(trouble | cause) | done, after⟩
  · exact .inr (.inl rfl)
  · exact .inr (.inr ⟨cause, rfl⟩)
  · exact .inl rfl

theorem attempt_of_loaded (h : isLoaded world name = true) : attempt tree name world = world := by
  rw [attempt, importModule_of_loaded h]

theorem canImport_of_loaded (h : isLoaded world name = true) : canImport tree world name = true := by
  rw [canImport, importModule_of_loaded h]
  rfl

/-- What importing a module keeps is kept however often it is tried. -/
theorem holds_iterate {holds : World → Prop} (keeps : Keeps holds (importModule tree name)) (start : holds world)
    (n : Nat) : holds ((attempt tree name)^[n] world) := by
  induction n generalizing world with
  | zero => exact start
  | succ n ih => exact ih (keeps world start)

private theorem isLoaded_iterate (other : Text) (h : isLoaded world name = true) (n : Nat) :
    isLoaded ((attempt tree other)^[n] world) name = true :=
  isLoaded_iff.mpr (holds_iterate (keeps_loaded tree name _ other) (isLoaded_iff.mp h) n)

/-- A module that has been found is found again after attempts to import it, and the packages around it need not
be imported once more. -/
theorem canFind_iterate (h : Gives (canFind tree name) world true after) (n : Nat) :
    Gives (canFind tree name) ((attempt tree name)^[n + 1] world) true ((attempt tree name)^[n + 1] world) := by
  obtain ⟨absolute, cases⟩ := found_cases h
  cases loaded : isLoaded ((attempt tree name)^[n + 1] world) name with
  | true => exact canFind_of_loaded absolute loaded
  | false =>
    rcases cases with ⟨there, -⟩ | ⟨-, top, found, -⟩ | ⟨-, inside, imported, found⟩
    · rw [isLoaded_iterate name there] at loaded
      cases loaded
    · rw [Gives, canFind_of_outermost absolute loaded top, found]
    · have around : isLoaded ((attempt tree name)^[n + 1] world) (parentOf name) = true := by
        have same : attempt tree name world = attempt tree name after :=
          congrArg Prod.snd (importModule_of_found h).symm
        rw [Function.iterate_succ_apply, same, ← Function.iterate_succ_apply]
        exact isLoaded_iterate name (loaded_of_importModule imported) _
      rw [Gives, canFind_of_inside absolute loaded inside,
        run_bind (show Gives _ _ _ _ from importModule_of_loaded around), found]
      rfl

end Attempts

section Inside

/-- Importing what is inside a module begins by importing what is around it. -/
private theorem importModule_inside (tree : ModuleTree) (package : parentOf outer ≠ []) (within : Encloses outer inner)
    (none : NoneBetween outer inner (loadedNames world)) :
    ∃ deeper, (importModule tree inner).run.run world =
      (importModule tree (parentOf outer) >>= fun _ =>
        loadEach tree (nested tree) (outer :: deeper)).run.run world := by
  obtain ⟨deeper, path, inside⟩ := within.exists_pathTo
  rw [pathTo_parentOf package, List.append_assoc, List.singleton_append] at path
  refine ⟨deeper, importModule_append path fun middle hm => isLoaded_eq_false_iff.mpr ?_⟩
  have on : Encloses middle inner := Encloses.of_mem_pathTo (path ▸ List.mem_append_right _ hm)
  rcases List.mem_cons.mp hm with rfl | hm
  · exact none middle (List.prefix_refl _) on
  · exact none middle (inside middle hm) on

/-- Looking inside a module begins by importing the package around it, and comes to nothing where that package
does not hold the module. -/
private theorem canFind_inside (package : parentOf outer ≠ []) (none : NoneBetween outer whole (loadedNames world))
    (absolute : inner.startsWith "." = false) (within : Encloses outer inner) (between : Encloses inner whole) :
    ∃ next, (canFind tree inner).run.run world = (importModule tree (parentOf outer) >>= next).run.run world ∧
      ∀ after, CannotLoad tree outer → outer ∉ loadedNames after → Gives (next ()) after false after ∨
        ∃ cause, (next ()).run.run after = (.error (.trouble cause), after) := by
  have fresh : isLoaded world inner = false := isLoaded_eq_false_iff.mpr (none inner within between)
  rcases within.eq_or_parentOf with rfl | deep
  · refine ⟨_, canFind_of_inside absolute fresh package, fun after cannot _ => .inl ?_⟩
    rw [cannot.lacking]
    rfl
  · have parent : parentOf inner ≠ [] := deep.ne_nil package
    have between : NoneBetween outer (parentOf inner) (loadedNames world) := fun middle hout hin =>
      none middle hout ((hin.trans (encloses_parentOf parent)).trans between)
    obtain ⟨deeper, down⟩ := importModule_inside tree package deep between
    refine ⟨fun _ => loadEach tree (nested tree) (outer :: deeper) >>= fun _ =>
      pure (tree.isPackage (parentOf inner) && (tree.find? inner).isSome), ?_, fun after cannot away => .inr ?_⟩
    · rw [canFind_of_inside absolute fresh parent, run_bind_congr down, bind_assoc]
    · obtain ⟨cause, failed⟩ := cannot.loadOne (nested tree) (isLoaded_eq_false_iff.mpr away)
      rw [loadEach, bind_assoc]
      exact ⟨cause, run_bind_error failed⟩

/-- Looking for a module, or for one inside it, comes to nothing: importing the package around it fails, or that
package does not hold it. -/
structure Blocks (tree : ModuleTree) (outer whole : Text) (world : World) : Prop where
  inside : parentOf outer ≠ []
  none : NoneBetween outer whole (loadedNames world)
  blocked : importFails tree world (parentOf outer) = true ∨
    (canImport tree world (parentOf outer) = true ∧ CannotLoad tree outer ∧
      outer ∉ loadedNames (attempt tree (parentOf outer) world))

/-- Looking for what is blocked is an attempt to import the package around it. -/
theorem Blocks.isFound (h : Blocks tree outer whole world) (absolute : inner.startsWith "." = false)
    (within : Encloses outer inner) (between : Encloses inner whole) :
    Gives (isFound tree inner) world false (attempt tree (parentOf outer) world) := by
  obtain ⟨next, begins, misses⟩ := canFind_inside h.inside h.none absolute within between
  rcases h.blocked with fails | ⟨able, cannot, away⟩
  · obtain ⟨cause, failed⟩ := importModule_run_of_importFails fails
    exact gives_isFound_of_trouble (begins.trans (run_bind_error failed))
  · have begins := begins.trans (run_bind (importModule_run_of_canImport able))
    rcases misses _ cannot away with gives | ⟨cause, failed⟩
    · exact gives_isFound (begins.trans gives)
    · exact gives_isFound_of_trouble (begins.trans failed)

/-- What passes through importing a package passes through looking inside it. -/
theorem isFound_run_of_importModule (package : parentOf outer ≠ [])
    (none : NoneBetween outer whole (loadedNames world)) (absolute : inner.startsWith "." = false)
    (within : Encloses outer inner) (between : Encloses inner whole)
    (passed : (importModule tree (parentOf outer)).run.run world = (.error (.escape cause), after)) :
    (isFound tree inner).run.run world = (.error cause, after) := by
  obtain ⟨next, begins, -⟩ := canFind_inside package none absolute within between
  exact isFound_run_of_escape (begins.trans (run_bind_error passed))

end Inside

end Specimen.Loading
