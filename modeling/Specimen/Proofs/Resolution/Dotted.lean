import Specimen.Loading.Own
import Specimen.Proofs.Loading.Search
import Specimen.Resolution.Handle

/-! A dotted name leads to the same class as the name that tells which of its parts are the module, although the
search for the module imports the packages around longer names. -/
namespace Specimen.Resolver
open Loading
variable {tree : ModuleTree} {world other after : World} {name shown moduleName attr : Text} {parts : List Text}
  {count : Nat} {cause : Escape}

section Attribute

/-- What resolving a name comes to: a class, a refusal of a name, or an exception outside the general ones that a
module raises. -/
inductive IsAnswer (tree : ModuleTree) (name : Text) : Except Failure Handle → Prop
  | found (c : ClassRef) : IsAnswer tree name (.ok ⟨Text.trim name, some c, true, none⟩)
  | refused (message shown : Text) : IsAnswer tree name (.error (.refusal (.resolution message (some shown))))
  | escaped {cause : Escape} (raised : tree.Raises cause) : IsAnswer tree name (.error (.escape cause))

/-- Two names lead to the same class and leave the same world behind, or both are refused, or the same exception
passes through both and leaves the same world behind. -/
inductive Agree : Except Failure Handle × World → Except Failure Handle × World → Prop
  | found (name shown : Text) (c : ClassRef) (world : World) :
    Agree (.ok ⟨name, some c, true, none⟩, world) (.ok ⟨shown, some c, true, none⟩, world)
  | refused (message wording name shown : Text) (world other : World) :
    Agree (.error (.refusal (.resolution message (some name))), world)
      (.error (.refusal (.resolution wording (some shown))), other)
  | escaped (cause : Escape) (world : World) : Agree (.error (.escape cause), world) (.error (.escape cause), world)

/-- The class that an attribute of a module is, found under a name. -/
def attributeHandle (tree : ModuleTree) (name moduleName attr : Text) : Resolver Handle := do
  let found ← load
    (fun trouble => .resolution ("Cannot resolve " ++ name ++ ": " ++ trouble.text) (some name))
    (importAttribute tree moduleName attr)
  match asClass found with
  | some c => return ⟨name, some c, true, none⟩
  | none => refuse name (name ++ " is not a class")

private theorem resolveImported_eq (tree : ModuleTree) (name : Text) :
    resolveImported tree name =
      trimmed name >>= fun shown => splitName tree shown >>= fun split =>
        attributeHandle tree shown split.1 split.2 := rfl

/-- The class that an attribute of a module is, if it is one and nothing passes through the import, and the world
after it has been looked up. -/
def lookUp (tree : ModuleTree) (moduleName attr : Text) (world : World) : Except Escape (Option ClassRef) × World :=
  let result := (importAttribute tree moduleName attr).run.run world
  (match result.1 with
    | .ok found => .ok (asClass found)
    | .error (.trouble _) => .ok none
    | .error (.escape cause) => .error cause, result.2)

/-- How a name is answered whose attribute has been looked up. -/
def answer (name message : Text) : Except Escape (Option ClassRef) → Except Failure Handle
  | .ok (some c) => .ok ⟨name, some c, true, none⟩
  | .ok none => .error (.refusal (.resolution message (some name)))
  | .error cause => .error (.escape cause)

private theorem attributeHandle_run (tree : ModuleTree) (name moduleName attr : Text) (world : World) :
    ∃ message, (attributeHandle tree name moduleName attr).run.run world =
      (answer name message (lookUp tree moduleName attr world).1, (lookUp tree moduleName attr world).2) := by
  rw [attributeHandle, lookUp]
  cases h : (importAttribute tree moduleName attr).run.run world with
  | mk outcome after =>
    rcases outcome with (trouble | cause) | found
    · exact ⟨_, run_bind_error (run_adapt_error h)⟩
    · exact ⟨[], run_bind_error (run_adapt_error h)⟩
    · rw [load, run_bind (Gives.adapt h)]
      dsimp only
      cases hc : asClass found with
      | none => exact ⟨name ++ " is not a class", rfl⟩
      | some c => exact ⟨[], rfl⟩

private theorem agree_of_lookUp_eq (h : lookUp tree moduleName attr world = lookUp tree moduleName attr other) :
    Agree ((attributeHandle tree name moduleName attr).run.run world)
      ((attributeHandle tree shown moduleName attr).run.run other) := by
  obtain ⟨message, ran⟩ := attributeHandle_run tree name moduleName attr world
  obtain ⟨wording, ran'⟩ := attributeHandle_run tree shown moduleName attr other
  rw [ran, ran', h]
  rcases (lookUp tree moduleName attr other).1 with cause | _ | c
  · exact .escaped ..
  · exact .refused ..
  · exact .found ..

private theorem agree_of_lookUp_none (h : (lookUp tree moduleName attr world).1 = .ok none)
    (h' : (lookUp tree moduleName attr other).1 = .ok none) :
    Agree ((attributeHandle tree name moduleName attr).run.run world)
      ((attributeHandle tree shown moduleName attr).run.run other) := by
  obtain ⟨message, ran⟩ := attributeHandle_run tree name moduleName attr world
  obtain ⟨wording, ran'⟩ := attributeHandle_run tree shown moduleName attr other
  rw [ran, ran', h, h']
  exact .refused ..

/-- Importing a module does the same in two worlds, or ends with trouble in both. -/
def ImportsAlike (tree : ModuleTree) (name : Text) (world other : World) : Prop :=
  (importModule tree name).run.run world = (importModule tree name).run.run other ∨
    (importFails tree world name = true ∧ importFails tree other name = true)

private theorem lookUp_of_relative (h : moduleName.startsWith "." = true ∨ moduleName = []) :
    (lookUp tree moduleName attr world).1 = .ok none := by
  have failed : ∃ cause, (importNamed tree moduleName).run.run world = (.error (.trouble cause), world) := by
    rw [importNamed]
    rcases h with relative | rfl
    · exact ⟨_, by rw [if_pos relative]; rfl⟩
    · exact ⟨_, rfl⟩
  obtain ⟨cause, failed⟩ := failed
  rw [lookUp, importAttribute, run_bind_error failed]

private theorem importNamed_of_plain (absolute : moduleName.startsWith "." = false) (filled : moduleName ≠ []) :
    importNamed tree moduleName = importModule tree moduleName := by
  rw [importNamed, if_neg (by simp [absolute]), if_neg (by simpa using filled)]

/-- Looking an attribute up agrees where importing its module does. -/
private theorem agree_of_importsAlike (h : ImportsAlike tree moduleName world other) :
    Agree ((attributeHandle tree name moduleName attr).run.run world)
      ((attributeHandle tree shown moduleName attr).run.run other) := by
  by_cases plain : moduleName.startsWith "." = true ∨ moduleName = []
  · exact agree_of_lookUp_none (lookUp_of_relative plain) (lookUp_of_relative plain)
  obtain ⟨absolute, filled⟩ := not_or.mp plain
  have named : importNamed tree _ = _ := importNamed_of_plain (Bool.eq_false_iff.mpr absolute) filled
  have failing {world : World} (h : importFails tree world moduleName = true) :
      (lookUp tree moduleName attr world).1 = .ok none := by
    obtain ⟨cause, failed⟩ := importModule_run_of_importFails h
    rw [lookUp, importAttribute, named, run_bind_error failed]
  rcases h with same | ⟨fails, fails'⟩
  · refine agree_of_lookUp_eq ?_
    rw [lookUp, lookUp, importAttribute, named]
    cases hrun : (importModule tree moduleName).run.run other with
    | mk outcome after =>
      rw [hrun] at same
      cases outcome with
      | error halt => rw [run_bind_error hrun, run_bind_error same]
      | ok => rw [run_bind (show Gives _ _ _ _ from hrun), run_bind (show Gives _ _ _ _ from same)]
  · exact agree_of_lookUp_none (failing fails) (failing fails')

/-- What passes through importing a module passes through looking an attribute of it up. -/
private theorem attributeHandle_run_of_escape (absolute : moduleName.startsWith "." = false) (filled : moduleName ≠ [])
    (passed : (importModule tree moduleName).run.run world = (.error (.escape cause), after)) :
    (attributeHandle tree name moduleName attr).run.run world = (.error (.escape cause), after) := by
  rw [← importNamed_of_plain absolute filled] at passed
  rw [attributeHandle, importAttribute]
  exact run_bind_error (run_adapt_error (run_bind_error passed))

end Attribute

section Search

private theorem searchModule_miss (h : Gives (isFound tree (beginning parts (count + 1))) world false after) :
    (searchModule tree name parts (count + 1)).run.run world =
      (searchModule tree name parts count).run.run after := by
  rw [searchModule]
  exact run_bind h.adapt

private theorem searchModule_hit (name : Text) (positive : 0 < count)
    (h : Gives (isFound tree (beginning parts count)) world true after) :
    Gives (searchModule tree name parts count) world (beginning parts count, remainder parts count) after := by
  obtain ⟨before, rfl⟩ := Nat.exists_eq_succ_of_ne_zero (Nat.ne_of_gt positive)
  rw [searchModule]
  exact run_bind h.adapt

private theorem searchModule_pass
    (h : (isFound tree (beginning parts (count + 1))).run.run world = (.error cause, after)) :
    (searchModule tree name parts (count + 1)).run.run world = (.error (.escape cause), after) := by
  rw [searchModule]
  exact run_bind_error (run_adapt_error h)

/-- A search goes on over beginnings that are not found, from one world to the next. -/
private theorem searchModule_skip (name : Text) (extra : Nat) (walk : Nat → World)
    (h : ∀ more n, count < more → more + n = count + extra →
      Gives (isFound tree (beginning parts more)) (walk n) false (walk (n + 1))) :
    (searchModule tree name parts (count + extra)).run.run (walk 0) =
      (searchModule tree name parts count).run.run (walk extra) := by
  induction extra generalizing walk with
  | zero => rfl
  | succ extra ih =>
    rw [← Nat.add_assoc, searchModule_miss (h (count + extra + 1) 0 (by omega) (by omega))]
    exact ih (fun n => walk (n + 1)) fun more n longer length => h more (n + 1) longer (by omega)

end Search

section Longest

/-- The first parts of a name are its longest beginning, short of the whole, under which a module can be found
where the search begins. -/
structure IsLongest (tree : ModuleTree) (world : World) (parts : List Text) (count : Nat) : Prop where
  positive : 0 < count
  proper : count < parts.length
  found : finds tree world (beginning parts count) = true
  longest : ∀ more < parts.length, count < more → finds tree world (beginning parts more) = false

instance : Decidable (IsLongest tree world parts count) :=
  decidable_of_iff (0 < count ∧ count < parts.length ∧ finds tree world (beginning parts count) = true ∧
      ∀ more < parts.length, count < more → finds tree world (beginning parts more) = false)
    ⟨fun ⟨positive, proper, found, longest⟩ => ⟨positive, proper, found, longest⟩,
      fun ⟨positive, proper, found, longest⟩ => ⟨positive, proper, found, longest⟩⟩

/-- Importing a module ends with trouble however often it is tried, and leaves none loaded that a longer beginning of the
name is. -/
structure KeepsFailing (tree : ModuleTree) (world : World) (parts : List Text) (count : Nat) : Prop where
  fails : ∀ n, importFails tree ((attempt tree (beginning parts count))^[n] world) (beginning parts count) = true
  leaves : ∀ n more, count < more → more < parts.length →
    beginning parts more ∉ loadedNames ((attempt tree (beginning parts count))^[n] world)

/-- A module that raises at its end goes on to fail, where no longer beginning of the name is a module and nothing
passes through the import. -/
private theorem KeepsFailing.of_fault {source : ModuleSource} (found : tree.find? (beginning parts count) = some source)
    (faulty : source.fault.isSome = true) (fresh : beginning parts count ∉ loadedNames world)
    (apart : ∀ more, count < more → more < parts.length →
      tree.find? (beginning parts more) = none ∧ beginning parts more ∉ loadedNames world)
    (handled : ∀ n cause after, (importModule tree (beginning parts count)).run.run
      ((attempt tree (beginning parts count))^[n] world) ≠ (.error (.escape cause), after)) :
    KeepsFailing tree world parts count := by
  have away := holds_iterate (keeps_unloaded_of_faulty faulty found _ (beginning parts count)) fresh
  refine ⟨fun n => ?_, fun n more longer proper => ?_⟩
  · rcases importModule_cases tree ((attempt tree (beginning parts count))^[n] world) (beginning parts count) with
      able | fails | ⟨cause, escaped⟩
    · have loaded := loaded_of_importModule (importModule_run_of_canImport able)
      rw [← Function.iterate_succ_apply' (attempt tree (beginning parts count))] at loaded
      exact absurd (isLoaded_iff.mp loaded) (away (n + 1))
    · exact fails
    · exact absurd escaped (handled n cause _)
  · obtain ⟨absent, unloaded⟩ := apart more longer proper
    exact holds_iterate (keeps_unloaded_of_absent absent _ (beginning parts count)) unloaded n

/-- Where longer beginnings are tried, a module whose import ends with trouble goes on to fail. -/
def IsSteady (tree : ModuleTree) (world : World) (parts : List Text) (count : Nat) : Prop :=
  count + 1 < parts.length → importFails tree world (beginning parts count) = true →
    KeepsFailing tree world parts count

private theorem noneBetween_beginning {names : List Text} (whole : ArePartsOf parts name)
    (longer : count + 1 < parts.length)
    (none : ∀ more, count < more → more < parts.length → beginning parts more ∉ names) :
    NoneBetween (beginning parts (count + 1)) (beginning parts (parts.length - 1)) names := by
  intro inner outer within
  obtain ⟨same, le⟩ := within.exists_beginning whole (by omega)
  have length := List.IsPrefix.length_le outer
  rw [(whole.take (Nat.succ_pos count)).splitOn_eq, List.length_take] at length
  exact same ▸ none _ (by omega) (by omega)

variable (h : IsLongest tree world parts count)
include h

/-- Longer beginnings are as little relative as the one that is found. -/
theorem IsLongest.absolute (filled : beginning parts count ≠ []) {more : Nat} (longer : count ≤ more)
    (le : more ≤ parts.length) : (beginning parts more).startsWith "." = false := by
  obtain ⟨after, found⟩ := gives_of_finds h.found
  have absolute := (found_cases found).1
  rcases Nat.eq_or_lt_of_le longer with rfl | longer
  · exact absolute
  · obtain ⟨rest, same⟩ := exists_beginning_eq h.positive longer le
    obtain ⟨first, front, parted⟩ := List.exists_cons_of_ne_nil filled
    rw [parted] at absolute same
    rw [same]
    exact absolute

private theorem IsLongest.notMem_loadedNames (filled : beginning parts count ≠ []) {more : Nat} (longer : count < more)
    (proper : more < parts.length) : beginning parts more ∉ loadedNames world := by
  intro loaded
  have absolute := h.absolute filled (Nat.le_of_lt longer) (Nat.le_of_lt proper)
  have gives : Gives (canFind tree (beginning parts more)) world true world :=
    canFind_of_loaded absolute (isLoaded_iff.mpr loaded)
  have missed := h.longest more proper longer
  rw [finds, gives] at missed
  cases missed

variable (whole : ArePartsOf parts name)
include whole

private theorem IsLongest.parentOf_eq (longer : count + 1 < parts.length) :
    parentOf (beginning parts (count + 1)) = beginning parts count := by
  obtain ⟨before, rfl⟩ := Nat.exists_eq_succ_of_ne_zero (Nat.ne_of_gt h.positive)
  exact parentOf_beginning whole (by omega)

/-- The module that is found holds none of the name's next part if it can be imported. -/
private theorem IsLongest.cannotLoad (filled : beginning parts count ≠ []) (longer : count + 1 < parts.length)
    (able : canImport tree world (beginning parts count) = true) :
    CannotLoad tree (beginning parts (count + 1)) := by
  have parent := h.parentOf_eq whole longer
  have inside : parentOf (beginning parts (count + 1)) ≠ [] := parent ▸ filled
  refine ⟨inside, ?_⟩
  have absolute := h.absolute filled (Nat.le_succ count) (Nat.le_of_lt longer)
  have fresh := isLoaded_eq_false_iff.mpr (h.notMem_loadedNames filled (Nat.lt_succ_self count) longer)
  have missed := h.longest (count + 1) longer (Nat.lt_succ_self count)
  rw [finds, canFind_of_inside absolute fresh inside,
    run_bind (importModule_run_of_canImport (parent.symm ▸ able))] at missed
  exact missed

/-- Wherever attempts to import the module that is found lead, longer beginnings are blocked, unless an exception
passes through the import. -/
private theorem IsLongest.blocks (filled : beginning parts count ≠ []) (steady : IsSteady tree world parts count)
    (longer : count + 1 < parts.length)
    (settled : canImport tree world (beginning parts count) = true ∨
      importFails tree world (beginning parts count) = true) (n : Nat) :
    Blocks tree (beginning parts (count + 1)) (beginning parts (parts.length - 1))
      ((attempt tree (beginning parts count))^[n] world) := by
  have parent := h.parentOf_eq whole longer
  have inside : parentOf (beginning parts (count + 1)) ≠ [] := parent ▸ filled
  rcases settled with able | fails
  · have cannot := h.cannotLoad whole filled longer able
    have gives := importModule_run_of_canImport able
    have start : NoneBetween (beginning parts (count + 1)) (beginning parts (parts.length - 1))
        (loadedNames world) :=
      noneBetween_beginning whole longer fun _ => h.notMem_loadedNames filled
    have kept := (cannot.keeps (beginning parts (parts.length - 1)) _ (beginning parts count)).of_gives start gives
    have still := kept _ (List.prefix_refl _) (encloses_beginning whole (Nat.succ_pos count) (by omega))
    have loaded := loaded_of_importModule gives
    have settled : attempt tree (beginning parts count) _ = _ := attempt_of_loaded loaded
    cases n with
    | zero =>
      refine ⟨inside, start, .inr ?_⟩
      rw [parent]
      exact ⟨able, cannot, still⟩
    | succ n =>
      rw [Function.iterate_succ_apply, Function.iterate_fixed settled n]
      refine ⟨inside, kept, .inr ?_⟩
      rw [parent, settled]
      exact ⟨canImport_of_loaded loaded, cannot, still⟩
  · have failing := steady longer fails
    refine ⟨inside, noneBetween_beginning whole longer (failing.leaves n), .inl ?_⟩
    rw [parent]
    exact failing.fails n

/-- The search goes over the longer beginnings, and ends at the module that is found, which can be imported there as
where the search began. -/
private theorem IsLongest.search_settled {extra : Nat} (filled : beginning parts count ≠ [])
    (steady : IsSteady tree world parts count) (length : parts.length - 1 = count + (extra + 1))
    (settled : canImport tree world (beginning parts count) = true ∨
      importFails tree world (beginning parts count) = true) (shown : Text) :
    ∃ after, Gives (searchModule tree shown parts (count + (extra + 1))) world
      (beginning parts count, remainder parts count) after ∧
        ImportsAlike tree (beginning parts count) after world := by
  have longer : count + 1 < parts.length := by omega
  have blocks := h.blocks whole filled steady longer settled
  have parent := h.parentOf_eq whole longer
  obtain ⟨found, gives⟩ := gives_of_finds h.found
  have skipped := searchModule_skip shown (extra + 1)
    (fun n => (attempt tree (beginning parts count))^[n] world) fun more n further le => by
      rw [Function.iterate_succ_apply', ← parent]
      refine parent.symm ▸ (blocks n).isFound (h.absolute filled (Nat.le_of_lt further) (by omega)) ?_ ?_
      · exact encloses_beginning whole (Nat.succ_pos _) further
      · exact encloses_beginning whole (by omega) (by omega)
  have hit := searchModule_hit shown h.positive (gives_isFound (canFind_iterate gives extra))
  refine ⟨_, skipped.trans hit, ?_⟩
  rcases settled with able | fails
  · have imported := importModule_run_of_canImport able
    have loaded := loaded_of_importModule imported
    left
    rw [Function.iterate_succ_apply, Function.iterate_fixed (attempt_of_loaded loaded),
      importModule_of_loaded loaded]
    exact imported.symm
  · exact .inr ⟨(steady longer fails).fails _, fails⟩

/-- What passes through importing the module that is found passes through the search for longer beginnings. -/
private theorem IsLongest.search_passed {extra : Nat} (filled : beginning parts count ≠ [])
    (length : parts.length - 1 = count + (extra + 1)) (shown : Text)
    (passed : (importModule tree (beginning parts count)).run.run world = (.error (.escape cause), after)) :
    (searchModule tree shown parts (count + (extra + 1))).run.run world = (.error (.escape cause), after) := by
  rw [← Nat.add_assoc] at length ⊢
  have longer : count + 1 < parts.length := by omega
  have parent := h.parentOf_eq whole longer
  have none : NoneBetween (beginning parts (count + 1)) (beginning parts (parts.length - 1)) (loadedNames world) :=
    noneBetween_beginning whole longer fun _ => h.notMem_loadedNames filled
  refine searchModule_pass ?_
  refine isFound_run_of_importModule (parent ▸ filled) none (h.absolute filled (by omega) (by omega)) ?_ ?_
    (parent.symm ▸ passed)
  · exact encloses_beginning whole (Nat.succ_pos _) (by omega)
  · exact encloses_beginning whole (by omega) (by omega)

/-- The search ends at the module that is found, which can be imported there as where the search began, unless an
exception passes through the import and so through the search. -/
theorem IsLongest.search (steady : IsSteady tree world parts count) (shown : Text) :
    (∃ after, Gives (searchModule tree shown parts (parts.length - 1)) world
      (beginning parts count, remainder parts count) after ∧
        (beginning parts count = [] ∨ ImportsAlike tree (beginning parts count) after world)) ∨
    ∃ cause after, beginning parts count ≠ [] ∧
      (searchModule tree shown parts (parts.length - 1)).run.run world = (.error (.escape cause), after) ∧
      (importModule tree (beginning parts count)).run.run world = (.error (.escape cause), after) := by
  obtain ⟨extra, length⟩ := Nat.exists_eq_add_of_lt h.proper
  have length : parts.length - 1 = count + extra := by omega
  obtain ⟨found, gives⟩ := gives_of_finds h.found
  rw [length]
  by_cases filled : beginning parts count = []
  · -- longer beginnings are relative and not looked for
    have relative (more : Nat) (longer : count < more) (le : more ≤ parts.length) :
        Gives (isFound tree (beginning parts more)) world false world := by
      obtain ⟨rest, same⟩ := exists_beginning_eq h.positive longer le
      rw [filled] at same
      exact gives_isFound (canFind_of_relative (by rw [same]; rfl))
    have skipped := searchModule_skip shown extra (fun _ => world) fun more n longer le =>
      relative more longer (by omega)
    have hit := searchModule_hit shown h.positive (gives_isFound gives)
    exact .inl ⟨found, skipped.trans hit, .inl filled⟩
  · cases extra with
    | zero =>
      have hit := searchModule_hit shown h.positive (gives_isFound gives)
      exact .inl ⟨found, hit, .inr (.inl (importModule_of_found gives))⟩
    | succ extra =>
      rcases importModule_cases tree world (beginning parts count) with able | fails | ⟨cause, passed⟩
      · obtain ⟨after, gives, alike⟩ := h.search_settled whole filled steady length (.inl able) shown
        exact .inl ⟨after, gives, .inr alike⟩
      · obtain ⟨after, gives, alike⟩ := h.search_settled whole filled steady length (.inr fails) shown
        exact .inl ⟨after, gives, .inr alike⟩
      · exact .inr ⟨cause, _, filled, h.search_passed whole filled length shown passed, passed⟩

end Longest

section Named

/-- The parts of a name. -/
def partsOf (name : Text) : List Text := (Text.trim name).splitOn dot

/-- The name that tells the first parts of another one to be the module. -/
def explicitName (parts : List Text) (count : Nat) : Text := beginning parts count ++ 0x3A :: remainder parts count

private theorem splitName_explicitName (h : 0x3A ∉ beginning parts count) :
    splitName tree (explicitName parts count) = pure (beginning parts count, remainder parts count) := by
  rw [splitName, if_pos (by simp [explicitName]), explicitName, takeWhile_ne h, dropWhile_ne h]
  rfl

private theorem splitName_of_dotted (dotted : 0x3A ∉ name) (several : 1 < (name.splitOn dot).length) :
    splitName tree name = searchModule tree name (name.splitOn dot) ((name.splitOn dot).length - 1) := by
  rw [splitName, if_neg (by simpa using dotted)]
  exact if_neg (Nat.not_lt.mpr several)

private theorem trimmed_of_ne_nil (filled : Text.trim name ≠ []) : trimmed name = pure (Text.trim name) := by
  rw [trimmed, if_neg (by simpa using filled)]

private theorem resolveImported_of_split {split : Text × Text} (filled : Text.trim name ≠ [])
    (h : Gives (splitName tree (Text.trim name)) world split after) :
    (resolveImported tree name).run.run world =
      (attributeHandle tree (Text.trim name) split.1 split.2).run.run after := by
  rw [resolveImported_eq, trimmed_of_ne_nil filled, pure_bind, run_bind h]

private theorem resolveImported_of_split_error {failure : Failure} (filled : Text.trim name ≠ [])
    (h : (splitName tree (Text.trim name)).run.run world = (.error failure, after)) :
    (resolveImported tree name).run.run world = (.error failure, after) := by
  rw [resolveImported_eq, trimmed_of_ne_nil filled, pure_bind, run_bind_error h]

/-- The failures of resolving a name: refusals, and what modules raise past the handlers of troubles. -/
inductive FailsFor (tree : ModuleTree) : Failure → Prop
  | refused (message shown : Text) : FailsFor tree (.refusal (.resolution message (some shown)))
  | escaped {cause : Escape} (raised : tree.Raises cause) : FailsFor tree (.escape cause)

private theorem failsAmong_load {α : Type} {step : Importer α} {wording : Trouble → Refusal}
    (h : FailsAmong tree.Halts step)
    (words : ∀ cause, ∃ message shown, wording cause = .resolution message (some shown)) :
    FailsAmong (FailsFor tree) (load wording step) :=
  h.adapt fun
    | _, .trouble cause => by
      obtain ⟨message, shown, worded⟩ := words cause
      exact (congrArg (fun refusal => FailsFor tree (.refusal refusal)) worded).mpr (.refused message shown)
    | _, .escape raised => .escaped raised

private theorem failsAmong_searchModule (tree : ModuleTree) (name : Text) (parts : List Text) (count : Nat) :
    FailsAmong (FailsFor tree) (searchModule tree name parts count) := by
  induction count with
  | zero => exact failsAmong_throw (.refused ..)
  | succ count ih =>
    refine ((failsAmong_isFound tree _).adapt fun _ => .escaped).bind fun found => ?_
    split
    · exact failsAmong_pure _
    · exact ih

private theorem failsAmong_splitName (tree : ModuleTree) (name : Text) :
    FailsAmong (FailsFor tree) (splitName tree name) := by
  rw [splitName]
  split
  · exact failsAmong_pure _
  · dsimp only
    split
    · exact failsAmong_throw (.refused ..)
    · exact failsAmong_searchModule tree name _ _

private theorem failsAmong_importAttribute (tree : ModuleTree) (moduleName attr : Text) :
    FailsAmong tree.Halts (importAttribute tree moduleName attr) := by
  refine FailsAmong.bind ?_ fun _ => FailsAmong.get_bind fun _ => failsAmong_loading _
  rw [importNamed]
  split
  · exact failsAmong_throw (.trouble _)
  · split
    · exact failsAmong_throw (.trouble _)
    · exact failsAmong_importFrom tree _ moduleName

private theorem failsAmong_resolveImported (tree : ModuleTree) (name : Text) :
    FailsAmong (FailsFor tree) (resolveImported tree name) := by
  rw [resolveImported_eq]
  refine FailsAmong.bind ?_ fun shown => (failsAmong_splitName tree shown).bind fun split => ?_
  · rw [trimmed]
    split
    · exact failsAmong_throw (.refused ..)
    · exact failsAmong_pure _
  · refine (failsAmong_load (failsAmong_importAttribute tree _ _) fun cause => ⟨_, _, rfl⟩).bind fun found => ?_
    split
    · exact failsAmong_pure _
    · exact failsAmong_throw (.refused ..)

/-- A name to import that is resolved leads to a class. -/
private theorem exists_class_of_resolveImported {handle : Handle}
    (h : Gives (resolveImported tree name) world handle after) :
    ∃ c, handle = ⟨Text.trim name, some c, true, none⟩ := by
  rw [resolveImported_eq] at h
  obtain ⟨shown, _, trims, h⟩ := h.bind
  obtain ⟨split, _, -, h⟩ := h.bind
  obtain ⟨found, _, -, h⟩ := h.bind
  have same : shown = Text.trim name := by
    rw [trimmed] at trims
    split at trims
    · cases trims
    · exact trims.pure.1
  split at h
  · rename_i c _
    exact ⟨c, same ▸ h.pure.1⟩
  · cases h

/-- A name to import leads to a class or is refused, unless a module raises an exception outside the general ones. -/
private theorem isAnswer_resolveImported (tree : ModuleTree) (world : World) (name : Text) :
    IsAnswer tree name ((resolveImported tree name).run.run world).1 := by
  cases ran : (resolveImported tree name).run.run world with
  | mk outcome after =>
    cases outcome with
    | ok handle =>
      obtain ⟨c, rfl⟩ := exists_class_of_resolveImported ran
      exact .found c
    | error failure =>
      cases failsAmong_resolveImported tree name world failure after ran with
      | refused message shown => exact .refused message shown
      | escaped raised => exact .escaped raised

/-- From every world a name to import leads to a class or is refused, unless an exception outside the general ones
that a module raises passes through. A dotted name leads to the same class as the name that tells its longest
beginning under which a module can be found, and to the same world, or both names are refused, or the same exception
passes through both, provided that the module goes on to fail, where its import ends with trouble and parts of the
name behind it are tried as modules too. -/
theorem resolve_dotted (tree : ModuleTree) (world : World) (name : Text) (dotted : 0x3A ∉ name) :
    IsAnswer tree name ((resolveImported tree name).run.run world).1 ∧
      ∀ count, IsLongest tree world (partsOf name) count → IsSteady tree world (partsOf name) count →
        Agree ((resolveImported tree name).run.run world)
          ((resolveImported tree (explicitName (partsOf name) count)).run.run world) := by
  refine ⟨isAnswer_resolveImported tree world name, fun count longest steady => ?_⟩
  have parts := arePartsOf_splitOn (Text.trim name)
  have whole : beginning (partsOf name) count ++ dot :: remainder (partsOf name) count = Text.trim name :=
    (beginning_append_remainder longest.positive longest.proper).trans parts.joined
  have several : 1 < (partsOf name).length := Nat.lt_of_le_of_lt longest.positive longest.proper
  have undivided : 0x3A ∉ Text.trim name := fun h => dotted (Text.mem_of_mem_trim h)
  have filled : Text.trim name ≠ [] := whole ▸ List.append_ne_nil_of_right_ne_nil _ (List.cons_ne_nil _ _)
  have searches : splitName tree _ = _ := splitName_of_dotted undivided several
  have explicit : Text.trim (explicitName (partsOf name) count) = explicitName (partsOf name) count :=
    Text.trim_replace (whole.symm ▸ Text.trim_trim name) (by decide)
  have told : Gives (splitName tree (Text.trim (explicitName (partsOf name) count))) world
      (beginning (partsOf name) count, remainder (partsOf name) count) world := by
    rw [explicit, splitName_explicitName fun h => undivided (whole ▸ List.mem_append_left _ h)]
    rfl
  have full : Text.trim (explicitName (partsOf name) count) ≠ [] :=
    explicit.symm ▸ List.append_ne_nil_of_right_ne_nil _ (List.cons_ne_nil _ _)
  rw [resolveImported_of_split full told]
  rcases longest.search parts steady (Text.trim name) with
    ⟨after, searched, alike⟩ | ⟨cause, after, named, passed, imported⟩
  · rw [resolveImported_of_split filled (searches ▸ searched)]
    rcases alike with empty | alike
    · exact agree_of_lookUp_none (lookUp_of_relative (.inr empty)) (lookUp_of_relative (.inr empty))
    · exact agree_of_importsAlike alike
  · have absolute := longest.absolute named (Nat.le_refl _) (Nat.le_of_lt longest.proper)
    rw [resolveImported_of_split_error filled (searches ▸ passed), attributeHandle_run_of_escape absolute named imported]
    exact .escaped cause after

end Named

section Shop

/-- A package that imports the module inside it and then raises or does not, and a module that raises. -/
def shop (fault : Option LoadFault) : ModuleTree :=
  ⟨[{ ModuleSource.blank "shop" with imports := ["shop.models"], fault },
    { ModuleSource.blank "shop.models" with
      classes := [⟨"Order", false, [], [.nested "Line" false [] []]⟩] },
    { ModuleSource.blank "broken" with fault := some ⟨"RuntimeError", "boom"⟩ }]⟩

/-- The package raises an exception that ends the program. -/
def leaving : ModuleTree := shop (some ⟨"SystemExit", "bye"⟩)

/-- The class that a name to import leads to. -/
def classOf (tree : ModuleTree) (world : World) (name : Text) : Option ClassRef :=
  ((resolveImported tree name).run.run world).1.toOption.bind (·.type)

theorem Agree.type_eq {first second : Except Failure Handle × World} (h : Agree first second) :
    first.1.toOption.bind (·.type) = second.1.toOption.bind (·.type) := by
  cases h <;> rfl

/-- A class inside one of a module in a package, a name in a module that raises, and one in a package that ends the
program with a status. -/
theorem resolve_dotted_shop : ∃ world,
    (IsLongest (shop none) world (partsOf "shop.models.Order.Line") 2 ∧
      Agree ((resolveImported (shop none) "shop.models.Order.Line").run.run world)
        ((resolveImported (shop none) (explicitName (partsOf "shop.models.Order.Line") 2)).run.run world)) ∧
    (IsLongest (shop none) world (partsOf "broken.Order.Line") 1 ∧
      Agree ((resolveImported (shop none) "broken.Order.Line").run.run world)
        ((resolveImported (shop none) (explicitName (partsOf "broken.Order.Line") 1)).run.run world)) ∧
    explicitName (partsOf "shop.models.Order.Line") 2 = "shop.models:Order.Line" ∧
    (classOf (shop none) world "shop.models.Order.Line").isSome = true ∧
    classOf (shop none) world "broken.Order.Line" = none ∧
    (IsLongest leaving world (partsOf "shop.models.Order.Line") 1 ∧
      Agree ((resolveImported leaving "shop.models.Order.Line").run.run world)
        ((resolveImported leaving (explicitName (partsOf "shop.models.Order.Line") 1)).run.run world) ∧
      leaving.Raises ⟨"SystemExit", "bye", .exit 1 (some "bye")⟩) := by
  have inside : IsLongest (shop none) ⟨[], [], .empty⟩ (partsOf "shop.models.Order.Line") 2 := by decide +kernel
  have able : importFails (shop none) ⟨[], [], .empty⟩ "shop.models" = false := by decide +kernel
  have raising : IsLongest (shop none) ⟨[], [], .empty⟩ (partsOf "broken.Order.Line") 1 := by decide +kernel
  have failing : KeepsFailing (shop none) ⟨[], [], .empty⟩ (partsOf "broken.Order.Line") 1 := by
    have found : (shop none).find? (beginning (partsOf "broken.Order.Line") 1) = some (shop none).modules[2] := rfl
    have same : attempt (shop none) (beginning (partsOf "broken.Order.Line") 1) ⟨[], [], .empty⟩ = ⟨[], [], .empty⟩ :=
      rfl
    have fails : importFails (shop none) ⟨[], [], .empty⟩ (beginning (partsOf "broken.Order.Line") 1) = true := by
      decide +kernel
    refine .of_fault found rfl List.not_mem_nil (fun more longer proper => ?_) fun n cause after escaped => ?_
    · have proper : more < 3 := proper
      obtain rfl : more = 2 := by omega
      exact ⟨by decide +kernel, List.not_mem_nil⟩
    · rw [Function.iterate_fixed same] at escaped
      rw [importFails, escaped] at fails
      cases fails
  have left : IsLongest leaving ⟨[], [], .empty⟩ (partsOf "shop.models.Order.Line") 1 := by decide +kernel
  have passing : importFails leaving ⟨[], [], .empty⟩ "shop" = false := by decide +kernel
  refine ⟨⟨[], [], .empty⟩, ⟨inside, ?_⟩, ⟨raising, ?_⟩, by decide +kernel, by decide +kernel, by decide +kernel, left,
    ?_, ?_⟩
  · exact (resolve_dotted (shop none) _ "shop.models.Order.Line" (by decide)).2 2 inside fun _ fails =>
      absurd (able.symm.trans fails) Bool.noConfusion
  · exact (resolve_dotted (shop none) _ "broken.Order.Line" (by decide)).2 1 raising fun _ _ => failing
  · exact (resolve_dotted leaving _ "shop.models.Order.Line" (by decide)).2 1 left fun _ fails =>
      absurd (passing.symm.trans fails) Bool.noConfusion
  · exact ⟨_, List.mem_cons_self, _, rfl, ⟨⟨[], [], .empty⟩, []⟩, rfl⟩

/-- Where the package raises, the module inside it stays loaded and is found the next time. From the world in which
the package itself is loaded and nothing else, the dotted name leads to a class, and none of the names that tell
the module does. -/
theorem resolve_dotted_raising :
    let raising := shop (some ⟨"RuntimeError", "boom"⟩)
    IsLongest raising Own.world (partsOf "shop.models.Order.Line") 1 ∧
      ¬ Agree ((resolveImported raising "shop.models.Order.Line").run.run Own.world)
        ((resolveImported raising (explicitName (partsOf "shop.models.Order.Line") 1)).run.run Own.world) ∧
      (classOf raising Own.world "shop.models.Order.Line").isSome = true ∧
      classOf raising Own.world "shop:models.Order.Line" = none ∧
      classOf raising Own.world "shop.models:Order.Line" = none := by
  have explicit : explicitName (partsOf "shop.models.Order.Line") 1 = "shop:models.Order.Line" := by decide +kernel
  obtain ⟨longest, found, top, inner⟩ :
      IsLongest (shop (some ⟨"RuntimeError", "boom"⟩)) Own.world (partsOf "shop.models.Order.Line") 1 ∧
      (classOf (shop (some ⟨"RuntimeError", "boom"⟩)) Own.world "shop.models.Order.Line").isSome = true ∧
      classOf (shop (some ⟨"RuntimeError", "boom"⟩)) Own.world "shop:models.Order.Line" = none ∧
      classOf (shop (some ⟨"RuntimeError", "boom"⟩)) Own.world "shop.models:Order.Line" = none := by
    decide +kernel
  refine ⟨longest, fun agree => ?_, found, top, inner⟩
  have same := agree.type_eq
  rw [explicit] at same
  have none : classOf (shop (some ⟨"RuntimeError", "boom"⟩)) Own.world "shop.models.Order.Line" = none :=
    same.trans top
  rw [none] at found
  cases found

end Shop

end Specimen.Resolver
