import Specimen.Proofs.Loading.Scope
import Specimen.Proofs.Loading.Steps

/-! Loading evaluates type expressions, adds classes, binds names, and enters and forgets modules. What each of
these keeps is kept by all that is loaded. -/
namespace Specimen.Loading
variable {α : Type} {holds : World → Prop}

/-- Something goes on to hold of a world where expressions are evaluated, classes added, names bound and modules
completed. -/
structure IsLasting (holds : World → Prop) : Prop where
  evaluated : ∀ (env : Environment) (expr : TypeExpr), Keeps holds (evaluating (env.evaluate expr))
  added : ∀ world info, holds world → holds { world with classes := world.classes ++ [info] }
  bound : ∀ world moduleName name d, holds world → holds (bindName moduleName name d world)
  completed : ∀ world name, holds world → holds (markComplete name world)

theorem keeps_result (result : Except Trouble α) : Keeps holds (lift result) := fun _ h => h

section Classes

private theorem keeps_writtenType (lasting : IsLasting holds) (frame : Frame) (env : Environment) (expr : TypeExpr) :
    Keeps holds (writtenType frame env expr) := by
  rw [writtenType]
  split
  · exact keeps_pure _
  · exact lasting.evaluated env expr

private theorem keeps_finishClass (lasting : IsLasting holds) (frame : Frame) (isDataclass : Bool)
    (heritage : Heritage) (basis : Option ClassRef) (body : Body) :
    Keeps holds (finishClass frame isDataclass heritage basis body) := by
  have added (world : World) (start : holds world) (info : ClassInfo) (c : ClassRef) :
      Keeps holds (do set { world with classes := world.classes ++ [info] }; return c : Loader ClassRef) :=
    Keeps.bind (keeps_set (lasting.added world info start)) fun _ => keeps_pure c
  rw [finishClass]
  split
  · exact keeps_throw _
  -- all that comes before the class is added only reads the world
  refine Keeps.get_bind fun world start => (keeps_result _).bind fun body =>
    (keeps_result _).bind fun laid => (keeps_result _).bind fun named =>
      (keeps_result _).bind fun _ => (keeps_result _).bind fun ancestors => ?_
  dsimp only
  simp only [pure_bind]
  split
  · refine (keeps_result _).bind fun _ => ?_
    split
    · exact (keeps_result _).bind fun _ => added world start _ _
    · exact added world start _ _
  · refine (keeps_result _).bind fun _ => ?_
    split
    · exact (keeps_result _).bind fun _ => added world start _ _
    · exact added world start _ _

mutual

private theorem keeps_runMember (lasting : IsLasting holds) (frame : Frame) (body : Body) : ∀ member,
    Keeps holds (runMember frame body member)
  | .field name type value => by
    rw [runMember]
    refine Keeps.get_bind fun world _ => ?_
    have annotated (body : Body) : Keeps holds (do
        let denoted ← writtenType frame (frame.environment world body) type
        lift (body.annotate (← get) (frame.bindingName name) denoted)) :=
      (keeps_writtenType lasting frame _ type).bind fun denoted => Keeps.get_bind fun _ _ => keeps_result _
    cases value with
    | absent => exact annotated body
    | specified => exact (keeps_result _).bind fun _ => (keeps_result _).bind annotated
    | value => exact (keeps_result _).bind annotated
  | .property name type readable => by
    rw [runMember]
    refine Keeps.get_bind fun world _ => (keeps_result _).bind fun decorator => ?_
    have bound (denoted : Option Referent) : Keeps holds (do
        lift (assign frame world body name (← lift (decorate frame world decorator denoted readable)))) :=
      (keeps_result _).bind fun _ => keeps_result _
    cases type with
    | none => exact bound none
    | some expr =>
      exact Keeps.bind ((keeps_writtenType lasting frame _ expr).bind fun _ => keeps_pure _) bound
  | .constant name value => Keeps.get_bind fun _ _ => keeps_result _
  | .method name => Keeps.get_bind fun _ _ => keeps_result _
  | .nested name isDataclass bases members => by
    rw [runMember]
    refine Keeps.get_bind fun world _ => (keeps_result _).bind fun _ => (keeps_result _).bind fun heritage =>
      (keeps_result _).bind fun basis => (keeps_runMembers lasting _ _ members).bind fun content =>
      (keeps_finishClass lasting _ _ _ _ _).bind fun c => Keeps.get_bind fun _ _ => keeps_result _

private theorem keeps_runMembers (lasting : IsLasting holds) (frame : Frame) (body : Body) : ∀ members,
    Keeps holds (runMembers frame body members)
  | [] => keeps_pure _
  | member :: rest =>
    (keeps_runMember lasting frame body member).bind fun body => keeps_runMembers lasting frame body rest

end

private theorem keeps_createClass (lasting : IsLasting holds) (moduleName : Text) (postponed : Bool)
    (source : ClassSource) : Keeps holds (createClass moduleName postponed source) := by
  rw [createClass]
  exact Keeps.get_bind fun world _ => (keeps_result _).bind fun _ => (keeps_result _).bind fun heritage =>
    (keeps_result _).bind fun basis => (keeps_runMembers lasting _ _ source.members).bind fun content =>
      keeps_finishClass lasting _ source.isDataclass heritage basis content

end Classes

section Modules
variable {importOne : Text → Importer Unit}

/-- The classes of a module, each declared and bound, keep something, and so does binding names to what is no
declared class and completing modules. -/
structure IsKept (holds : World → Prop) : Prop where
  declared : ∀ (moduleName : Text) (postponed : Bool) (source : ClassSource), Keeps holds (do
    let c ← (createClass moduleName postponed source).adapt Halt.trouble
    modify (bindName moduleName source.name (.cls c)))
  bound : ∀ world moduleName name d, d.IsKnown 0 → holds world → holds (bindName moduleName name d world)
  completed : ∀ world name, holds world → holds (markComplete name world)

theorem IsLasting.isKept (lasting : IsLasting holds) : IsKept holds where
  declared moduleName postponed source :=
    (Keeps.adapt (keeps_createClass lasting moduleName postponed source)).bind fun _ =>
      keeps_modify fun world start => lasting.bound world _ _ _ start
  bound world _ _ _ _ start := lasting.bound world _ _ _ start
  completed := lasting.completed

/-- Binding names one after the other keeps what binding one keeps. -/
theorem holds_foldl {entries : List α} {bind : World → α → World} {world : World}
    (h : ∀ world entry, holds world → holds (bind world entry)) (start : holds world) :
    holds (entries.foldl bind world) := by
  induction entries generalizing world with
  | nil => exact start
  | cons entry rest ih => exact ih (h world entry start)

variable (kept : IsKept holds)
include kept

private theorem keeps_runClasses (moduleName : Text) (postponed : Bool) (sources : List ClassSource) :
    Keeps holds (runClasses moduleName postponed sources) := by
  induction sources with
  | nil => exact keeps_pure _
  | cons source rest ih =>
    have step : runClasses moduleName postponed (source :: rest) = ((do
        let c ← (createClass moduleName postponed source).adapt Halt.trouble
        modify (bindName moduleName source.name (.cls c))) >>= fun _ => runClasses moduleName postponed rest) := by
      rw [runClasses, bind_assoc]
    exact step ▸ (kept.declared moduleName postponed source).bind fun _ => ih

variable (imports : ∀ name, Keeps holds (importOne name))
include imports

private theorem keeps_runImports (moduleName : Text) (names : List Text) :
    Keeps holds (runImports importOne moduleName names) := by
  induction names with
  | nil => exact keeps_pure _
  | cons name rest ih =>
    exact (imports name).bind fun _ => (imports _).bind fun _ => Keeps.bind
      (keeps_modify fun world start => kept.bound world _ _ _ trivial start) fun _ => ih

theorem keeps_runModule (source : ModuleSource) : Keeps holds (runModule importOne source) := by
  rw [runModule]
  refine (keeps_runImports kept imports source.name source.imports).bind fun _ =>
    (keeps_runClasses kept source.name source.postponed source.classes).bind fun _ =>
    Keeps.bind (keeps_modify fun _ start =>
      holds_foldl (fun world _ => kept.bound world _ _ _ trivial) start) fun _ =>
    Keeps.bind (keeps_modify fun _ start =>
      holds_foldl (fun world _ => kept.bound world _ _ _ trivial) start) fun _ => ?_
  split
  · exact Keeps.get_bind fun _ _ => keeps_throw _
  · exact keeps_pure _

/-- Something goes on to hold where a module of a name is entered and forgotten. -/
structure Admits (holds : World → Prop) (name : Text) : Prop where
  entered : ∀ world, holds world → holds (entering name world)
  forgotten : ∀ world, holds world → holds (forget name world)

theorem keeps_enter (forgets : Halt → Bool) (source : ModuleSource) (admits : Admits holds source.name) :
    Keeps holds (enter forgets importOne source) := by
  rw [enter]
  refine Keeps.bind (keeps_modify admits.entered) fun _ => Keeps.bind ?_ fun _ =>
    keeps_modify fun world start => kept.completed world source.name start
  refine (keeps_runModule kept imports source).tryCatch fun halt => ?_
  dsimp only
  split
  · exact Keeps.bind (keeps_modify admits.forgotten) fun _ => keeps_throw halt
  · exact keeps_throw halt

theorem keeps_enterModule (source : ModuleSource) (admits : Admits holds source.name) :
    Keeps holds (enterModule importOne source) := keeps_enter kept imports _ source admits

/-- A module is entered only where it is not loaded. -/
theorem keeps_loadOne (tree : ModuleTree) (name : Text)
    (admits : ∀ world, holds world → isLoaded world name = false → Admits holds name) :
    Keeps holds (loadOne tree importOne name) := by
  intro world start
  rw [loadOne, run_get_bind]
  split
  · exact start
  · rename_i fresh
    have admits := admits world start (Bool.eq_false_iff.mpr fresh)
    dsimp only
    split
    · exact start
    · split
      · exact start
      · rename_i source found
        have named : source.name = name := by simpa using List.find?_some found
        refine Keeps.bind (keeps_enterModule kept imports source (named ▸ admits)) (fun _ => ?_) world start
        split
        · exact keeps_modify fun world start => kept.bound world _ _ _ trivial start
        · exact keeps_pure _

theorem keeps_loadEach (tree : ModuleTree) (names : List Text)
    (admits : ∀ name ∈ names, ∀ world, holds world → isLoaded world name = false → Admits holds name) :
    Keeps holds (loadEach tree importOne names) := by
  induction names with
  | nil => exact keeps_pure _
  | cons name rest ih =>
    obtain ⟨first, others⟩ := List.forall_mem_cons.mp admits
    exact (keeps_loadOne kept imports tree name first).bind fun _ => ih others

omit imports kept

/-- Every import is made of modules that are loaded one after the other. -/
theorem keeps_importFrom_of_loadOne (tree : ModuleTree)
    (step : ∀ importOne, (∀ name, Keeps holds (importOne name)) → ∀ name, Keeps holds (loadOne tree importOne name))
    (fuel : Nat) : ∀ name, Keeps holds (importFrom tree fuel name) := by
  have each {importOne : Text → Importer Unit} (imports : ∀ name, Keeps holds (importOne name)) (names : List Text) :
      Keeps holds (loadEach tree importOne names) := by
    induction names with
    | nil => exact keeps_pure _
    | cons name rest ih => exact (step importOne imports name).bind fun _ => ih
  induction fuel with
  | zero => exact fun _ => keeps_throw _
  | succ fuel ih => exact fun name => Keeps.get_bind fun _ _ => each ih _

include kept

theorem keeps_importFrom (tree : ModuleTree)
    (admits : ∀ name world, holds world → isLoaded world name = false → Admits holds name) (fuel : Nat) :
    ∀ name, Keeps holds (importFrom tree fuel name) :=
  keeps_importFrom_of_loadOne tree (fun _ imports name => keeps_loadOne kept imports tree name (admits name)) fuel

end Modules

end Specimen.Loading
