import Specimen.Reflection.Declaration
import Specimen.Reflection.Evaluation

/-!
The types of the annotated names of a class. They are found for the whole class at once, following
every string; where anything in it cannot be evaluated, annotation by annotation, so that only
annotations that are strings themselves are evaluated.
-/
namespace Specimen.World

variable (world : World)

def ownNames (c : ClassRef) : Bindings :=
  (world.ownAttributes c).map fun (name, found) => (name, found.referent)

/-- Where the annotations of a class are evaluated for the whole class: the names of its module come
before its own. -/
def moduleFirst (c : ClassRef) : Environment :=
  ⟨world, [world.namesOf (world.moduleName c), world.ownNames c]⟩

/-- Where annotations are evaluated one by one: the names of the class come before its module's. -/
def classFirst (c : ClassRef) : Environment :=
  ⟨world, [world.ownNames c, world.namesOf (world.moduleName c)]⟩

/-- Where the result types of computed attributes are evaluated: in the module that declared them. -/
def moduleOnly (c : ClassRef) : Environment := ⟨world, [world.namesOf (world.home c)]⟩

/-- An annotation evaluated by itself. One that cannot be evaluated stays a string. -/
def evaluateAlone (env : Environment) : Referent → StateM Memory Referent
  | .text expr => do
    match ← (env.evaluate expr).run with
    | .ok d => return d
    | .error _ => return .text expr
  | d => return d

/-- The bindings with the own annotations of a class put into them, strings followed. -/
def addFollowed (c : ClassRef) (hints : Bindings) : Bindings → Evaluator Bindings
  | [] => return hints
  | (name, written) :: rest => do
    let d ← (world.moduleFirst c).followWhole false true written
    addFollowed c (Json.put name d hints) rest

def followedHints (hints : Bindings) : List ClassRef → Evaluator Bindings
  | [] => return hints
  | c :: rest => do
    (world.label c).check
    followedHints (← world.addFollowed c hints (← world.tableOf (world.ownAnnotations c))) rest

/-- The bindings with the own annotations of a class put into them, each evaluated by itself. -/
def addAlone (c : ClassRef) (hints : Bindings) : Bindings → StateM Memory Bindings
  | [] => return hints
  | (name, written) :: rest => do
    let d ← evaluateAlone (world.classFirst c) written
    addAlone c (Json.put name d hints) rest

/-- The hints of classes, the farthest ancestor first, each evaluated by itself. -/
def hintsAlone (hints : Bindings) : List ClassRef → Evaluator Bindings
  | [] => return hints
  | c :: rest => do
    (world.label c).check
    hintsAlone (← world.addAlone c hints (← world.visibleAnnotations c)) rest

/-- The types of the annotated names of a class and its ancestors; none if the class asks that they are
not evaluated. -/
def hints (c : ClassRef) : Evaluator Bindings := do
  if world.isUnchecked c then return []
  let order := (world.resolutionOrder c).reverse
  tryCatch (world.followedHints [] order) fun _ => world.hintsAlone [] order

/-- The result type of a computed attribute; without one that can be found, any type. -/
def resultType (c : ClassRef) (type : Option Referent) (readable : Bool) : StateM Memory Referent := do
  match type, readable with
  | some written, true =>
    match ← ((world.moduleOnly c).followWhole true false written).run with
    | .ok d => return d
    | .error _ => return .any
  | _, _ => return .any

end Specimen.World
