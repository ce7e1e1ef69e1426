import Specimen.Reflection.TypeText
import Specimen.Reflection.Lookup

/-!
What a class declares about itself, as far as it can be read. A class body may bind the names of its
annotations, its fields and its module to anything.
-/
namespace Specimen

/-- What a class says its module is can be looked for among the modules. -/
def ModuleLabel.check : ModuleLabel → Except Trouble Unit
  | .text _ => .ok ()
  | .other value =>
    match value.unhashable? with
    | some typeName => .error (.conversion (.unhashable typeName))
    | none => .ok ()

namespace World

variable (world : World)

def tableOf : Annotations → Except Trouble Bindings
  | .table entries => .ok entries
  | .absent => .error (world.lacks (.plain .none) "items")
  | .replaced value => .error (world.lacks value "items")

/-- The annotations of a class that are looked at one by one; a built-in class has none. -/
def visibleAnnotations (c : ClassRef) : Except Trouble Bindings := do
  if world.isBuiltin c then return []
  if (world.label c).isTrue then (world.label c).check
  match world.ownAnnotations c with
  | .replaced _ => throw (.annotationTable (world.shownClass c))
  | annotations => return annotations.entries

/-- The part of a module's name before its first dot. -/
def rootPackage (c : ClassRef) : Except Trouble Text :=
  match world.label c with
  | .text name => .ok (name.takeWhile (· ≠ 0x2E))
  | .other value => if value.isTrue then .error (world.lacks value "split") else .ok []

/-- Whether two classes belong to one root package, other than that of the built-in classes. -/
def isRelated (reflected base : ClassRef) : Except Trouble Bool := do
  let its ← world.rootPackage base
  return its = (← world.rootPackage reflected) && its ≠ StandardClass.builtinModule

def isUnchecked (c : ClassRef) : Bool :=
  let found := (world.resolutionOrder c).findSome? fun k => world.ownAttribute? k "__no_type_check__"
  (found.map (·.isTrue)).getD false

def readFields (asked : Text) : FieldTable → Except Trouble (List DataField)
  | .known fields => .ok fields
  | .other (.plain (.data (.dict []))) => .ok []
  | .other (.plain (.data (.dict ((_, value) :: _)))) => .error (world.lacks (.plain (.data value)) asked)
  | .other found => .error (world.lacks found "values")

/-- The fields of what passes for a dataclass; no other class has any. -/
def fields (c : ClassRef) : Except Trouble (List DataField) :=
  match world.fieldTable? c with
  | none => .ok []
  | some table => world.readFields "_field_type" table

def parametersName : Text := "__dataclass_params__"

def checkParameters (c : ClassRef) : Except Trouble Unit :=
  let own (k : ClassRef) : Option (Option ClassAttribute) :=
    if (world.ownFields? k).isSome then some none else (world.ownAttribute? k parametersName).map some
  match (world.resolutionOrder c).findSome? own with
  | some none => .ok ()
  | some (some found) => .error (world.lacks found "frozen")
  | none => .error (world.lacks (.plain (.cls c)) parametersName)

def inheritableFields (c : ClassRef) : Except Trouble (List DataField) :=
  match world.fieldTable? c with
  | none | some (.other (.plain (.data .none))) => .ok []
  | some table => do
    let fields ← world.readFields "name" table
    world.checkParameters c
    return fields

end World

end Specimen
