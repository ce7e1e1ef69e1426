import Specimen.Projection.Reading
import Specimen.Projection.Settings
import Specimen.Reflection.Hints

/-!
The members of a class that documents show: its annotated names and computed attributes and those of
its ancestors, the farthest ancestor first.
-/
namespace Specimen

/-- A member of a class. For a collection the type is that of its items. -/
structure ReflectedMember where
  name : Text
  jsonName : Data
  type : Referent
  isCollection : Bool
  optional : Bool
  /-- The class that declares the member. -/
  declaring : ClassRef
  /-- Whether another class declares it than the one that is reflected. -/
  isInherited : Bool
  deriving Repr

namespace World

variable (world : World)

/-- The names of the computed attributes that a class declares itself. -/
def ownProperties (c : ClassRef) : List Text :=
  ((world.ownAttributes c).filter (·.2.isProperty)).map (·.1)

def addName (names : List Text) (name : Text) : List Text :=
  if names.contains name then names else names ++ [name]

/-- The names of the members of classes, each at its first appearance, after others. -/
def addMemberNames (names : List Text) : List ClassRef → Except Trouble (List Text)
  | [] => .ok names
  | c :: rest => do
    let annotated := (← world.visibleAnnotations c).map (·.1)
    addMemberNames ((annotated ++ world.ownProperties c).foldl addName names) rest

def memberNames (c : ClassRef) : Except Trouble (List Text) :=
  world.addMemberNames [] (world.resolutionOrder c).reverse

def ownAnnotation? (c : ClassRef) (name : Text) : Option Referent :=
  if world.isBuiltin c then none else List.lookup name (world.ownAnnotations c).entries

def declares (name : Text) (c : ClassRef) : Bool :=
  (world.ownAnnotation? c name).isSome ||
    ((world.ownAttribute? c name).map (·.isProperty)).getD false

def declaringClass (c : ClassRef) (name : Text) : ClassRef :=
  ((world.resolutionOrder c).find? (world.declares name)).getD c

/-- The annotation of a member of a class: the result type of a computed attribute, and otherwise the
hint of the name. -/
def memberType (hints : Bindings) (declaring : ClassRef) (name : Text) : StateM Memory Referent :=
  match world.ownAttribute? declaring name with
  | some (.property type readable) => world.resultType declaring type readable
  | _ => return ((List.lookup name hints).or (world.ownAnnotation? declaring name)).getD .any

end World

/-- The metadata of a field of a class; no other name has any. -/
def metadataOf (fields : List DataField) (name : Text) : List (Data × Data) :=
  (fields.find? fun field => field.name = name && field.role = .regular).elim [] (·.metadata)

def metadataValue? (key : Text) (metadata : List (Data × Data)) : Option Data :=
  (metadata.find? fun entry => entry.1.sameKey (.str key)).map (·.2)

def isExcluded (metadata : List (Data × Data)) : Bool :=
  match metadataValue? serializeKey metadata with
  | some (.bool false) => true
  | _ => false

namespace World

variable (world : World)

def isVisible (visibility : Visibility) (reflected declaring : ClassRef) : Except Trouble Bool :=
  if declaring == reflected then .ok true
  else match visibility with
    | .declaredOnly => world.isRelated reflected declaring
    | .resolvedDynamic => .ok false

def isShown (visibility : Visibility) (reflected declaring : ClassRef) (name : Text)
    (written : Referent) (metadata : List (Data × Data)) : Except Trouble Bool := do
  if name.startsWith "_" then return false
  let isVisible ← world.isVisible visibility reflected declaring
  return isVisible && !written.isStatic && !written.isUnserialized && !isExcluded metadata

def membersOf (visibility : Visibility) (c : ClassRef) (fields : List DataField) :
    Bindings → Except Trouble (List ReflectedMember)
  | [] => .ok []
  | (name, written) :: rest => do
    let declaring := world.declaringClass c name
    let metadata := metadataOf fields name
    if ← world.isShown visibility c declaring name written metadata then
      let reading := written.read
      let member : ReflectedMember := ⟨name, (metadataValue? jsonKey metadata).getD (.str name),
        reading.type, reading.isCollection, reading.optional, declaring, declaring != c⟩
      return member :: (← membersOf visibility c fields rest)
    else membersOf visibility c fields rest

def memberTypes (c : ClassRef) (hints : Bindings) : List Text → StateM Memory Bindings
  | [] => return []
  | name :: rest => do
    let written ← world.memberType hints (world.declaringClass c name) name
    return (name, written) :: (← memberTypes c hints rest)

def reflect (visibility : Visibility) (c : ClassRef) : Evaluator (List ReflectedMember) := do
  let hints ← world.hints c
  let fields ← world.fields c
  let candidates ← world.memberTypes c hints (← world.memberNames c)
  world.membersOf visibility c fields candidates

end World

end Specimen
