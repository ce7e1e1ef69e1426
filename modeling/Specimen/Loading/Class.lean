import Specimen.Loading.Dataclass
import Specimen.Loading.Enumeration.Members
import Specimen.Loading.Heritage
import Specimen.Loading.Layout
import Specimen.Loading.Linearization
import Specimen.Reflection.Evaluation

/-!
Creating classes from their declarations. A body runs from its first member to its last; a name is
looked up among those bound earlier in the body, then in the module, then among the built-in classes.
-/
namespace Specimen

/-- Creating a class changes the world also where it fails. -/
abbrev Loader := ExceptT Trouble (StateM World)

namespace Loading

def lift {α : Type} (result : Except Trouble α) : Loader α := ExceptT.mk (pure result)

def evaluating {α : Type} (step : Evaluator α) : Loader α := do
  let world ← get
  let (result, memory) := step.run.run world.memory
  set { world with memory }
  lift result

/-- What holds throughout a class body. -/
structure Frame where
  moduleName : Text
  /-- The names of the module. -/
  globals : Bindings
  /-- Whether annotations are kept as their texts. -/
  postponed : Bool
  /-- The names of the classes around the body's class and its own. -/
  path : List Text
  deriving Inhabited

def Frame.className (frame : Frame) : Text := frame.path.getLast?.getD []

def Frame.start (frame : Frame) (isEnumeration : Bool) : Body :=
  .start frame.moduleName (List.intercalate "." frame.path) isEnumeration

def Frame.bindingName (frame : Frame) (name : Text) : Text :=
  let owner := frame.className.dropWhile (· = 0x5F)
  if name.startsWith "__" && !name.endsWith "__" && !owner.isEmpty then "_" ++ owner ++ name else name

def Frame.environment (frame : Frame) (world : World) (body : Body) : Environment :=
  ⟨world, [body.names, frame.globals]⟩

def isEnumeration (world : World) (bases : List ClassRef) : Bool :=
  bases.any fun c => world.descends c .enum

/-- The class of the values of a class's members, if the class is to be an enumeration whose bases allow
it to be begun. -/
def beginClass (world : World) (name : Text) (bases : List ClassRef) :
    Except Trouble (Option ClassRef) :=
  if isEnumeration world bases then Enumeration.prepare world name bases else .ok none

def annotationsName : Text := "__annotations__"

def valueAsType : Data → Referent
  | .str text => .text (.name text)
  | value => .data value

def replaceAnnotations (body : Body) (value : ClassAttribute) : Body :=
  let annotations : Annotations := match value with
    | .plain (.data (.dict entries)) => .table (entries.filterMap fun
        | (.str name, value) => some (name, valueAsType value)
        | _ => none)
    | .plain (.data .none) => .absent
    | other => .replaced other
  { body with annotations }

def assign (frame : Frame) (world : World) (body : Body) (name : Text) (value : ClassAttribute) :
    Except Trouble Body := do
  let name := frame.bindingName name
  let body ← match body.table with
    | some table => Enumeration.bind world frame.className body table name value
    | none => .ok (body.bind name value)
  return if name = annotationsName then replaceAnnotations body value else body

def writtenType (frame : Frame) (env : Environment) (expr : TypeExpr) : Loader Referent :=
  if frame.postponed then return .text expr else evaluating (env.evaluate expr)

def uncallable (world : World) : Referent → Trouble
  | .cls c => .noArguments (world.className c)
  | .module _ => .notCallable StandardClass.module.name
  | found => .notCallable (world.typeNameOf (.plain found))

def checkFunction (env : Environment) (dotted : Text) : Except Trouble Unit := do
  match ← env.denote dotted with
  | .object (.standard .function) => return ()
  | found => throw (uncallable env.world found)

def checkDecorator (env : Environment) (isDataclass : Bool) : Except Trouble Unit :=
  if isDataclass then checkFunction env "dataclasses.dataclass" else .ok ()

def propertyName : Text := StandardClass.property.name

/-- What the decorator of computed attributes makes of one: the class body may have bound its name to
something else. A method under that name gives nothing. -/
def decorate (frame : Frame) (world : World) (decorator : Referent) (type : Option Referent)
    (readable : Bool) : Except Trouble ClassAttribute :=
  match decorator with
  | .cls (.standard .property) => .ok (.property type readable)
  | .object (.standard .function) =>
    if readable then .ok (.plain .none)
    else .error (.extraArguments (List.intercalate "." (frame.path ++ [propertyName])) 2)
  | found => .error (uncallable world found)

def asksToKnow? (world : World) (c : ClassRef) : Option ClassAttribute :=
  if c = .standard .generic then some (.plain Heritage.generic)
  else world.ownAttribute? c "__init_subclass__"

/-- What is called on the nearest class above a new one that asks to be told of it. -/
def announce (world : World) (heritage : Heritage) (ancestors : List ClassRef) : Except Trouble Unit :=
  match ancestors.findSome? (asksToKnow? world) with
  | some (.plain (.cls (.standard .generic))) =>
    if heritage.isPlain then .error (.base .plainGeneric) else .ok ()
  | some (.plain (.data value)) => .error (.notCallable value.typeName)
  | some (.property _ _) => .error (.notCallable StandardClass.property.name)
  | _ => .ok ()

def finishEnumeration (draft : Enumeration.Draft) (heritage : Heritage) (c : ClassRef) :
    Except Trouble (EnumerationInfo × Body) := do
  let entries ← draft.entries [] ((draft.body.table.map (·.names)).getD [])
  announce draft.world heritage draft.ancestors
  if draft.bases.contains (.standard .reprEnum) && draft.basis.isNone then
    throw (.enumeration .missingBasis)
  let info := draft.info entries
  draft.checkOrder entries info.listed
  return (info, draft.settled c entries)

def placesName : Text := "__slots__"

def cellName : Text := "__classcell__"

def layOut (frame : Frame) (world : World) (c : ClassRef) (bases : List ClassRef) (body : Body) :
    Except Trouble (Layout × List Text) := do
  let base ← Layout.choose world bases
  match body.attribute? placesName with
  | none => return (Layout.plain world c base, [])
  | some reserved =>
    let items ← match reserved.referent with
      | .data (.str name) => pure [Data.str name]
      | _ => Enumeration.itemsOf world reserved
    let places ← Layout.placesOf world base items
    let names := places.names.map frame.bindingName
    let own := names.filter fun name => name ≠ Body.qualnameKey && name ≠ cellName
    match own.find? fun name => (body.attribute? name).isSome with
    | some name => throw (.placeTaken name)
    | none => return (Layout.withPlaces world c base bases places, names)

def bindPlaces (body : Body) (names : List Text) : Body :=
  names.foldl (fun body name => body.bind name (.plain (.object (.standard .memberDescriptor)))) body

/-- The name of a class as its body tells it, and the body without that. -/
def takeQualname (frame : Frame) (world : World) (body : Body) : Except Trouble (Text × Body) :=
  let rest := body.without [Body.qualnameKey]
  match body.attribute? Body.qualnameKey with
  | some (.plain (.data (.str name))) => .ok (name, rest)
  | some found => .error (.qualifiedName (world.typeNameOf found))
  | none => .ok (frame.className, rest)

/-- What stands for the class itself inside its body cannot be bound there. -/
def checkCell (world : World) (body : Body) : Except Trouble Unit :=
  match body.attribute? cellName with
  | some found => .error (.classCell (world.typeNameOf found))
  | none => .ok ()

def labelOf (body : Body) : ModuleLabel :=
  match body.attribute? Body.moduleKey with
  | some (.plain (.data (.str name))) => .text name
  | some found => .other found
  | none => .text "enum"

/-- The name of the bases as they were written, where others took their places. -/
def writtenBasesName : Text := "__orig_bases__"

def finishClass (frame : Frame) (isDataclass : Bool) (heritage : Heritage) (basis : Option ClassRef)
    (body : Body) : Loader ClassRef := do
  if let some fault := heritage.fault then throw (.base fault)
  let world ← get
  let bases := if heritage.bases.isEmpty then [.standard .object] else heritage.bases
  let body :=
    if heritage.isRewritten then body.bind writtenBasesName (.plain (.data (.tuple []))) else body
  let c := ClassRef.declared world.classes.length
  let name := frame.className
  let body ← lift (Enumeration.withoutIgnored body)
  let (layout, places) ← lift (layOut frame world c bases body)
  let (qualname, body) ← lift (takeQualname frame world body)
  lift (checkCell world body)
  let body := bindPlaces body places
  let ancestors ← lift (Linearization.ofBases world bases)
  let (enumeration, body) ←
    if body.table.isSome then do
      let draft : Enumeration.Draft := ⟨world, name, qualname, bases, ancestors, basis, body⟩
      let (info, body) ← lift (finishEnumeration draft heritage c)
      pure (some info, body)
    else do
      lift (announce world heritage ancestors)
      pure (none, body)
  let label := labelOf body
  let (fields, body) ←
    if isDataclass then do
      let (fields, body) ← lift (Dataclass.make world label name ancestors body)
      pure (some fields, body)
    else pure (none, body)
  let info : ClassInfo := ⟨name, qualname, label, frame.moduleName, ancestors, layout,
    body.annotations, body.attributes, fields, enumeration⟩
  set { world with classes := world.classes ++ [info] }
  return c

mutual

def runMember (frame : Frame) (body : Body) : Member → Loader Body
  | .field name type value => do
    let world ← get
    let body ← match value with
      | .absent => pure body
      | .specified metadata defaultsToNone => do
        lift (checkFunction (frame.environment world body) "dataclasses.field")
        lift (assign frame world body name (.specified metadata defaultsToNone))
      | .value v => lift (assign frame world body name (.plain (.data v)))
    let denoted ← writtenType frame (frame.environment world body) type
    lift (body.annotate (← get) (frame.bindingName name) denoted)
  | .property name type readable => do
    let world ← get
    let env := frame.environment world body
    let decorator ← lift (env.denote propertyName)
    let denoted ← match type with
      | some expr => (writtenType frame env expr).map some
      | none => pure none
    lift (assign frame world body name (← lift (decorate frame world decorator denoted readable)))
  | .constant name value => do lift (assign frame (← get) body name (.plain (.data value)))
  | .method name => do
    lift (assign frame (← get) body name (.plain (.object (.standard .function))))
  | .nested name isDataclass bases members => do
    let world ← get
    let env := frame.environment world body
    lift (checkDecorator env isDataclass)
    let heritage ← lift (Heritage.ofNames env frame.moduleName bases)
    let basis ← lift (beginClass world name heritage.bases)
    let inner : Frame := { frame with path := frame.path ++ [name] }
    let content ← runMembers inner (inner.start (isEnumeration world heritage.bases)) members
    let c ← finishClass inner isDataclass heritage basis content
    lift (assign frame (← get) body name (.plain (.cls c)))

def runMembers (frame : Frame) (body : Body) : List Member → Loader Body
  | [] => return body
  | member :: rest => do
    let body ← runMember frame body member
    runMembers frame body rest

end

def createClass (moduleName : Text) (postponed : Bool) (source : ClassSource) : Loader ClassRef := do
  let world ← get
  let globals := world.namesOf moduleName
  let env : Environment := ⟨world, [globals]⟩
  lift (checkDecorator env source.isDataclass)
  let heritage ← lift (Heritage.ofNames env moduleName source.bases)
  let basis ← lift (beginClass world source.name heritage.bases)
  let frame : Frame := ⟨moduleName, globals, postponed, [source.name]⟩
  let content ← runMembers frame (frame.start (isEnumeration world heritage.bases)) source.members
  finishClass frame source.isDataclass heritage basis content

end Loading

end Specimen
