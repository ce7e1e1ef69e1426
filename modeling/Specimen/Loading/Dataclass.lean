import Specimen.Loading.Body
import Specimen.Reflection.Declaration

/-!
Making a class a dataclass: the fields of the classes above it, in reverse order of attribute lookup,
then its own annotated names; a name declared again keeps its place.
-/
namespace Specimen

namespace Dataclass

/-- The name at the beginning of an expression's text, and the one before it where a dot joins them. -/
def leadingName (text : Text) : Option Text × Text :=
  let isWord (c : CodePoint) := Text.isAlphanumeric c || c = 0x5F
  let first := text.takeWhile isWord
  match text.dropWhile isWord with
  | [] => (none, first)
  | c :: rest =>
    let second := rest.takeWhile isWord
    if c = 0x2E && !second.isEmpty then (some first, second) else (none, first)

/-- What the name at the beginning of an annotation's text denotes in a module, where it can be told
without evaluating the text: a name of the module itself, or one of a standard module. -/
def leadingReferent (world : World) (moduleName : Text) (expr : TypeExpr) : Option Referent :=
  match leadingName expr.text with
  | (none, name) => List.lookup name (world.namesOf moduleName)
  | (some owner, name) =>
    match List.lookup owner (world.namesOf moduleName) with
    | some (.module standard) =>
      if standard = ("typing" : Text) || standard = ("dataclasses" : Text) then
        List.lookup name (world.namesOf standard)
      else none
    | _ => none

/-- The part of a field whose annotation denotes this. The mark that the fields after it are given by
name makes no field. -/
def roleOf : Referent → Option FieldRole
  | .form .classVar | .classVar _ => some .classVariable
  | .cls (.standard .initVar) | .initVar _ => some .initVariable
  | .object (.standard .keywordMark) => none
  | _ => some .regular

/-- The part of a field with an annotation. A string is looked at in the module of the class, which has
to be loaded for that. -/
def role? (world : World) (moduleName : Text) : Referent → Except Trouble (Option FieldRole)
  | .text expr =>
    let (owner, name) := leadingName expr.text
    if owner.isNone && !name.isEmpty && (world.module? moduleName).isNone then
      .error (.noObjectAttribute StandardClass.noneType.name "__dict__")
    else .ok (((leadingReferent world moduleName expr).map roleOf).getD (some .regular))
  | d => .ok (roleOf d)

def bound? (world : World) (ancestors : List ClassRef) (body : Body) (name : Text) :
    Option ClassAttribute :=
  (List.lookup name body.attributes).or (ancestors.findSome? fun c => world.ownAttribute? c name)

/-- What stands for the default of a field: under some names every class has a container of its own. -/
def default? (world : World) (ancestors : List ClassRef) (body : Body) (name : Text) :
    Option ClassAttribute :=
  if name = ("__annotations__" : Text) then some (.plain (.data (.dict [])))
  else if name = ("__dict__" : Text) then some (.plain (.object (.standard .mappingProxy)))
  else bound? world ancestors body name

/-- The field of an annotated name in a part. The default of a regular field cannot be a container. -/
def fieldOf (world : World) (ancestors : List ClassRef) (body : Body) (name : Text) (role : FieldRole) :
    Except Trouble DataField :=
  match default? world ancestors body name with
  | some (.specified metadata _) => .ok ⟨name, role, metadata⟩
  | some (.plain (.data value)) =>
    if role = .regular && !value.hasHash then .error (.mutableDefault value.typeName name)
    else .ok ⟨name, role, []⟩
  | some (.plain (.object (.standard .mappingProxy))) =>
    if role = .regular then .error (.mutableDefault StandardClass.mappingProxy.name name)
    else .ok ⟨name, role, []⟩
  | _ => .ok ⟨name, role, []⟩

/-- The fields of annotated names. There is at most one mark among them. -/
def ownFields (world : World) (moduleName : Text) (ancestors : List ClassRef) (body : Body)
    (isMarked : Bool) : Bindings → Except Trouble (List DataField)
  | [] => .ok []
  | (name, written) :: rest => do
    match ← role? world moduleName written with
    | some role =>
      let field ← fieldOf world ancestors body name role
      return field :: (← ownFields world moduleName ancestors body isMarked rest)
    | none =>
      if isMarked then throw (.repeatedMark name)
      ownFields world moduleName ancestors body true rest

/-- The fields of a list put after others, each name at its first place. -/
def addFields (kept fields : List DataField) : List DataField :=
  (fields.foldl (fun kept field => Json.put field.name field kept)
    (kept.map fun field => (field.name, field))).map (·.2)

/-- The fields that a class has from those above it, the farthest first, after others. -/
def inheritedFields (world : World) (kept : List DataField) :
    List ClassRef → Except Trouble (List DataField)
  | [] => .ok kept
  | c :: rest => do inheritedFields world (addFields kept (← world.inheritableFields c)) rest

def fixedNames : List Text := [Body.moduleKey, "__doc__"]

/-- The body after its field specifications have been read: each is replaced by its default or taken
away. One of an ancestor cannot be taken away. -/
def settle (world : World) (className : Text) (ancestors : List ClassRef) (body : Body) :
    List Text → Except Trouble Body
  | [] => .ok body
  | name :: rest => do
    match bound? world ancestors body name with
    | some (.specified _ true) => settle world className ancestors (body.bind name (.plain .none)) rest
    | some (.specified _ false) =>
      if fixedNames.contains name then throw (.undeletable name className)
      if (List.lookup name body.attributes).isNone then throw (.noClassAttribute className name)
      settle world className ancestors (body.without [name]) rest
    | _ => settle world className ancestors body rest

def checkAnnotated (annotated : Bindings) (body : Body) : Except Trouble Unit :=
  match body.attributes.find? fun entry =>
      entry.2.isSpecification && (List.lookup entry.1 annotated).isNone with
  | some (name, _) => .error (.unannotatedField name)
  | none => .ok ()

def keep (name : Text) (body : Body) : Body := body.bind name (.plain (.object (.standard .object)))

/-- The fields of a class and its body after it has become a dataclass. -/
def make (world : World) (label : ModuleLabel) (className : Text) (ancestors : List ClassRef)
    (body : Body) : Except Trouble (List DataField × Body) := do
  label.check
  let body := keep World.parametersName body
  let inherited ← inheritedFields world [] ancestors.reverse
  let annotated ← world.tableOf body.annotations
  let own ← ownFields world label.name ancestors body false annotated
  let body ← settle world className ancestors body (own.map (·.name))
  checkAnnotated annotated body
  return (addFields inherited own, keep fieldsName body)

end Dataclass

end Specimen
