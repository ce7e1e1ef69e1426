import Specimen.Failure
import Specimen.Loading.Workspace

/-!
Finding classes by their names, either in modules that can be imported or in a single source file.
-/
namespace Specimen

/-- A class found under a name. One from a source file alone is not built: what the file takes from
elsewhere may be missing. -/
structure Handle where
  qualifiedName : Text
  type : Option ClassRef
  isBuilt : Bool
  sourcePath : Option Text
  deriving Repr

/-- Finding a class changes the world also where it fails. -/
abbrev Resolver := ExceptT Failure (StateM World)

namespace Resolver

def worded (wording : Trouble → Refusal) : Halt → Failure
  | .trouble cause => .refusal (wording cause)
  | .escape cause => .escape cause

def load {α : Type} (wording : Trouble → Refusal) (step : Importer α) : Resolver α :=
  step.adapt (worded wording)

def refuse {α : Type} (name message : Text) : Resolver α :=
  throw (.refusal (.resolution message (some name)))

def asClass : Referent → Option ClassRef
  | .cls c => some c
  | _ => none

/-- A name without the white space around it. A name has to have something else. -/
def trimmed (name : Text) : Resolver Text :=
  if (Text.trim name).isEmpty then refuse name "No type name given" else return Text.trim name

/-- The longest beginning of a name, of at most so many parts, under which a module can be found, and the
rest of the name. -/
def searchModule (tree : ModuleTree) (name : Text) (parts : List Text) :
    (count : Nat) → Resolver (Text × Text)
  | 0 => refuse name ("No importable module in " ++ name)
  | count + 1 => do
    let moduleName := List.intercalate "." (parts.take (count + 1))
    if ← (Loading.isFound tree moduleName).adapt Failure.escape then
      return (moduleName, List.intercalate "." (parts.drop (count + 1)))
    searchModule tree name parts count

/-- A qualified name as the name of a module and that of an attribute. A colon separates them; without
one the module's name is the longest beginning under which a module can be found. -/
def splitName (tree : ModuleTree) (name : Text) : Resolver (Text × Text) :=
  if name.contains 0x3A then
    return (name.takeWhile (· ≠ 0x3A), (name.dropWhile (· ≠ 0x3A)).tail)
  else
    let parts := name.splitOn 0x2E
    if parts.length < 2 then refuse name (name ++ " is not a qualified name")
    else searchModule tree name parts (parts.length - 1)

def importNamed (tree : ModuleTree) (moduleName : Text) : Importer Unit :=
  if moduleName.startsWith "." then throw (.trouble (.relativeModule moduleName))
  else if moduleName.isEmpty then throw (.trouble .emptyModuleName)
  else Loading.importModule tree moduleName

def importAttribute (tree : ModuleTree) (moduleName attr : Text) : Importer Referent := do
  importNamed tree moduleName
  (Loading.lift ((← get).selectAll (.module moduleName) (attr.splitOn 0x2E))).adapt Halt.trouble

/-- The class of a qualified name among the modules that can be imported. -/
def resolveImported (tree : ModuleTree) (name : Text) : Resolver Handle := do
  let name ← trimmed name
  let (moduleName, attr) ← splitName tree name
  let found ← load
    (fun trouble => .resolution ("Cannot resolve " ++ name ++ ": " ++ trouble.text) (some name))
    (importAttribute tree moduleName attr)
  match asClass found with
  | some c => return ⟨name, some c, true, none⟩
  | none => refuse name (name ++ " is not a class")

def sourceModuleName (path : Text) : Text :=
  let file := (Workspace.pathParts path).getLast?.getD []
  let stem := file.take (file.length - 3)
  "_json_butler_source_" ++ stem

/-- The first referent among the attributes of a module that a name or one of its dotted endings
leads to. -/
def longestEnding (world : World) (moduleName : Text) : List Text → Option Referent
  | [] => none
  | part :: rest =>
    match world.selectAll (.module moduleName) (part :: rest) with
    | .ok found => some found
    | .error _ => longestEnding world moduleName rest

/-- The class of a name in a source file. Every dotted part but the last ones may be missing there. -/
def resolveSource (workspace : Workspace) (path name : Text) : Resolver Handle := do
  let name ← trimmed name
  let shown := Workspace.pathText path
  if !workspace.isFile path then refuse name ("Source file not found: " ++ shown)
  if !path.endsWith ".py" then refuse name ("Cannot load " ++ shown)
  let moduleName := sourceModuleName path
  let source := (workspace.moduleAt? path).getD (.blank moduleName)
  modify (Loading.forget moduleName)
  load
    (fun trouble => .resolution ("Loading " ++ shown ++ " failed: " ++ trouble.text) (some name))
    (Loading.enter Halt.isTrouble (Loading.importModule workspace.tree) { source with name := moduleName })
  match (longestEnding (← get) moduleName (name.splitOn 0x2E)).bind asClass with
  | some c => return ⟨name, some c, false, some shown⟩
  | none => refuse name (name ++ " is not a class in " ++ shown)

/-- The class of a name: in one source file if there is one, else among the modules that can be
imported. -/
def resolve (workspace : Workspace) (file : Option Text) (name : Text) : Resolver Handle :=
  match file with
  | some path => resolveSource workspace path name
  | none => resolveImported workspace.tree name

end Resolver

end Specimen
