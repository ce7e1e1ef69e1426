import Specimen.Loading.Class
import Specimen.Loading.Raising

/-!
Importing modules. A module is loaded at most once, after the packages around it; one that fails is
forgotten, while what it had loaded before stays.
-/
namespace Specimen

/-- Importing changes the world also where it ends early. -/
abbrev Importer := ExceptT Halt (StateM World)

/-- The modules that can be imported. Every package among them is listed. -/
structure ModuleTree where
  modules : List ModuleSource
  deriving Repr, Inhabited

def packagesOf (name : Text) : List Text :=
  let parts := name.splitOn 0x2E
  (List.range (parts.length - 1)).map fun k => List.intercalate "." (parts.take (k + 1))

/-- The name of the package directly around a module; empty for one at the top. -/
def parentOf (name : Text) : Text := (packagesOf name).getLast?.getD []

def lastPart (name : Text) : Text := (name.splitOn 0x2E).getLast?.getD []

def ModuleSource.blank (name : Text) : ModuleSource := ⟨name, false, [], [], [], [], none⟩

namespace ModuleTree

private def addMissing (modules : List ModuleSource) (name : Text) : List ModuleSource :=
  if modules.any (·.name = name) then modules else modules ++ [.blank name]

/-- The tree of modules, with a blank package wherever one is missing. -/
def ofModules (modules : List ModuleSource) : ModuleTree :=
  ⟨(modules.flatMap fun m => packagesOf m.name).foldl addMissing modules⟩

variable (tree : ModuleTree)

def find? (name : Text) : Option ModuleSource := tree.modules.find? (·.name = name)

def isPackage (name : Text) : Bool :=
  Library.isPackage name || tree.modules.any fun m => m.name.startsWith (name ++ ".")

end ModuleTree

namespace Loading

def bindName (moduleName name : Text) (d : Referent) (world : World) : World :=
  { world with modules := world.modules.map fun m =>
      if m.name = moduleName then { m with names := Json.put name d m.names } else m }

def forget (name : Text) (world : World) : World :=
  { world with modules := world.modules.filter (·.name ≠ name) }

def markComplete (name : Text) (world : World) : World :=
  { world with modules := world.modules.map fun m =>
      if m.name = name then { m with isComplete := true } else m }

def isLoaded (world : World) (name : Text) : Bool := (world.module? name).isSome

/-- A module and the packages around it that have to be loaded first, the outermost first: none
beyond the nearest one that is loaded. -/
def missing (world : World) (name : Text) : List Text :=
  ((packagesOf name ++ [name]).reverse.takeWhile fun n => !isLoaded world n).reverse

/-- The imports of a module. Each binds the first part of its name, which is imported as well where it is not
loaded any more. -/
def runImports (importOne : Text → Importer Unit) (moduleName : Text) : List Text → Importer Unit
  | [] => return ()
  | name :: rest => do
    let top := (name.splitOn 0x2E).headD []
    importOne name
    importOne top
    modify (bindName moduleName top (.module top))
    runImports importOne moduleName rest

/-- The classes of a module, created one after the other and bound under their names. -/
def runClasses (moduleName : Text) (postponed : Bool) : List ClassSource → Importer Unit
  | [] => return ()
  | source :: rest => do
    let c ← (createClass moduleName postponed source).adapt Halt.trouble
    modify (bindName moduleName source.name (.cls c))
    runClasses moduleName postponed rest

def runModule (importOne : Text → Importer Unit) (source : ModuleSource) : Importer Unit := do
  runImports importOne source.name source.imports
  runClasses source.name source.postponed source.classes
  modify fun world => source.functions.foldl
    (fun world name => bindName source.name name (.object (.standard .function)) world) world
  modify fun world => source.values.foldl
    (fun world (name, value) => bindName source.name name (.data value) world) world
  match source.fault with
  | some fault => do
    let world ← get
    throw (Raising.haltOf ⟨world, [world.namesOf source.name]⟩ fault)
  | none => return ()

/-- A module entered into the world and run. Where that ends early the module is forgotten, if it is to be. -/
def enter (forgets : Halt → Bool) (importOne : Text → Importer Unit) (source : ModuleSource) :
    Importer Unit := do
  modify fun world =>
    { world with modules := world.modules ++ [⟨source.name, Library.imported, false⟩] }
  tryCatch (runModule importOne source) fun halt => do
    if forgets halt then modify (forget source.name)
    throw halt
  modify (markComplete source.name)

/-- A module entered into the world and run, and forgotten if that ends early. -/
def enterModule (importOne : Text → Importer Unit) (source : ModuleSource) : Importer Unit :=
  enter (fun _ => true) importOne source

/-- A module entered into the world, unless it is loaded, and bound in the package around it. -/
def loadOne (tree : ModuleTree) (importOne : Text → Importer Unit) (name : Text) : Importer Unit := do
  if isLoaded (← get) name then return ()
  let parent := parentOf name
  if !parent.isEmpty && !tree.isPackage parent then throw (.trouble (.notPackage name parent))
  match tree.find? name with
  | none => throw (.trouble (.noModule name))
  | some source =>
    enterModule importOne source
    if !parent.isEmpty then modify (bindName parent (lastPart name) (.module name))

def loadEach (tree : ModuleTree) (importOne : Text → Importer Unit) : List Text → Importer Unit
  | [] => return ()
  | name :: rest => do
    loadOne tree importOne name
    loadEach tree importOne rest

/-- A module imported by its name. Every nested import runs inside another module, which bounds the
nesting. -/
def importFrom (tree : ModuleTree) : (fuel : Nat) → Text → Importer Unit
  | 0, name => throw (.trouble (.noModule name))
  | fuel + 1, name => do loadEach tree (importFrom tree fuel) (missing (← get) name)

def importModule (tree : ModuleTree) (name : Text) : Importer Unit :=
  importFrom tree (tree.modules.length + 2) name

/-- Whether a name that is no relative one can be found as a module. The packages around it are
imported first; the name itself is not. -/
def canFind (tree : ModuleTree) (name : Text) : Importer Bool := do
  if name.startsWith "." then return false
  if isLoaded (← get) name then return true
  let parent := parentOf name
  if parent.isEmpty then return (tree.find? name).isSome
  importModule tree parent
  return tree.isPackage parent && (tree.find? name).isSome

/-- Whether a name can be found as a module. Trouble on the way means that it cannot; only what escapes from the
handlers of troubles ends the search. -/
def isFound (tree : ModuleTree) (name : Text) : ExceptT Escape (StateM World) Bool := do
  match ← liftM (canFind tree name).run with
  | .ok found => return found
  | .error (.trouble _) => return false
  | .error (.escape cause) => throw cause

end Loading

end Specimen
