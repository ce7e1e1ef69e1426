import Specimen.Failure
import Specimen.Loading.Module

/-!
The files of a working directory: the sources of its modules, and others.
-/
namespace Specimen

structure RawFile where
  path : Text
  bytes : List Nat
  deriving Repr, Inhabited

/-- The modules of a working directory, its other files, and directories without files. -/
structure Workspace where
  tree : ModuleTree
  others : List RawFile
  directories : List Text
  deriving Repr, Inhabited

namespace Workspace

def topPart : Text := "/"

/-- The parts of a path; those that change nothing are left out. -/
def pathParts (path : Text) : List Text :=
  (if path.startsWith topPart then [topPart] else []) ++
    (path.splitOn 0x2F).filter fun part => !part.isEmpty && part ≠ ("." : Text)

def pathText (path : Text) : Text :=
  match pathParts path with
  | [] => "."
  | first :: rest =>
    if first = topPart then topPart ++ List.intercalate "/" rest else List.intercalate "/" (first :: rest)

def modulePath (tree : ModuleTree) (name : Text) : List Text :=
  let parts := name.splitOn 0x2E
  if tree.isPackage name then parts ++ [("__init__.py" : Text)]
  else parts.dropLast ++ [parts.getLast?.getD [] ++ ".py"]

variable (workspace : Workspace)

def files : List (List Text) :=
  workspace.tree.modules.map (fun m => modulePath workspace.tree m.name) ++
    workspace.others.map fun file => pathParts file.path

def isDirectoryAt (path : List Text) : Bool :=
  path.isEmpty || (workspace.files.any fun file => path.isPrefixOf file && path ≠ file) ||
    workspace.directories.any fun directory => path.isPrefixOf (pathParts directory)

/-- Where a path leads from a directory, or the fault: it leaves the working directory, or goes on
from something that is no directory. -/
def locateFrom (directory : List Text) : List Text → Except FileFault (List Text)
  | [] => .ok directory
  | part :: rest =>
    if !workspace.isDirectoryAt directory then
      .error (if workspace.files.contains directory then .notDirectory else .missing)
    else if part = (".." : Text) then
      if directory.isEmpty then .error .missing else locateFrom directory.dropLast rest
    else locateFrom (directory ++ [part]) rest

def locate (path : Text) : Except FileFault (List Text) := workspace.locateFrom [] (pathParts path)

def isFile (path : Text) : Bool :=
  match workspace.locate path with
  | .ok found => workspace.files.contains found
  | .error _ => false

def isDirectory (path : Text) : Bool :=
  match workspace.locate path with
  | .ok found => workspace.isDirectoryAt found
  | .error _ => false

def moduleAt? (path : Text) : Option ModuleSource :=
  match workspace.locate path with
  | .ok found => workspace.tree.modules.find? fun m => modulePath workspace.tree m.name = found
  | .error _ => none

def sourceStart (source : ModuleSource) : Text :=
  if source.classes.isEmpty && source.functions.isEmpty && source.values.isEmpty &&
      source.fault.isNone then []
  else "import"

/-- The bytes of a file. Of a module's source only the beginning is told. -/
def read (path : Text) : Except FileFault (List Nat) := do
  let found ← workspace.locate path
  match workspace.others.find? fun file => pathParts file.path = found with
  | some file => return file.bytes
  | none =>
    match workspace.moduleAt? path with
    | some source => return (sourceStart source).flatMap Text.utf8Bytes
    | none => throw (if workspace.isDirectoryAt found then .isDirectory else .missing)

/-- Whether a file can be written under a path, and the fault otherwise. -/
def checkWritable (path : Text) : Except FileFault Unit := do
  let found ← workspace.locate path
  if workspace.isDirectoryAt found then throw .isDirectory

end Workspace

end Specimen
