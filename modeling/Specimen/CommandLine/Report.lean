import Specimen.CommandLine.Request
import Specimen.Text.Letter

/-!
Runs of the command line. A copied text goes to a file or to standard output, messages go to standard
error.
-/
namespace Specimen.CommandLine

/-- What a run has written: the files by their paths, standard output, and standard error. -/
structure Console where
  files : List (Text × List Nat)
  output : Text
  errors : Text
  deriving DecidableEq, Repr

def asLine (text : Text) : Text := if text.endsWith "\n" then text else text ++ "\n"

/-- A message as standard error shows it: surrogates are written as escapes. -/
def messageLine (message : Text) : Text :=
  (message.flatMap fun c => if Text.isSurrogate c then Text.quotedForm 0x27 c else [c]) ++ "\n"

namespace Console

def blank : Console := ⟨[], [], []⟩

def hold (console : Console) (path : Text) (bytes : List Nat) : Console :=
  { console with files := Json.put path bytes console.files }

def print (text : Text) : Action Console Unit := do
  orUnencodable (Text.checkEncodable text)
  modify fun console => { console with output := console.output ++ asLine text }

def store (workspace : Workspace) (path text : Text) : Action Console Unit := do
  let name := Workspace.pathText path
  (workspace.checkWritable path).mapError fun fault => Failure.file fault name
  modify fun console => console.hold name []
  let bytes ← orUnencodable (Text.encodeUtf8 text)
  modify fun console => console.hold name bytes

/-- The host of a command: copied texts go to a file or to standard output, messages go to standard
error. -/
def host (workspace : Workspace) (output : Option Text) : Host Console where
  copy := match output with
    | none => print
    | some path => store workspace path
  tell message := modify fun console =>
    { console with errors := console.errors ++ messageLine message }

end Console

/-- What a run leaves behind. -/
structure Report where
  exit : Nat
  console : Console
  /-- A failure that the program does not handle. -/
  failure : Option Failure
  deriving DecidableEq, Repr

namespace Report

def told (text : Text) : Report := ⟨0, { Console.blank with output := text }, none⟩

def misused (fault : UsageFault) : Report :=
  ⟨2, { Console.blank with errors := messageLine ("Error: " ++ fault.text) }, none⟩

def ended (failure : Failure) (console : Console) : Report :=
  let told (text : Text) : Console := { console with errors := console.errors ++ text }
  match failure with
  | .escape ⟨_, _, .exit status shown⟩ => ⟨status, told ((shown.map messageLine).getD []), some failure⟩
  | .escape ⟨_, _, .interruption⟩ => ⟨1, told "\nAborted!\n", some failure⟩
  | _ => ⟨1, console, some failure⟩

def ofRun (step : Action Console Bool) : Report :=
  match step.run.run Console.blank with
  | (.ok isDone, console) => ⟨if isDone then 0 else 1, console, none⟩
  | (.error failure, console) => ended failure console

end Report

/-- What a run finds: the files of the working directory, and the bytes of standard input. -/
structure Surroundings where
  workspace : Workspace
  input : List Nat
  deriving Repr, Inhabited

def versionText : Text := "json-butler, version 1.0.0\n"

def helpText : Text :=
  "Usage: json-butler [--verbose] generate [--namespace N] [--name T] [--style S] [--strict] " ++
    "[--output FILE] FILE\n" ++
  "       json-butler [--verbose] serialize [--source FILE] [--mode M] [--loop-handling L] " ++
    "[--compact] [--output FILE] NAME\n" ++
  "       json-butler [--verbose] pascal TEXT\n"

def readInput (surroundings : Surroundings) (path : Text) : Except Failure Text := do
  let path := Workspace.pathText path
  let bytes ←
    if path = ("-" : Text) then pure surroundings.input
    else (surroundings.workspace.read path).mapError fun fault => Failure.file fault path
  return Text.universalNewlines (← (Text.decodeUtf8 bytes).mapError Failure.undecodable)

def answer (surroundings : Surroundings) (request : Request) : Report :=
  let workspace := surroundings.workspace
  match request with
  | .version => .told versionText
  | .help => .told helpText
  | .pascal text => .ofRun (Command.pascal.execute (Console.host workspace none) text)
  | .generate input names options output => .ofRun do
    let text ← readInput surroundings input
    (Command.create options (some names)).execute (Console.host workspace output) text
  | .serialize name source settings output =>
    .ofRun ((Command.serialize workspace source settings).execute (Console.host workspace output) name)

def run (surroundings : Surroundings) (arguments : List Text) : Report :=
  let checked : Except UsageFault Request := do
    let found ← request arguments
    found.checkPaths surroundings.workspace
    return found
  match checked with
  | .ok found => answer surroundings found
  | .error fault => .misused fault

end Specimen.CommandLine
