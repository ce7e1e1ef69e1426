import Specimen.Command
import Specimen.CommandLine.Arguments

/-!
What a command line asks for.
-/
namespace Specimen.CommandLine

/-- A request: one of the commands with what it needs, or a text about the program. -/
inductive Request where
  /-- Types as source, from a file or, where the path is a dash, from standard input. -/
  | generate (input : Text) (names : NameRequest) (options : Options) (output : Option Text)
  | serialize (name : Text) (source : Option Text) (settings : Settings) (output : Option Text)
  | pascal (text : Text)
  | version
  | help
  deriving Repr

private def helpOption : OptionSpec := ⟨["--help"], false⟩

private def outputOption : OptionSpec := ⟨["--output", "-o"], true⟩

def programOptions : List OptionSpec :=
  [⟨["--version"], false⟩, ⟨["--verbose", "-v"], false⟩, helpOption]

def generateOptions : List OptionSpec :=
  [⟨["--namespace", "-n"], true⟩, ⟨["--name", "-t"], true⟩, ⟨["--style", "-s"], true⟩,
    ⟨["--strict"], false⟩, outputOption, helpOption]

def serializeOptions : List OptionSpec :=
  [⟨["--source"], true⟩, ⟨["--mode"], true⟩, ⟨["--loop-handling"], true⟩, ⟨["--compact"], false⟩,
    outputOption, helpOption]

def single (arguments : Arguments) : Except UsageFault Text :=
  match arguments.positional with
  | [] => .error .missingArgument
  | [text] => .ok text
  | _ :: extra :: _ => .error (.unexpectedArgument extra)

def choose {α : Type} (arguments : Arguments) (key : Text) (named : List (Text × α)) (usual : α) :
    Except UsageFault α :=
  match arguments.value? key with
  | none => .ok usual
  | some name =>
    match named.find? (·.1 = name) with
    | some entry => .ok entry.2
    | none => .error (.invalidValue key name)

def generateRequest (arguments : Arguments) : Except UsageFault Request := do
  let style ← choose arguments "--style" CodeStyle.named .dataclass
  let names : NameRequest := ⟨(arguments.value? "--namespace").getD defaultNamespace,
    (arguments.value? "--name").getD defaultTypeName⟩
  let options := { Options.standard with
    style := style
    blockOnConflicts := arguments.isGiven "--strict" }
  return .generate (← single arguments) names options (arguments.value? "--output")

def serializeRequest (arguments : Arguments) : Except UsageFault Request := do
  let visibility ← choose arguments "--mode" Visibility.named .declaredOnly
  let loops ← choose arguments "--loop-handling" LoopHandling.named .ignore
  let formatting := if arguments.isGiven "--compact" then .compact else .indented
  return .serialize (← single arguments) (arguments.value? "--source")
    ⟨visibility, loops, formatting⟩ (arguments.value? "--output")

def pascalRequest (arguments : Arguments) : Except UsageFault Request := do
  return .pascal (← single arguments)

def commands : List (Text × List OptionSpec × (Arguments → Except UsageFault Request)) :=
  [("generate", generateOptions, generateRequest), ("serialize", serializeOptions, serializeRequest),
    ("pascal", [helpOption], pascalRequest)]

/-- The text about the program that the options before a command ask for, the first one first. -/
def programText? (arguments : Arguments) : Option Request :=
  arguments.options.findSome? fun given =>
    if given.1 = ("--version" : Text) then some .version
    else if given.1 = ("--help" : Text) then some .help
    else none

/-- The request of a word that is no command. After one that begins like an option, the other arguments
are read as options once more. -/
def strayRequest (word : Text) (rest : List Text) : Except UsageFault Request := do
  if (word.head?.map fun c => !Text.isAlphanumeric c).getD false then
    if let some request := programText? (← readArguments programOptions false rest) then
      return request
  throw (.unknownCommand word)

def request (arguments : List Text) : Except UsageFault Request := do
  let before ← readArguments programOptions false arguments
  if let some request := programText? before then return request
  match before.positional with
  | [] => throw .missingCommand
  | word :: rest =>
    match commands.find? (·.1 = word) with
    | none => strayRequest word rest
    | some (_, specs, make) =>
      let given ← readArguments specs true rest
      if given.isGiven "--help" then return .help
      make given

namespace Request

def paths : Request → List Text × Option Text
  | .generate input _ _ output => (if input = ("-" : Text) then [] else [input], output)
  | .serialize _ source _ output => (source.toList, output)
  | _ => ([], none)

private def endsAsDirectory (path : Text) : Bool :=
  path.endsWith "/" || path.endsWith "/." || path = ("." : Text)

private def checkSource (workspace : Workspace) (path : Text) : Except UsageFault Unit :=
  if path.isEmpty then .error (.missingPath path)
  else if workspace.isDirectory path then .error (.directoryPath path)
  else if workspace.isFile path && !endsAsDirectory path then .ok ()
  else .error (.missingPath path)

/-- Whether the paths can be used: what is read from is a file, and what is written to is no
directory. -/
def checkPaths (workspace : Workspace) (request : Request) : Except UsageFault Unit := do
  let (sources, output) := request.paths
  sources.forM (checkSource workspace)
  match output with
  | some path =>
    if !path.isEmpty && workspace.isDirectory path then throw (.directoryPath path)
  | none => pure ()

end Request

end Specimen.CommandLine
