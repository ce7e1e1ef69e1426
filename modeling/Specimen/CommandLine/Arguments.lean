import Specimen.Text.Basic

/-!
Arguments of a command line: options with and without values, in any order among the other arguments,
up to two dashes that end them.
-/
namespace Specimen.CommandLine

/-- An option by its names, the first of which stands for it, and whether it takes a value. -/
structure OptionSpec where
  names : List Text
  takesValue : Bool
  deriving DecidableEq, Repr

def OptionSpec.key (spec : OptionSpec) : Text := spec.names.headD []

inductive UsageFault where
  | unknownOption (name : Text)
  | missingValue (name : Text)
  | unexpectedValue (name : Text)
  | invalidValue (name value : Text)
  | missingArgument
  | unexpectedArgument (text : Text)
  | missingCommand
  | unknownCommand (name : Text)
  | missingPath (path : Text)
  | directoryPath (path : Text)
  deriving DecidableEq, Repr

def UsageFault.text : UsageFault → Text
  | .unknownOption name => "No such option: " ++ name
  | .missingValue name => "Option " ++ name ++ " requires an argument."
  | .unexpectedValue name => "Option " ++ name ++ " does not take a value."
  | .invalidValue name value => "Invalid value for " ++ name ++ ": " ++ value
  | .missingArgument => "Missing argument."
  | .unexpectedArgument text => "Got unexpected extra argument (" ++ text ++ ")"
  | .missingCommand => "Missing command."
  | .unknownCommand name => "No such command " ++ name ++ "."
  | .missingPath path => "File " ++ path ++ " does not exist."
  | .directoryPath path => "File " ++ path ++ " is a directory."

/-- What arguments say: the given options in order, each with its value or an empty text, and the other
arguments. -/
structure Arguments where
  options : List (Text × Text)
  positional : List Text
  deriving DecidableEq, Repr

namespace Arguments

/-- The value of an option; the last one counts. -/
def value? (arguments : Arguments) (key : Text) : Option Text :=
  (arguments.options.reverse.find? (·.1 = key)).map (·.2)

def isGiven (arguments : Arguments) (key : Text) : Bool := (arguments.value? key).isSome

def give (arguments : Arguments) (options : List (Text × Text)) : Arguments :=
  { arguments with options := arguments.options ++ options }

def place (arguments : Arguments) (texts : List Text) : Arguments :=
  { arguments with positional := arguments.positional ++ texts }

end Arguments

/-- The options that one argument gives, and the one that takes the next argument as its value. -/
structure Given where
  options : List (Text × Text)
  waiting : Option Text
  deriving DecidableEq, Repr

def findOption? (specs : List OptionSpec) (name : Text) : Option OptionSpec :=
  specs.find? fun spec => spec.names.contains name

/-- The options of single letters that follow one dash. The letters after one that takes a value are
its value. -/
def letterOptions (specs : List OptionSpec) : Text → Except UsageFault Given
  | [] => .ok ⟨[], none⟩
  | c :: rest =>
    match findOption? specs ("-" ++ [c]) with
    | none => .error (.unknownOption ("-" ++ [c]))
    | some spec =>
      if !spec.takesValue then do
        let more ← letterOptions specs rest
        return ⟨(spec.key, []) :: more.options, more.waiting⟩
      else if rest.isEmpty then .ok ⟨[], some spec.key⟩
      else .ok ⟨[(spec.key, rest)], none⟩

/-- The option of a full name, with the value that an equals sign joins to it. -/
def namedOption (spec : OptionSpec) (name : Text) (value : Option Text) : Except UsageFault Given :=
  match spec.takesValue, value with
  | true, some text => .ok ⟨[(spec.key, text)], none⟩
  | true, none => .ok ⟨[], some spec.key⟩
  | false, some _ => .error (.unexpectedValue name)
  | false, none => .ok ⟨[(spec.key, [])], none⟩

def givenBy (specs : List OptionSpec) (argument : Text) : Except UsageFault Given :=
  let name := argument.takeWhile (· ≠ 0x3D)
  let value := if argument.contains 0x3D then some (argument.drop (name.length + 1)) else none
  if argument.startsWith "--" then
    match findOption? specs name with
    | some spec => namedOption spec name value
    | none => .error (.unknownOption name)
  else letterOptions specs argument.tail

/-- Whether an argument gives options. A dash alone does not. -/
def isOption (argument : Text) : Bool := argument.startsWith "-" && 1 < argument.length

/-- What arguments say, after those that have been read. Unless options may stand among the other
arguments, the first one that is none ends them. -/
def readFrom (specs : List OptionSpec) (interspersed : Bool) (read : Arguments)
    (waiting : Option Text) : List Text → Except UsageFault Arguments
  | [] =>
    match waiting with
    | some key => .error (.missingValue key)
    | none => .ok read
  | argument :: rest =>
    match waiting with
    | some key => readFrom specs interspersed (read.give [(key, argument)]) none rest
    | none =>
      if argument = ("--" : Text) then .ok (read.place rest)
      else if isOption argument then do
        let given ← givenBy specs argument
        readFrom specs interspersed (read.give given.options) given.waiting rest
      else if interspersed then readFrom specs interspersed (read.place [argument]) none rest
      else .ok (read.place (argument :: rest))

def readArguments (specs : List OptionSpec) (interspersed : Bool) (arguments : List Text) :
    Except UsageFault Arguments :=
  readFrom specs interspersed ⟨[], []⟩ none arguments

end Specimen.CommandLine
