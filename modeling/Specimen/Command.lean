import Specimen.Generation
import Specimen.Loading.Own
import Specimen.Serialization

/-!
Commands of a host such as an editor. A command takes the selected text, may copy a text, and may show
messages. A refusal ends it with one message; any other failure leaves it, and what was copied and shown
before stays.
-/
namespace Specimen

/-- What a command has to copy and to show, and whether that is its work done. -/
structure Outcome where
  isDone : Bool
  copied : List Text
  shown : List Text
  deriving DecidableEq, Repr

def Outcome.done (text message : Text) : Outcome := ⟨true, [text], [message]⟩

def Outcome.withheld (message : Text) : Outcome := ⟨false, [], [message]⟩

/-- A step that may fail. What it changed before it failed stays changed. -/
abbrev Action (σ : Type) := ExceptT Failure (StateM σ)

/-- What a host offers to commands: a place for copied texts, and one for messages. -/
structure Host (σ : Type) where
  copy : Text → Action σ Unit
  tell : Text → Action σ Unit

namespace Host

variable {σ : Type} (host : Host σ)

def perform (outcome : Outcome) : Action σ Bool := do
  outcome.copied.forM host.copy
  outcome.shown.forM host.tell
  return outcome.isDone

def settle (step : Action σ Bool) : Action σ Bool :=
  tryCatch step fun
    | .refusal cause => host.perform (.withheld cause.advice.message)
    | failure => throw failure

end Host

/-- The names that generated types get. -/
structure NameRequest where
  nameSpace : Text
  typeName : Text
  deriving DecidableEq, Repr

inductive Command where
  /-- The types of the selected sample as source; nothing without names. -/
  | create (options : Options) (request : Option NameRequest)
  /-- A representative document of the class that the selected text names. -/
  | serialize (workspace : Workspace) (file : Option Text) (settings : Settings)
  /-- The selected text as an identifier. -/
  | pascal
  deriving Repr

namespace Command

/-- The outcome of generated source. Conflicts are reported, and withhold the source where that is
asked for. -/
def copyGenerated (blockOnConflicts : Bool) (generated : Generated) : Outcome :=
  let message : Text := "Generated type code copied to clipboard."
  let summary := Conflict.summarize generated.conflicts
  if !generated.hasConflicts then .done generated.source message
  else if blockOnConflicts then .withheld (summary ++ ". Nothing was copied.")
  else .done generated.source (message ++ " " ++ summary ++ ".")

/-- The representative document of the class that a name finds, and the world after it was found. -/
def serializeNamed (workspace : Workspace) (file : Option Text) (settings : Settings) (name : Text) :
    Except Failure Serialized :=
  match (Resolver.resolve workspace file name).run.run Own.world with
  | (.ok handle, world) => world.serialize settings (some handle)
  | (.error failure, _) => .error failure

variable {σ : Type} (host : Host σ)

/-- What a command does with the selected text; whether it copied a text. -/
def body : Command → Text → Action σ Bool
  | .create options request, selected => do
    match request with
    | none => return false
    | some names =>
      let generated ← options.generate (some names.nameSpace) names.typeName none selected
      host.perform (copyGenerated options.blockOnConflicts generated)
  | .serialize workspace file settings, selected => do
    let name := Text.trim selected
    if name.isEmpty then host.perform (.withheld "Invalid code element selected for serialization.")
    else
      let made ← serializeNamed workspace file settings name
      host.perform (.done made.text "Serialized JSON contents copied to clipboard.")
  | .pascal, selected =>
    if (Text.trim selected).isEmpty then host.perform (.withheld "Select some text first.")
    else host.perform (.done (Naming.normalize selected) "Converted text copied to clipboard.")

/-- A run of a command on the selected text; whether it copied a text. -/
def execute (command : Command) (selected : Text) : Action σ Bool :=
  host.settle (command.body host selected)

end Command

/-- The texts that were copied and the messages that were shown, in order. -/
structure Journal where
  copied : List Text
  shown : List Text
  deriving DecidableEq, Repr

namespace Journal

def empty : Journal := ⟨[], []⟩

def host : Host Journal where
  copy text := modify fun journal => { journal with copied := journal.copied ++ [text] }
  tell message := modify fun journal => { journal with shown := journal.shown ++ [message] }

end Journal

end Specimen
