import Specimen.Json.Reader
import Specimen.Failure
import Specimen.Text.Blank
import Specimen.Text.Position

/-!
Validation and parsing of JSON text. Validation reads the text with a bound on the digits of plain
integers; parsing validates first, then reads again keeping every literal, and gives each object
unique names.
-/
namespace Specimen.Json

def readNesting : Nat := 990

/-- The most containers inside each other that a document may have. -/
def documentNesting : Nat := 480

def validationLimits : ReadLimits := ⟨readNesting, some Numeral.digitLimit⟩

def parseLimits : ReadLimits := ⟨readNesting, none⟩

def emptyMessage : Text := "JSON string is empty"

/-- What a text is refused for when its containers are nested too deeply. -/
def tooDeepMessage : Text := "JSON document is nested too deeply"

def isEmptyText (text : Text) : Bool := (Text.trim text).isEmpty

inductive ProblemKind where
  | malformed
  | structural
  deriving DecidableEq, Repr

structure Problem where
  kind : ProblemKind
  message : Text
  location : Text
  deriving DecidableEq, Repr

private def faultProblem (text : Text) (fault : Fault) (position : Nat) : Problem :=
  let (line, column) := Text.lineColumn text position
  ⟨.malformed, "Invalid JSON syntax: " ++ fault.message,
    "line " ++ Text.ofNat line ++ ", column " ++ Text.ofNat column⟩

/-- The problem of a text, if it has one. An integer of too many digits is no problem of the text but
a failure. -/
def validate (text : Text) : Except Failure (Option Problem) :=
  if isEmptyText text then .ok (some ⟨.malformed, emptyMessage, "input"⟩)
  else match read validationLimits text with
    | .ok _ => .ok none
    | .error (.fault fault position) => .ok (some (faultProblem text fault position))
    | .error .tooDeep => .ok (some ⟨.structural, tooDeepMessage, "input"⟩)
    | .error (.longInteger digits) => .error (.longInteger digits)

def wholeRefusal (message : Text) : Failure := .refusal (.document message 0 1 1)

def faultRefusal (text : Text) (fault : Fault) (position : Nat) : Failure :=
  let (line, column) := Text.lineColumn text position
  .refusal (.document fault.message position line column)

/-- The refusal of a text that validation found a problem with; the problem's place is found by
reading once more. -/
def problemRefusal (text : Text) (problem : Problem) : Failure :=
  if isEmptyText text then wholeRefusal problem.message
  else match read validationLimits text with
    | .error (.fault fault position) => faultRefusal text fault position
    | _ => wholeRefusal problem.message

def parse (text : Text) : Except Failure Document :=
  match validate text with
  | .error failure => .error failure
  | .ok (some problem) => .error (problemRefusal text problem)
  | .ok none =>
    match read parseLimits text with
    | .error (.fault fault position) => .error (faultRefusal text fault position)
    | .error .tooDeep => .error (wholeRefusal tooDeepMessage)
    | .error (.longInteger digits) => .error (.longInteger digits)
    | .ok document =>
      if documentNesting < document.depth then .error (wholeRefusal tooDeepMessage)
      else .ok document.dedupe

end Specimen.Json
