import Specimen.Text.Basic
import Specimen.Text.Casing.Tables

/-!
Case mapping of texts. Mapping to lowercase looks at the neighbours of a capital sigma only; mapping
to uppercase looks at single characters and may lengthen the text.
-/
namespace Specimen.Text

def isLower (c : CodePoint) : Bool := Stride.tableContains lowerTable c

def isUpper (c : CodePoint) : Bool := Stride.tableContains upperTable c

def isTitle (c : CodePoint) : Bool := Stride.tableContains titleTable c

def isCased (c : CodePoint) : Bool := isLower c || isUpper c || isTitle c

/-- Whether the code point is skipped when the ends of a word are looked for. -/
def isCaseIgnorable (c : CodePoint) : Bool := Stride.tableContains caseIgnorableTable c

/-- Whether the text has an uppercase character and no lowercase or titlecase one. -/
def isAllUpper (text : Text) : Bool :=
  text.any isUpper && text.all fun c => !isLower c && !isTitle c

private def meetsCased (text : Text) : Bool :=
  match text.dropWhile isCaseIgnorable with
  | [] => false
  | c :: _ => isCased c

/-- The capital sigma, whose lowercase form depends on its place in the word. -/
def capitalSigma : CodePoint := 0x3A3

/-- The lowercase form of a code point between the reversed text before it and the text after it. -/
def lowerAt (before : Text) (c : CodePoint) (after : Text) : Text :=
  if c = capitalSigma then
    if meetsCased before && !meetsCased after then [0x3C2] else [0x3C3]
  else if c = 0x130 then [0x69, 0x307]
  else [ShiftRun.apply lowerShifts c]

/-- The rest of a text in lowercase, behind the reversed text before it. -/
def lowerFrom (before : Text) : Text → Text
  | [] => []
  | c :: rest => lowerAt before c rest ++ lowerFrom (c :: before) rest

def lower (text : Text) : Text := lowerFrom [] text

def upperOf (c : CodePoint) : Text :=
  match upperExpansions.find? (·.1 = c) with
  | some (_, expansion) => expansion
  | none => [ShiftRun.apply upperShifts c]

end Specimen.Text
