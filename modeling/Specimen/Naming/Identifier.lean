import Specimen.Naming.Keyword
import Specimen.Text.Casing
import Specimen.Text.Numeral

/-!
Identifiers from arbitrary text: names of types and members are capitalized segments, attribute names
are their lowercase words joined by underscores, and the items of a collection get its singular.
-/
namespace Specimen.Naming

def emptyIdentifier : Text := "Field"

/-- What is put before a name that does not begin with a letter. -/
def digitLead : Text := "N"

/-- The open segment, if it has characters, before the other ones. -/
def flush (segment : Text) (rest : List Text) : List Text :=
  if segment.isEmpty then rest else segment.reverse :: rest

def segmentsFrom (segment : Text) : Text → List Text
  | [] => flush segment []
  | c :: rest =>
    if Text.isAlphanumeric c then segmentsFrom (c :: segment) rest
    else flush segment (segmentsFrom [] rest)

def segments (text : Text) : List Text := segmentsFrom [] text

/-- A segment with its first character in uppercase. A segment of two or more characters that is all
uppercase keeps only that one. -/
def capitalize (segment : Text) : Text :=
  let segment := if 1 < segment.length && Text.isAllUpper segment then Text.lower segment else segment
  match segment with
  | [] => []
  | c :: rest => Text.upperOf c ++ rest

def normalize (text : Text) : Text :=
  match (segments text).flatMap capitalize with
  | [] => emptyIdentifier
  | c :: rest => if Text.isLetter c then c :: rest else digitLead ++ c :: rest

private def isSmall (c : CodePoint) : Bool := 0x61 ≤ c && c ≤ 0x7A

private def isCapital (c : CodePoint) : Bool := 0x41 ≤ c && c ≤ 0x5A

private def isDigit (c : CodePoint) : Bool := 0x30 ≤ c && c ≤ 0x39

/-- Whether a word begins at `c`, after `previous` and before `rest`: at a capital after a small letter
or a digit, and at the last capital of several when a small letter follows. -/
def isWordStart (previous c : CodePoint) (rest : Text) : Bool :=
  isCapital c && (isSmall previous || isDigit previous ||
    (isCapital previous && match rest with
      | [] => false
      | next :: _ => isSmall next))

/-- A text behind a character, with an underscore before every word that begins in it. -/
def separateFrom (previous : CodePoint) : Text → Text
  | [] => []
  | c :: rest =>
    (if isWordStart previous c rest then [0x5F, c] else [c]) ++ separateFrom c rest

/-- The name with an underscore before every word but the first. -/
def separateWords : Text → Text
  | [] => []
  | c :: rest => c :: separateFrom c rest

def snakeCase (name : Text) : Text :=
  let snake := Text.lower (separateWords (normalize name))
  if isKeyword snake then snake ++ "_" else snake

def singularize (name : Text) : Text :=
  let lowered := Text.lower name
  if lowered.endsWith "ies" && 3 < name.length then name.take (name.length - 3) ++ "y"
  else if lowered.endsWith "sses" then name.take (name.length - 2)
  else if lowered.endsWith "s" && !lowered.endsWith "ss" && !lowered.endsWith "us" &&
      !lowered.endsWith "is" && 1 < name.length then
    name.take (name.length - 1)
  else name

end Specimen.Naming
