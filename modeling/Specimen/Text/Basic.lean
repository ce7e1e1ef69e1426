/-!
Text as a sequence of code points. Surrogates are ordinary elements here, because a JSON escape may
leave one on its own; only encoding a text as UTF-8 refuses them.
-/
namespace Specimen

/-- A code point by its number. Numbers from 0x110000 on name nothing: no table holds them. -/
abbrev CodePoint := Nat

/-- A sequence of code points; positions and columns count its elements. -/
abbrev Text := List CodePoint

instance : Coe Char CodePoint := ⟨Char.toNat⟩

namespace Text

def ofString (s : String) : Text := s.toList.map Char.toNat

instance : Coe String Text := ⟨ofString⟩

def ofNat (n : Nat) : Text := (Nat.toDigits 10 n).map Char.toNat

/-- Decimal digits after a minus sign where the number is negative. -/
def ofInt : Int → Text
  | .ofNat n => ofNat n
  | .negSucc n => "-" ++ ofNat (n + 1)

def words (text : Text) : List Text := (text.splitOn 0x20).filter (!·.isEmpty)

def startsWith (text start : Text) : Bool := start.isPrefixOf text

def endsWith (text ending : Text) : Bool := ending.isSuffixOf text

private def deleteFrom (word : Text) : Nat → Text → Text
  | _, [] => []
  | skip + 1, _ :: rest => deleteFrom word skip rest
  | 0, c :: rest =>
    if !word.isEmpty && word.isPrefixOf (c :: rest) then deleteFrom word (word.length - 1) rest
    else c :: deleteFrom word 0 rest

/-- The text without the occurrences of a word, found from the left and not overlapping. -/
def deleteAll (word text : Text) : Text := deleteFrom word 0 text

/-- A text of one line end per line: every CR LF pair and every lone CR is written as LF. -/
def universalNewlines : Text → Text
  | [] => []
  | [c] => if c = 0x0D then [0x0A] else [c]
  | c :: d :: rest =>
    if c = 0x0D then
      if d = 0x0A then universalNewlines (d :: rest) else 0x0A :: universalNewlines (d :: rest)
    else c :: universalNewlines (d :: rest)

def precedes : Text → Text → Bool
  | _, [] => false
  | [], _ :: _ => true
  | a :: s, b :: t => a < b || (a = b && precedes s t)

end Text

end Specimen
