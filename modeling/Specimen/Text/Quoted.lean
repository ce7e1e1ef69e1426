import Specimen.Text.Basic
import Specimen.Text.Printable

/-!
A text quoted for a message: apostrophes around it, or double quotes when it holds an apostrophe and
no double quote; what cannot be shown is escaped.
-/
namespace Specimen.Text

/-- The lowercase hexadecimal digits of a number, with zeros before them up to a width. -/
def hexadecimal (width n : Nat) : Text :=
  let digits := (Nat.toDigits 16 n).map Char.toNat
  List.replicate (width - digits.length) 0x30 ++ digits

def escaped (c : CodePoint) : Text :=
  if c < 0x100 then "\\x" ++ hexadecimal 2 c
  else if c < 0x10000 then "\\u" ++ hexadecimal 4 c
  else "\\U" ++ hexadecimal 8 c

def quotedForm (quote c : CodePoint) : Text :=
  if c = quote || c = 0x5C then [0x5C, c]
  else if c = 0x09 then "\\t"
  else if c = 0x0A then "\\n"
  else if c = 0x0D then "\\r"
  else if isPrintable c then [c]
  else escaped c

def quoteFor (text : Text) : CodePoint :=
  if text.contains 0x27 && !text.contains 0x22 then 0x22 else 0x27

def quoted (text : Text) : Text :=
  let quote := quoteFor text
  quote :: text.flatMap (quotedForm quote) ++ [quote]

end Specimen.Text
