import Specimen.Text.Basic

/-!
Words that generated Python source cannot use as names.
-/
namespace Specimen.Naming

def hardKeywords : List Text :=
  ["False", "None", "True", "and", "as", "assert", "async", "await", "break", "class", "continue",
   "def", "del", "elif", "else", "except", "finally", "for", "from", "global", "if", "import", "in",
   "is", "lambda", "nonlocal", "not", "or", "pass", "raise", "return", "try", "while", "with",
   "yield"].map Text.ofString

def softKeywords : List Text := ["_", "case", "match"]

def isKeyword (name : Text) : Bool := hardKeywords.contains name || softKeywords.contains name

def reservedTypeNames : List Text := ["False", "None", "True"]

end Specimen.Naming
