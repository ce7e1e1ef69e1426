import Specimen.Text.Stride
import Specimen.Text.Basic

/-!
White space at the ends of a text.
-/
namespace Specimen.Text

/-- The white space characters, separators of files, groups, records and units included. -/
def blankTable : List Stride :=
  [⟨0x9, 0xD, 1⟩, ⟨0x1C, 0x20, 1⟩, ⟨0x85, 0x85, 1⟩, ⟨0xA0, 0xA0, 1⟩, ⟨0x1680, 0x1680, 1⟩,
   ⟨0x2000, 0x200A, 1⟩, ⟨0x2028, 0x2029, 1⟩, ⟨0x202F, 0x202F, 1⟩, ⟨0x205F, 0x205F, 1⟩,
   ⟨0x3000, 0x3000, 1⟩]

def isBlank (c : Nat) : Bool := Stride.tableContains blankTable c

def trim (text : Text) : Text :=
  ((text.dropWhile isBlank).reverse.dropWhile isBlank).reverse

end Specimen.Text
