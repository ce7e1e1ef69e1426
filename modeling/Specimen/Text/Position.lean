import Specimen.Text.Basic

/-!
Line and column of a position. Only LF ends a line, and both counts start at one.
-/
namespace Specimen.Text

def lineColumn (text : Text) (position : Nat) : Nat × Nat :=
  let before := text.take position
  (before.count 0x0A + 1, (before.reverse.takeWhile (· ≠ 0x0A)).length + 1)

end Specimen.Text
