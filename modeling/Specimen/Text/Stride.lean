/-!
Evenly spaced runs of code points, and tables of them in ascending order of their first members.
-/
namespace Specimen

/-- The code points `first`, `first + step`, …, up to `last`. -/
structure Stride where
  first : Nat
  last : Nat
  step : Nat
  deriving DecidableEq, Repr

namespace Stride

def contains (run : Stride) (c : Nat) : Bool :=
  run.first ≤ c && c ≤ run.last && (c - run.first) % run.step == 0

def tableContains : List Stride → Nat → Bool
  | [], _ => false
  | run :: rest, c => if c < run.first then false else run.contains c || tableContains rest c

end Stride

/-- A run whose members all move by the same distance. -/
structure ShiftRun where
  run : Stride
  offset : Int
  deriving DecidableEq, Repr

namespace ShiftRun

/-- The code point moved by the run that holds it, or the code point itself. -/
def apply : List ShiftRun → Nat → Nat
  | [], c => c
  | shift :: rest, c =>
    if c < shift.run.first then c
    else if shift.run.contains c then (c + shift.offset).toNat
    else apply rest c

end ShiftRun

end Specimen
