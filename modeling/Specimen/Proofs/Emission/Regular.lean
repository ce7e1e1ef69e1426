import Specimen.Emission.Csharp
import Specimen.Proofs.Emission.Quoting

/-! Regular string literals of C#. A backslash before a quote or a backslash is all that keys are written with, so
a key is read back where it has no character that ends a line. -/
namespace Specimen.Emission
open Json.Token (hexDigit?)

/-- The characters that end a line. -/
def lineEnds : List CodePoint := [0x0A, 0x0D, 0x85, 0x2028, 0x2029]

/-- Whether a character ends a line. -/
def endsLine (c : CodePoint) : Bool := lineEnds.contains c

/-- The characters that one behind a backslash stands for. -/
def simpleEscapes : List (CodePoint × CodePoint) :=
  [(0x22, 0x22), (0x27, 0x27), (0x5C, 0x5C), ('0', 0x00), ('a', 0x07), ('b', 0x08), ('t', 0x09), ('n', 0x0A),
    ('v', 0x0B), ('f', 0x0C), ('r', 0x0D)]

/-- The character that a backslash before a text stands for, and the number of characters that it takes of the text.
Of hexadecimal digits behind an x, up to four belong to it. -/
def regularEscape? : Text → Option (CodePoint × Nat)
  | [] => none
  | letter :: rest =>
    match simpleEscapes.find? (·.1 = letter) with
    | some (_, point) => some (point, 1)
    | none =>
      if letter = 'x' then
        let digits := (rest.take 4).takeWhile fun c => (hexDigit? c).isSome
        if digits.isEmpty then none
        else (hexadecimal? digits.length rest).map fun point => (point, digits.length + 1)
      else if letter = 'u' then (hexadecimal? 4 rest).map fun point => (point, 5)
      else if letter = 'U' then
        (hexadecimal? 8 rest).bind fun point => if point < 0x110000 then some (point, 9) else none
      else none

/-- What a regular literal holds, read behind its opening quote and after skipping some characters, and the text
behind its closing quote. -/
def readRegular : (skip : Nat) → Text → Option (Text × Text)
  | _, [] => none
  | skip + 1, _ :: rest => readRegular skip rest
  | 0, c :: rest =>
    if c = 0x22 then some ([], rest)
    else if endsLine c then none
    else if c = 0x5C then do
      let (point, width) ← regularEscape? rest
      let (more, after) ← readRegular width rest
      return (point :: more, after)
    else do
      let (more, after) ← readRegular 0 rest
      return (c :: more, after)

/-- A key is read from its escaped form as itself, up to what stands behind that. -/
theorem readRegular_csharpEscaped {key : Text} (plain : ∀ c ∈ key, endsLine c = false) (rest : Text) :
    readRegular 0 (csharpEscaped key ++ rest) = (readRegular 0 rest).map fun read => (key ++ read.1, read.2) := by
  have step (c : CodePoint) (hc : endsLine c = false) (rest : Text) : readRegular 0 (csharpEscaped [c] ++ rest) =
      (readRegular 0 rest).map fun read => (c :: read.1, read.2) := by
    by_cases special : c = 0x22 ∨ c = 0x5C
    · rcases special with rfl | rfl <;>
        simp [csharpEscaped, readRegular, regularEscape?, simpleEscapes, endsLine, lineEnds, Option.map_eq_bind]
    · obtain ⟨quote, slash⟩ := not_or.mp special
      simp [csharpEscaped, readRegular, hc, quote, slash, Option.map_eq_bind]
  induction key with
  | nil => simp [csharpEscaped]
  | cons c key ih =>
    obtain ⟨first, others⟩ := List.forall_mem_cons.mp plain
    have split : csharpEscaped (c :: key) = csharpEscaped [c] ++ csharpEscaped key := by simp [csharpEscaped]
    rw [split, List.append_assoc, step c first, ih others, Option.map_map]
    rfl

end Specimen.Emission
