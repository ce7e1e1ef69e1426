import Specimen.Emission.Dataclass
import Specimen.Proofs.Json.Scanning

/-! String literals of emitted source. They are written with the escapes of JSON and read with those of the source,
which are more; what is read is what was written. -/
namespace Specimen.Emission
open Json (escaped stringLiteral)
open Json.Token (hexDigit?)

/-- The value of the first characters of a text as hexadecimal digits. -/
def hexadecimal? (width : Nat) (text : Text) : Option Nat :=
  if text.length < width then none
  else (text.take width).foldlM (fun value c => (hexDigit? c).map (16 * value + ·)) 0

/-- A digit of an octal escape. -/
def isOctal (c : CodePoint) : Bool := 0x30 ≤ c && c ≤ 0x37

/-- The control characters that one letter stands for behind a backslash. -/
def controlLetters : List (CodePoint × CodePoint) :=
  [('a', 0x07), ('b', 0x08), ('t', 0x09), ('n', 0x0A), ('v', 0x0B), ('f', 0x0C), ('r', 0x0D)]

/-- What a backslash before a text stands for, and the number of characters that it takes of the text. A line end
is left out, and a letter without a meaning keeps its backslash. Characters by their names are not read. -/
def escape? : Text → Option (Text × Nat)
  | [] => none
  | letter :: rest =>
    if letter = 0x0A then some ([], 1)
    else if letter = 0x5C || letter = 0x22 || letter = 0x27 then some ([letter], 1)
    else if isOctal letter then
      let digits := ((letter :: rest).take 3).takeWhile isOctal
      some ([digits.foldl (fun value c => 8 * value + (c - 0x30)) 0], digits.length)
    else if letter = 'x' then (hexadecimal? 2 rest).map fun point => ([point], 3)
    else if letter = 'u' then (hexadecimal? 4 rest).map fun point => ([point], 5)
    else if letter = 'U' then
      (hexadecimal? 8 rest).bind fun point => if point < 0x110000 then some ([point], 9) else none
    else if letter = 'N' then none
    else match controlLetters.find? (·.1 = letter) with
      | some (_, point) => some ([point], 1)
      | none => some ([0x5C, letter], 1)

/-- What a string literal holds, read behind its opening quote and after skipping some characters, and the text
behind its closing quote. A literal ends on its line. -/
def readString : (skip : Nat) → Text → Option (Text × Text)
  | _, [] => none
  | skip + 1, _ :: rest => readString skip rest
  | 0, c :: rest =>
    if c = 0x22 then some ([], rest)
    else if c = 0x0A || c = 0x0D then none
    else if c = 0x5C then do
      let (value, width) ← escape? rest
      let (more, after) ← readString width rest
      return (value ++ more, after)
    else do
      let (more, after) ← readString 0 rest
      return (c :: more, after)

section Reading
variable {c : CodePoint} {value rest more after : Text}

private theorem readString_skip (text rest : Text) : readString text.length (text ++ rest) = readString 0 rest := by
  induction text with
  | nil => rfl
  | cons c text ih => exact ih

/-- An escape that takes a whole text is read as what it stands for. -/
private theorem readString_escape {text : Text} (h : escape? (text ++ rest) = some (value, text.length))
    (hrest : readString 0 rest = some (more, after)) :
    readString 0 (0x5C :: (text ++ rest)) = some (value ++ more, after) := by
  rw [readString, if_neg (by decide), if_neg (by decide), if_pos rfl, h]
  simp [readString_skip, hrest]

private theorem readString_plain (quote : c ≠ 0x22) (slash : c ≠ 0x5C) (feed : c ≠ 0x0A) (turn : c ≠ 0x0D)
    (hrest : readString 0 rest = some (more, after)) : readString 0 (c :: rest) = some (c :: more, after) := by
  rw [readString, if_neg quote, if_neg (by simp [feed, turn]), if_neg slash, hrest]
  rfl

private theorem hexadecimal?_hexadecimal (h : c < 0x20) (rest : Text) :
    hexadecimal? 4 (Text.hexadecimal 4 c ++ rest) = some c := by
  have read : ∀ c < 0x20, hexadecimal? 4 (Text.hexadecimal 4 c) = some c := by decide
  have length := (Json.Token.hex4?_hexadecimal h).1
  have taken : (Text.hexadecimal 4 c ++ rest).take 4 = (Text.hexadecimal 4 c).take 4 := by
    rw [List.take_append_of_le_length length.ge]
  rw [hexadecimal?, taken, ← read c h, hexadecimal?]
  simp [length]

/-- A character is read back from its escaped form. -/
private theorem readString_escaped (c : CodePoint) (hrest : readString 0 rest = some (more, after)) :
    readString 0 (escaped c ++ rest) = some (c :: more, after) := by
  have single (letter : CodePoint) (h : escape? (letter :: rest) = some ([c], 1)) :
      readString 0 (0x5C :: letter :: rest) = some (c :: more, after) :=
    readString_escape (show escape? ([letter] ++ rest) = _ from h) hrest
  rw [escaped]
  repeat' split
  · rename_i h
    rcases (by simpa using h : c = 0x22 ∨ c = 0x5C) with rfl | rfl <;> exact single _ rfl
  iterate 5
    · rename_i h
      subst h
      exact single _ rfl
  · rename_i low
    have unit : escape? (0x75 :: Text.hexadecimal 4 c ++ rest) =
        some ([c], (0x75 :: Text.hexadecimal 4 c).length) := by
      simp [escape?, isOctal, hexadecimal?_hexadecimal low rest, (Json.Token.hex4?_hexadecimal low).1]
    exact readString_escape unit hrest
  · rename_i special _ _ feed _ turn _
    have special : c ≠ 0x22 ∧ c ≠ 0x5C := by simpa using special
    exact readString_plain special.1 special.2 feed turn hrest

/-- A string literal is read as the text that it was written for. -/
theorem readString_stringLiteral (value rest : Text) :
    readString 0 (value.flatMap escaped ++ 0x22 :: rest) = some (value, rest) := by
  induction value with
  | nil => rfl
  | cons c more ih =>
    rw [List.flatMap_cons, List.append_assoc]
    exact readString_escaped c ih

end Reading

end Specimen.Emission
