import Specimen.Number.Binary64
import Specimen.Text.Blank
import Specimen.Text.Numeral

/-!
Reading numerals. White space may surround one, a sign may lead, single underscores may stand between
digits, and the digits may be of any script.
-/
namespace Specimen.Numeral

def digitLimit : Nat := 4300

def isDigit (c : CodePoint) : Bool := 0x30 ≤ c && c ≤ 0x39

def isAsciiBlank (c : CodePoint) : Bool := c = 0x20 || (0x09 ≤ c && c ≤ 0x0D)

/-- Digits and white space of every script in their ASCII forms; what has none becomes a question
mark, which no numeral contains. -/
def toAscii (text : Text) : Text :=
  text.map fun c =>
    if c < 0x7F then c
    else if Text.isBlank c then 0x20
    else match Text.decimalDigit? c with
      | some digit => 0x30 + digit
      | none => 0x3F

/-- The text without white space at either end. -/
def stripAsciiBlank (text : Text) : Text :=
  ((text.dropWhile isAsciiBlank).reverse.dropWhile isAsciiBlank).reverse

/-- The numeral without its underscores, if each of them stands between two digits. -/
def withoutUnderscores (numeral : Text) : Option Text :=
  let rec go (previous : CodePoint) : Text → Option Text
    | [] => if previous = 0x5F then none else some []
    | c :: rest =>
      if c = 0x5F then if isDigit previous then go c rest else none
      else if previous = 0x5F && !isDigit c then none
      else (go c rest).map (c :: ·)
  go 0 numeral

def takeSign : Text → Bool × Text
  | [] => (false, [])
  | c :: rest => if c = 0x2D then (true, rest) else if c = 0x2B then (false, rest) else (false, c :: rest)

def digitsValue (digits : Text) : Nat := digits.foldl (fun value c => value * 10 + (c - 0x30)) 0

inductive IntegerFault where
  | malformed
  | tooLong (digits : Nat)
  deriving DecidableEq, Repr

def readInteger (text : Text) : Except IntegerFault Int :=
  match withoutUnderscores (stripAsciiBlank (toAscii text)) with
  | none => .error .malformed
  | some numeral =>
    let (negative, digits) := takeSign numeral
    if digits.isEmpty || !digits.all isDigit then .error .malformed
    else if digitLimit < digits.length then .error (.tooLong digits.length)
    else .ok (if negative then -(digitsValue digits : Nat) else (digitsValue digits : Nat))

def asciiLower (c : CodePoint) : CodePoint := if 0x41 ≤ c && c ≤ 0x5A then c + 0x20 else c

/-- The value of an exponent with its letter; zero where there is none. -/
def readExponent : Text → Option Int
  | [] => some 0
  | c :: rest =>
    if asciiLower c ≠ 0x65 then none
    else
      let (negative, digits) := takeSign rest
      if digits.isEmpty || !digits.all isDigit then none
      else some (if negative then -(digitsValue digits : Nat) else (digitsValue digits : Nat))

/-- The floating-point number nearest to an unsigned decimal with optional fraction and exponent. -/
def readDecimal (negative : Bool) (numeral : Text) : Option Binary64 :=
  let whole := numeral.takeWhile isDigit
  let rest := numeral.dropWhile isDigit
  let (fraction, rest) := match rest with
    | [] => ([], [])
    | c :: after => if c = 0x2E then (after.takeWhile isDigit, after.dropWhile isDigit) else ([], c :: after)
  if whole.isEmpty && fraction.isEmpty then none
  else (readExponent rest).map fun exponent =>
    .ofDecimal negative (digitsValue (whole ++ fraction)) (exponent - fraction.length)

/-- The floating-point number that a text denotes; infinities and the absence of a number have
names, in any case. -/
def readFloat (text : Text) : Option Binary64 :=
  match withoutUnderscores (stripAsciiBlank (toAscii text)) with
  | none => none
  | some numeral =>
    let (negative, rest) := takeSign numeral
    let name := rest.map asciiLower
    if name = ("inf" : Text) || name = ("infinity" : Text) then some (.infinite negative)
    else if name = ("nan" : Text) then some .nan
    else readDecimal negative rest

end Specimen.Numeral
