import Specimen.Number.Binary64
import Specimen.Text.Basic

/-!
The shortest decimal that reads back as a given floating-point number, and its text: positional
between 0.0001 and 10^16, with an exponent of at least two digits elsewhere.
-/
namespace Specimen.Binary64

/-- A decimal `0.d₁d₂… * 10 ^ point`, its digits as one natural number. -/
structure Decimal where
  digits : Nat
  point : Int
  deriving DecidableEq, Repr

private def digitCount (n : Nat) : Nat := (Nat.toDigits 10 n).length

/-- The number of digits before the decimal point, negative when zeros follow the point. -/
def pointOf (significand : Nat) (exponent : Int) : Int :=
  let (n, d) := ratio significand exponent
  (digitCount (n * Nat.pow 10 400 / d) : Int) - 400

/-- The decimals of a digit count next to the number below and above, the nearer one first, and the
even one when both are equally near. -/
def neighbours (significand : Nat) (exponent : Int) (count : Nat) : List (Nat × Int) :=
  let grid := pointOf significand exponent - count
  let (n, d) := ratio significand exponent
  let (n, d) := if grid < 0 then (n * Nat.pow 10 (-grid).toNat, d) else (n, d * Nat.pow 10 grid.toNat)
  let below := n / d
  if 2 * (n % d) < d || (2 * (n % d) = d && below % 2 = 0) then
    [(below, grid), (below + 1, grid)]
  else [(below + 1, grid), (below, grid)]

/-- The first decimal that reads back as the number, from one digit on. Seventeen digits are enough. -/
def firstExact? (significand : Nat) (exponent : Int) : Option (Nat × Int) :=
  (List.range 17).findSome? fun before =>
    (neighbours significand exponent (before + 1)).find? fun (m, g) =>
      ofDecimal false m g = .finite false significand exponent

def withoutZeros : (fuel digits : Nat) → Nat
  | 0, digits => digits
  | fuel + 1, digits => if digits % 10 = 0 then withoutZeros fuel (digits / 10) else digits

/-- The decimal with the fewest digits that reads back as the number, of those the nearest, and of
two equally near ones the even one. -/
def shortest (significand : Nat) (exponent : Int) : Decimal :=
  if significand = 0 then ⟨0, 1⟩
  else
    let (digits, grid) := (firstExact? significand exponent).getD (significand, 0)
    ⟨withoutZeros 20 digits, grid + digitCount digits⟩

def zeros (n : Nat) : Text := List.replicate n 0x30

def exponentText (exponent : Int) : Text :=
  let digits := Text.ofNat exponent.natAbs
  (if exponent < 0 then ("e-" : Text) else "e+") ++ zeros (2 - digits.length) ++ digits

def Decimal.text (decimal : Decimal) : Text :=
  let digits := Text.ofNat decimal.digits
  let point := decimal.point
  if point ≤ -4 || 16 < point then
    let fraction := digits.drop 1
    digits.take 1 ++ (if fraction.isEmpty then [] else 0x2E :: fraction) ++ exponentText (point - 1)
  else if point ≤ 0 then "0." ++ zeros (-point).toNat ++ digits
  else
    let whole := point.toNat
    if digits.length ≤ whole then digits ++ zeros (whole - digits.length) ++ ".0"
    else digits.take whole ++ "." ++ digits.drop whole

def text : Binary64 → Text
  | .nan => "nan"
  | .infinite negative => if negative then "-inf" else "inf"
  | .finite negative significand exponent =>
    (if negative then ("-" : Text) else "") ++ (shortest significand exponent).text

end Specimen.Binary64
