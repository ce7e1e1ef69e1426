/-!
Floating-point numbers of 64 bits, by their exact values, and rounding of exact ratios to them.
-/
namespace Specimen

/-- A 64-bit floating-point number. A finite one has the value `significand * 2 ^ exponent`, where
the significand has 53 bits unless the exponent is the least one. -/
inductive Binary64 where
  | nan
  | infinite (negative : Bool)
  | finite (negative : Bool) (significand : Nat) (exponent : Int)
  deriving DecidableEq, Repr

namespace Binary64

def leastExponent : Int := -1074

def greatestExponent : Int := 971

def zero (negative : Bool) : Binary64 := .finite negative 0 leastExponent

def roundHalfEven (numerator denominator : Nat) : Nat :=
  let quotient := numerator / denominator
  let twice := 2 * (numerator % denominator)
  if twice < denominator then quotient
  else if denominator < twice then quotient + 1
  else quotient + quotient % 2

def scaled (numerator denominator : Nat) (exponent : Int) : Nat × Nat :=
  if exponent < 0 then (numerator * Nat.pow 2 (-exponent).toNat, denominator)
  else (numerator, denominator * Nat.pow 2 exponent.toNat)

def exponentOf (numerator denominator : Nat) : Int :=
  let guess : Int := (Nat.log2 numerator : Int) - Nat.log2 denominator - 52
  let (n, d) := scaled numerator denominator guess
  max leastExponent (if n / d < Nat.pow 2 52 then guess - 1 else guess)

/-- The number nearest to a ratio, of two the one with an even significand. -/
def ofRatio (negative : Bool) (numerator denominator : Nat) : Binary64 :=
  if numerator = 0 then zero negative
  else
    let exponent := exponentOf numerator denominator
    let (n, d) := scaled numerator denominator exponent
    let rounded := roundHalfEven n d
    let (significand, exponent) :=
      if rounded = Nat.pow 2 53 then (Nat.pow 2 52, exponent + 1) else (rounded, exponent)
    if greatestExponent < exponent then .infinite negative
    else .finite negative significand exponent

/-- The number nearest to `digits * 10 ^ exponent`. Powers beyond every finite number are decided
without being computed. -/
def ofDecimal (negative : Bool) (digits : Nat) (exponent : Int) : Binary64 :=
  let magnitude := exponent + (Nat.toDigits 10 digits).length
  if digits = 0 || magnitude < -330 then zero negative
  else if 310 < magnitude then .infinite negative
  else if exponent < 0 then ofRatio negative digits (Nat.pow 10 (-exponent).toNat)
  else ofRatio negative (digits * Nat.pow 10 exponent.toNat) 1

def ratio (significand : Nat) (exponent : Int) : Nat × Nat :=
  if exponent < 0 then (significand, Nat.pow 2 (-exponent).toNat)
  else (significand * Nat.pow 2 exponent.toNat, 1)

def toInt? : Binary64 → Option Int
  | .finite negative significand exponent =>
    let (n, d) := ratio significand exponent
    if n % d = 0 then some (if negative then -(n / d : Nat) else (n / d : Nat)) else none
  | _ => none

end Binary64

end Specimen
