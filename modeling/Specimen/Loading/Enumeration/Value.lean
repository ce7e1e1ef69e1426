import Specimen.Data.Equality
import Specimen.Loading.Enumeration.Naming
import Specimen.Number.Numeral

/-!
The values of members: what they are, and how single values are converted to what the class that an
enumeration is built on holds.
-/
namespace Specimen.Enumeration

structure MemberValue where
  referent : Referent
  /-- What equal values have in common; nothing equals a value without it. -/
  key : Option Data
  deriving Repr, Inhabited

namespace MemberValue

def plain (value : Data) : MemberValue := ⟨.data value, some value⟩

def made (c : StandardClass) (key : Data) : MemberValue := ⟨.object (.standard c), some key⟩

def unique (c : StandardClass) : MemberValue := ⟨.object (.standard c), none⟩

def same (a b : MemberValue) : Bool :=
  match a.key, b.key with
  | some s, some t => s.equals t
  | _, _ => false

end MemberValue

abbrev Made := Except ConversionFault MemberValue

/-- A number cut off after its whole part. -/
def truncated : Binary64 → Except ConversionFault Int
  | .nan => .error .nanInteger
  | .infinite _ => .error .infiniteInteger
  | .finite negative significand exponent =>
    let (n, d) := Binary64.ratio significand exponent
    .ok (if negative then -(n / d : Nat) else (n / d : Nat))

def countOf (value : Bool) : Int := if value then 1 else 0

def integerOf : Data → Except ConversionFault Int
  | .int n => .ok n
  | .bool b => .ok (countOf b)
  | .float x => truncated x
  | .str s => (Numeral.readInteger s).mapError fun
    | .malformed => .notInteger 10 s.quoted
    | .tooLong digits => .longInteger digits
  | .bytes => .error (.notInteger 10 Data.bytes.shown)
  | value => .error (.noInteger value.typeName)

def nearest (n : Int) : Except ConversionFault Binary64 :=
  match Binary64.ofDecimal (n < 0) n.natAbs 0 with
  | .infinite _ => .error .largeReal
  | x => .ok x

def realOf : Data → Except ConversionFault Binary64
  | .float x => .ok x
  | .int n => nearest n
  | .bool b => nearest (countOf b)
  | .str s => (Numeral.readFloat s).elim (.error (.notReal s.quoted)) .ok
  | .bytes => .error (.notReal Data.bytes.shown)
  | value => .error (.noReal value.typeName)

private def isSign (c : CodePoint) : Bool := c = 0x2B || c = 0x2D

/-- The places of a numeral where an imaginary part may begin, from the right. -/
private def signPlaces (numeral : Text) : List Nat :=
  ((List.range numeral.length).filter fun k => 0 < k && (numeral[k]?.map isSign).getD false).reverse

private def imaginary? (numeral : Text) : Option Binary64 :=
  match numeral.reverse with
  | [] => none
  | last :: front =>
    if last ≠ 0x6A && last ≠ 0x4A then none
    else
      let digits := front.reverse
      if digits.isEmpty || digits.all isSign && digits.length = 1 then
        some (.ofDecimal (digits = ("-" : Text)) 1 0)
      else if digits.any Text.isBlank then none
      else Numeral.readFloat digits

/-- The real and the imaginary part of a numeral, which may stand in brackets. -/
def readComplex (text : Text) : Option (Binary64 × Binary64) :=
  let outer := Text.trim text
  let numeral := if outer.startsWith "(" && outer.endsWith ")" then Text.trim (outer.drop 1).dropLast
    else outer
  let real? (part : Text) := if part.any Text.isBlank then none else Numeral.readFloat part
  match real? numeral with
  | some x => some (x, .zero false)
  | none =>
    match imaginary? numeral with
    | some y => some (.zero false, y)
    | none => (signPlaces numeral).findSome? fun k => do
        return (← real? (numeral.take k), ← imaginary? (numeral.drop k))

def complexOf : Data → Except ConversionFault (Binary64 × Binary64)
  | .str s =>
    match readComplex s, Numeral.withoutUnderscores (Numeral.toAscii s) with
    | some number, _ => .ok number
    | none, some _ => .error .malformedComplex
    | none, none => .error (.notComplex s.quoted)
  | .int n => (nearest n).map (·, .zero false)
  | .bool b => (nearest (countOf b)).map (·, .zero false)
  | .float x => .ok (x, .zero false)
  | value => .error (.noComplex value.typeName)

def elementsOf : Data → Except ConversionFault (List Data)
  | .list items | .tuple items | .set items => .ok items
  | .dict entries => .ok (entries.map (·.1))
  | .str s => .ok (s.map fun c => .str [c])
  | .bytes => .ok []
  | value => .error (.notIterable value.typeName)

def distinctItems (items : List Data) : Except ConversionFault (List Data) :=
  match Data.unhashableItem? items with
  | some typeName => .error (.unhashable typeName)
  | none => .ok (items.foldl (fun kept item => if kept.any item.sameKey then kept else kept ++ [item]) [])

private def byteOf : Data → Except ConversionFault Data
  | .int n => if 0 ≤ n && n < 256 then .ok (.int n) else .error .notAByte
  | .bool b => .ok (.int (countOf b))
  | value => .error (.notAnIndex value.typeName)

def countLimit : Int := 9223372036854775808

private def zeroBytes (count : Int) : Except ConversionFault Data :=
  if countLimit ≤ count || count < -countLimit then .error .largeCount
  else if count < 0 then .error .negativeCount
  else if count < 4096 then .ok (.list (List.replicate count.toNat (.int 0)))
  else .ok (.int count)

def bytesOf : Data → Except ConversionFault Data
  | .int n => zeroBytes n
  | .bool b => zeroBytes (countOf b)
  | .str _ => .error .textBytes
  | .list items | .tuple items | .set items => (items.mapM byteOf).map .list
  | .bytes => .ok (.list [])
  | .dict entries => (entries.mapM fun entry => byteOf entry.1).map .list
  | value => .error (.noBytes value.typeName)

private def pairOf (item : Data) : Option (Data × Data) :=
  match elementsOf item with
  | .ok [key, value] => if key.isHashable then some (key, value) else none
  | _ => none

def dictionaryOf : Data → Except ConversionFault Data
  | .dict entries => .ok (.dict entries)
  | value => do
    match (← elementsOf value).mapM pairOf with
    | some pairs => return .ofEntries pairs
    | none => throw .unset

private def isDecimalName (name : Text) : Bool :=
  let isDigits (rest : Text) := rest.all Numeral.isDigit
  name = ("inf" : Text) || name = ("infinity" : Text) ||
    (name.startsWith "nan" && isDigits (name.drop 3)) ||
    (name.startsWith "snan" && isDigits (name.drop 4))

/-- Whether a text is a decimal numeral. Underscores do not count. -/
def isDecimal (text : Text) : Bool :=
  let numeral := (Numeral.toAscii (Text.trim text)).filter (· ≠ 0x5F)
  let unsigned := (Numeral.takeSign numeral).2
  let lowered := unsigned.map fun c => if 0x41 ≤ c && c ≤ 0x5A then c + 0x20 else c
  isDecimalName lowered || (Numeral.readDecimal false unsigned).isSome

private def checkDigits : Data → Except ConversionFault Unit
  | .list digits | .tuple digits =>
    if digits.all fun
      | .int n => 0 ≤ n && n < 10
      | .bool _ => true
      | _ => false then .ok () else .error .decimalDigits
  | _ => .error .decimalDigits

private def checkDecimal : List Data → Except ConversionFault Unit
  | [sign, digits, exponent] => do
    if !(sign.integer? = some 0 || sign.integer? = some 1) then throw .decimalSign
    match exponent with
    | .int _ | .bool _ => checkDigits digits
    | .str _ => checkDigits digits
    | _ => throw .decimalExponent
  | _ => .error .decimalLength

def decimalOf (value : Data) : Except ConversionFault Data := do
  match value with
  | .int _ | .bool _ | .float _ => return value
  | .str s => if isDecimal s then return .str (Text.trim s) else throw .notDecimal
  | .list items | .tuple items =>
    checkDecimal items
    return value
  | _ => throw (.noDecimal value.typeName)

end Specimen.Enumeration
