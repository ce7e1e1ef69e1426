import Specimen.Text.Basic

/-!
UTF-8 both ways. Encoding refuses surrogates; decoding refuses what no encoding writes and says where.
-/
namespace Specimen.Text

def isSurrogate (c : CodePoint) : Bool := 0xD800 ≤ c && c ≤ 0xDFFF

/-- The first surrogate that an encoding met, the number of code points before it, and the length of
the run of surrogates it begins. -/
structure Unencodable where
  codePoint : CodePoint
  position : Nat
  run : Nat
  deriving DecidableEq, Repr

def utf8Bytes (c : CodePoint) : List Nat :=
  if c < 0x80 then [c]
  else if c < 0x800 then [0xC0 + c / 0x40, 0x80 + c % 0x40]
  else if c < 0x10000 then [0xE0 + c / 0x1000, 0x80 + c / 0x40 % 0x40, 0x80 + c % 0x40]
  else [0xF0 + c / 0x40000, 0x80 + c / 0x1000 % 0x40, 0x80 + c / 0x40 % 0x40, 0x80 + c % 0x40]

def encodeFrom (position : Nat) : Text → Except Unencodable (List Nat)
  | [] => .ok []
  | c :: rest =>
    if isSurrogate c then .error ⟨c, position, 1 + (rest.takeWhile isSurrogate).length⟩
    else (encodeFrom (position + 1) rest).map (utf8Bytes c ++ ·)

def encodeUtf8 (text : Text) : Except Unencodable (List Nat) := encodeFrom 0 text

/-- Whether the text can be encoded, and the first obstacle otherwise. -/
def checkEncodable (text : Text) : Except Unencodable Unit := (encodeUtf8 text).map fun _ => ()

/-- Why a byte sequence is not UTF-8. -/
inductive DecodeFault where
  /-- A byte that begins no character. -/
  | invalidStart
  /-- A character whose next byte does not continue it. -/
  | invalidContinuation
  /-- A character cut off by the end of the input. -/
  | unexpectedEnd
  deriving DecidableEq, Repr

/-- A decoding fault: the offset of the character, its bytes read before the fault, and the first
of them. -/
structure Undecodable where
  fault : DecodeFault
  byte : Nat
  start : Nat
  width : Nat
  deriving DecidableEq, Repr

/-- The ranges that the bytes after a first byte have to lie in. -/
def continuations (byte : Nat) : Option (List (Nat × Nat)) :=
  let tail := (0x80, 0xBF)
  if byte < 0x80 then some []
  else if 0xC2 ≤ byte && byte ≤ 0xDF then some [tail]
  else if byte = 0xE0 then some [(0xA0, 0xBF), tail]
  else if byte = 0xED then some [(0x80, 0x9F), tail]
  else if 0xE1 ≤ byte && byte ≤ 0xEF then some [tail, tail]
  else if byte = 0xF0 then some [(0x90, 0xBF), tail, tail]
  else if 0xF1 ≤ byte && byte ≤ 0xF3 then some [tail, tail, tail]
  else if byte = 0xF4 then some [(0x80, 0x8F), tail, tail]
  else none

private def leadingBits (byte : Nat) : Nat :=
  if byte < 0x80 then byte else if byte < 0xE0 then byte % 0x20
  else if byte < 0xF0 then byte % 0x10 else byte % 0x08

/-- The value of the continuation bytes, or the fault and the number of bytes that fit. -/
def readContinuations : (value fitting : Nat) → List (Nat × Nat) → List Nat →
    Except (DecodeFault × Nat) Nat
  | value, _, [], _ => .ok value
  | _, fitting, _ :: _, [] => .error (.unexpectedEnd, fitting)
  | value, fitting, (low, high) :: ranges, byte :: rest =>
    if low ≤ byte && byte ≤ high then
      readContinuations (value * 0x40 + byte % 0x40) (fitting + 1) ranges rest
    else .error (.invalidContinuation, fitting)

private def decodeFrom : (offset skip : Nat) → List Nat → Except Undecodable Text
  | _, _, [] => .ok []
  | offset, skip + 1, _ :: rest => decodeFrom (offset + 1) skip rest
  | offset, 0, byte :: rest =>
    match continuations byte with
    | none => .error ⟨.invalidStart, byte, offset, 1⟩
    | some ranges =>
      match readContinuations (leadingBits byte) 1 ranges rest with
      | .error (fault, width) => .error ⟨fault, byte, offset, width⟩
      | .ok c => (decodeFrom (offset + 1) ranges.length rest).map (c :: ·)

def decodeUtf8 (bytes : List Nat) : Except Undecodable Text := decodeFrom 0 0 bytes

end Specimen.Text
