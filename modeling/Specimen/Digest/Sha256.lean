import Specimen.Text.Basic

/-!
The SHA-256 digest of a byte sequence, as a text of 64 hexadecimal digits.
-/
namespace Specimen.Sha256

def initialState : List UInt32 :=
  [0x6a09e667, 0xbb67ae85, 0x3c6ef372, 0xa54ff53a, 0x510e527f, 0x9b05688c, 0x1f83d9ab, 0x5be0cd19]

def roundConstants : List UInt32 :=
  [0x428a2f98, 0x71374491, 0xb5c0fbcf, 0xe9b5dba5, 0x3956c25b, 0x59f111f1, 0x923f82a4, 0xab1c5ed5,
   0xd807aa98, 0x12835b01, 0x243185be, 0x550c7dc3, 0x72be5d74, 0x80deb1fe, 0x9bdc06a7, 0xc19bf174,
   0xe49b69c1, 0xefbe4786, 0x0fc19dc6, 0x240ca1cc, 0x2de92c6f, 0x4a7484aa, 0x5cb0a9dc, 0x76f988da,
   0x983e5152, 0xa831c66d, 0xb00327c8, 0xbf597fc7, 0xc6e00bf3, 0xd5a79147, 0x06ca6351, 0x14292967,
   0x27b70a85, 0x2e1b2138, 0x4d2c6dfc, 0x53380d13, 0x650a7354, 0x766a0abb, 0x81c2c92e, 0x92722c85,
   0xa2bfe8a1, 0xa81a664b, 0xc24b8b70, 0xc76c51a3, 0xd192e819, 0xd6990624, 0xf40e3585, 0x106aa070,
   0x19a4c116, 0x1e376c08, 0x2748774c, 0x34b0bcb5, 0x391c0cb3, 0x4ed8aa4a, 0x5b9cca4f, 0x682e6ff3,
   0x748f82ee, 0x78a5636f, 0x84c87814, 0x8cc70208, 0x90befffa, 0xa4506ceb, 0xbef9a3f7, 0xc67178f2]

def rotate (word : UInt32) (places : UInt32) : UInt32 :=
  (word >>> places) ||| (word <<< (32 - places))

/-- The message with a one bit, zeros, and its length in bits, a multiple of 64 bytes long. -/
def pad (bytes : List Nat) : List Nat :=
  let bits := 8 * bytes.length
  let zeros := (119 - bytes.length % 64) % 64
  bytes ++ 0x80 :: List.replicate zeros 0 ++
    (List.range 8).map fun i => bits / Nat.pow 256 (7 - i) % 256

private def wordsOf : List Nat → List UInt32
  | a :: b :: c :: d :: rest => UInt32.ofNat (((a * 256 + b) * 256 + c) * 256 + d) :: wordsOf rest
  | _ => []

private def blocksOf : (fuel : Nat) → List UInt32 → List (List UInt32)
  | 0, _ => []
  | fuel + 1, words =>
    if words.isEmpty then [] else words.take 16 :: blocksOf fuel (words.drop 16)

private def scheduleStep (words : Array UInt32) : Array UInt32 :=
  let at' (back : Nat) : UInt32 := words.getD (words.size - back) 0
  let early := at' 15
  let late := at' 2
  let small := rotate early 7 ^^^ rotate early 18 ^^^ (early >>> 3)
  let large := rotate late 17 ^^^ rotate late 19 ^^^ (late >>> 10)
  words.push (at' 16 + small + at' 7 + large)

def schedule (block : List UInt32) : List UInt32 :=
  ((List.range 48).foldl (fun words _ => scheduleStep words) block.toArray).toList

def round (state : List UInt32) (constant word : UInt32) : List UInt32 :=
  match state with
  | [a, b, c, d, e, f, g, h] =>
    let large := rotate e 6 ^^^ rotate e 11 ^^^ rotate e 25
    let choice := (e &&& f) ^^^ ((~~~e) &&& g)
    let first := h + large + choice + constant + word
    let small := rotate a 2 ^^^ rotate a 13 ^^^ rotate a 22
    let majority := (a &&& b) ^^^ (a &&& c) ^^^ (b &&& c)
    [first + small + majority, a, b, c, d + first, e, f, g]
  | _ => state

def compress (state : List UInt32) (block : List UInt32) : List UInt32 :=
  let final := (roundConstants.zip (schedule block)).foldl (fun s (k, w) => round s k w) state
  state.zipWith (· + ·) final

def digestWords (bytes : List Nat) : List UInt32 :=
  let words := wordsOf (pad bytes)
  (blocksOf words.length words).foldl compress initialState

def hexDigits (word : UInt32) : Text :=
  let digits := (Nat.toDigits 16 word.toNat).map Char.toNat
  List.replicate (8 - digits.length) 0x30 ++ digits

def digest (bytes : List Nat) : Text := (digestWords bytes).flatMap hexDigits

end Specimen.Sha256
