import Specimen.Json.Value

/-!
The tokens of JSON text with their positions. Where no token begins, a single broken token stands for
the rest of the text; whether it matters depends on what is expected there.
-/
namespace Specimen.Json

/-- What is wrong at a place of a JSON text. -/
inductive Fault where
  | expectingValue
  | expectingName
  | expectingColon
  | expectingComma
  | extraData
  | unterminatedString
  | controlCharacter
  | invalidEscape
  | invalidUnicodeEscape
  | byteOrderMark
  deriving DecidableEq, Repr

def Fault.message : Fault → Text
  | .expectingValue => "Expecting value"
  | .expectingName => "Expecting property name enclosed in double quotes"
  | .expectingColon => "Expecting ':' delimiter"
  | .expectingComma => "Expecting ',' delimiter"
  | .extraData => "Extra data"
  | .unterminatedString => "Unterminated string starting at"
  | .controlCharacter => "Invalid control character at"
  | .invalidEscape => "Invalid \\escape"
  | .invalidUnicodeEscape => "Invalid \\uXXXX escape"
  | .byteOrderMark => "Unexpected UTF-8 BOM (decode using utf-8-sig)"

inductive Token where
  | openArray
  | closeArray
  | openObject
  | closeObject
  | comma
  | colon
  | null
  | bool (value : Bool)
  /-- A number literal; `plain` when it has neither fraction nor exponent and is no constant. -/
  | number (literal : Text) (plain : Bool)
  | string (value : Text)
  /-- A string that breaks off at a position. -/
  | brokenString (fault : Fault) (position : Nat)
  /-- A character that begins no token. -/
  | unknown
  deriving DecidableEq, Repr

/-- A token and the position of its first character. -/
structure Located where
  token : Token
  position : Nat
  deriving DecidableEq, Repr

namespace Token

def isSpace (c : CodePoint) : Bool := c = 0x20 || c = 0x09 || c = 0x0A || c = 0x0D

def hexDigit? (c : CodePoint) : Option Nat :=
  if 0x30 ≤ c && c ≤ 0x39 then some (c - 0x30)
  else if 0x41 ≤ c && c ≤ 0x46 then some (c - 0x37)
  else if 0x61 ≤ c && c ≤ 0x66 then some (c - 0x57)
  else none

/-- The value of the first four characters as hexadecimal digits. -/
def hex4? : Text → Option Nat
  | a :: b :: c :: d :: _ => do
    return (((← hexDigit? a) * 16 + (← hexDigit? b)) * 16 + (← hexDigit? c)) * 16 + (← hexDigit? d)
  | _ => none

def simpleEscape? (c : CodePoint) : Option CodePoint :=
  if c = 0x22 || c = 0x5C || c = 0x2F then some c
  else if c = 'b' then some 0x08
  else if c = 'f' then some 0x0C
  else if c = 'n' then some 0x0A
  else if c = 'r' then some 0x0D
  else if c = 't' then some 0x09
  else none

/-- The escape after a backslash and the letter of a code unit: the code point and the number of
characters read, a second escape included when both make a surrogate pair. A code unit has to be
followed by another character. On a fault, the offset of the letter that the fault is reported at. -/
def unicodeEscape (text : Text) : Except Nat (CodePoint × Nat) :=
  if (text.drop 4).isEmpty then .error 0
  else match hex4? text with
    | none => .error 0
    | some unit =>
      let after := text.drop 4
      let paired := 0xD800 ≤ unit && unit ≤ 0xDBFF && !(after.drop 6).isEmpty &&
        after.take 2 = ("\\u" : Text)
      if !paired then .ok (unit, 4)
      else match hex4? (after.drop 2) with
        | none => .error 6
        | some low =>
          if 0xDC00 ≤ low && low ≤ 0xDFFF then
            .ok (0x10000 + (unit - 0xD800) * 0x400 + (low - 0xDC00), 10)
          else .ok (unit, 4)

/-- What a string literal holds, and the number of characters after its opening quote that it takes;
or the fault and its position. `start` is the position of the opening quote. -/
def scanString (start : Nat) : (position skip : Nat) → Text → Except (Fault × Nat) (Text × Nat)
  | _, _, [] => .error (.unterminatedString, start)
  | position, skip + 1, _ :: rest => scanString start (position + 1) skip rest
  | position, 0, c :: rest =>
    if c = 0x22 then .ok ([], position + 1)
    else if c = 0x5C then
      match rest with
      | [] => .error (.unterminatedString, start)
      | letter :: after =>
        if letter = 'u' then
          match unicodeEscape after with
          | .error offset => .error (.invalidUnicodeEscape, position + 1 + offset)
          | .ok (point, width) =>
            (scanString start (position + 1) (width + 1) rest).map fun (value, stop) =>
              (point :: value, stop)
        else match simpleEscape? letter with
          | none => .error (.invalidEscape, position)
          | some point =>
            (scanString start (position + 1) 1 rest).map fun (value, stop) => (point :: value, stop)
    else if c ≤ 0x1F then .error (.controlCharacter, position)
    else (scanString start (position + 1) 0 rest).map fun (value, stop) => (c :: value, stop)

def spanDigits (text : Text) : Text × Text :=
  (text.takeWhile Numeral.isDigit, text.dropWhile Numeral.isDigit)

def fraction : Text → Text
  | c :: rest =>
    let digits := (spanDigits rest).1
    if c = '.' && !digits.isEmpty then c :: digits else []
  | [] => []

/-- An exponent at the start of a text: its letter, perhaps a sign, and at least one digit. -/
def exponent : Text → Text
  | c :: rest =>
    if c = 'e' || c = 'E' then
      let (sign, after) := match rest with
        | s :: more => if s = '-' || s = '+' then ([s], more) else ([], rest)
        | [] => ([], [])
      let digits := (spanDigits after).1
      if digits.isEmpty then [] else c :: sign ++ digits
    else []
  | [] => []

/-- The whole digits at the start of a text: a zero, or digits that do not begin with one. -/
def whole : Text → Text
  | c :: rest =>
    if c = 0x30 then [c] else if Numeral.isDigit c then c :: (spanDigits rest).1 else []
  | [] => []

def number? (text : Text) : Option (Text × Bool) :=
  let (sign, unsigned) := match text with
    | c :: rest => if c = '-' then ([c], rest) else ([], text)
    | [] => ([], [])
  let digits := whole unsigned
  if digits.isEmpty then none
  else
    let after := unsigned.drop digits.length
    let part := fraction after
    let power := exponent (after.drop part.length)
    some (sign ++ digits ++ part ++ power, part.isEmpty && power.isEmpty)

def words : List (Text × Token) :=
  [("null", .null), ("true", .bool true), ("false", .bool false), ("NaN", .number "NaN" false),
   ("Infinity", .number "Infinity" false), ("-Infinity", .number "-Infinity" false)]

def punctuation? (c : CodePoint) : Option Token :=
  if c = '[' then some .openArray
  else if c = ']' then some .closeArray
  else if c = 0x7B then some .openObject
  else if c = 0x7D then some .closeObject
  else if c = ',' then some .comma
  else if c = ':' then some .colon
  else none

/-- The token that begins a text, and how many characters it takes. -/
def first (position : Nat) (c : CodePoint) (rest : Text) : Token × Nat :=
  match punctuation? c with
  | some token => (token, 1)
  | none =>
    if c = 0x22 then
      match scanString position (position + 1) 0 rest with
      | .ok (value, stop) => (.string value, stop - position)
      | .error (fault, at') => (.brokenString fault at', 1)
    else match words.find? fun (word, _) => word.isPrefixOf (c :: rest) with
      | some (word, token) => (token, word.length)
      | none => match number? (c :: rest) with
        | some (literal, plain) => (.number literal plain, literal.length)
        | none => (.unknown, 1)

def isBroken : Token → Bool
  | .brokenString .. | .unknown => true
  | _ => false

/-- The tokens of a text from a position on, after skipping some characters. -/
def scanFrom : (position skip : Nat) → Text → List Located
  | _, _, [] => []
  | position, skip + 1, _ :: rest => scanFrom (position + 1) skip rest
  | position, 0, c :: rest =>
    if isSpace c then scanFrom (position + 1) 0 rest
    else
      let (token, width) := first position c rest
      if isBroken token then [⟨token, position⟩]
      else ⟨token, position⟩ :: scanFrom (position + 1) (width - 1) rest

def scan (text : Text) : List Located := scanFrom 0 0 text

end Token

end Specimen.Json
