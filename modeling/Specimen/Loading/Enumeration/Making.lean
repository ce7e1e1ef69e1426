import Specimen.Data.Equality
import Specimen.Loading.Enumeration.Instant
import Specimen.Text.Utf8

/-!
What the class that an enumeration is built on makes of arguments. A tuple gives its items as the
arguments, any other value is the only one.
-/
namespace Specimen.Enumeration

private def digitValue? (c : CodePoint) : Option Nat :=
  let small := Numeral.asciiLower c
  if Numeral.isDigit c then some (c - 0x30)
  else if 0x61 ≤ small && small ≤ 0x7A then some (small - 0x61 + 10)
  else none

/-- The base that the letter behind a leading zero stands for. -/
private def markedBase? : Text → Option Nat
  | first :: letter :: _ =>
    if first = 0x30 then List.lookup (Numeral.asciiLower letter) [(0x78, 16), (0x6F, 8), (0x62, 2)] else none
  | _ => none

private def digitsIn (base : Nat) (digits : Text) : Option Nat :=
  let parts := digits.splitOn 0x5F
  if parts.any (·.isEmpty) then none
  else parts.flatten.foldlM (fun value c => do
    let digit ← digitValue? c
    if digit < base then return value * base + digit else none) 0

/-- The integer that a text denotes in a base. A base of zero leaves it to the numeral to tell its own,
and then a zero leads no other digits. -/
def readInBase (base : Nat) (text : Text) : Except Numeral.IntegerFault Int :=
  let (negative, unsigned) := Numeral.takeSign (Numeral.stripAsciiBlank (Numeral.toAscii text))
  let marked := (markedBase? unsigned).filter fun b => base = 0 || base = b
  let digits := match marked with
    | some _ => if unsigned[2]? = some 0x5F then unsigned.drop 3 else unsigned.drop 2
    | none => unsigned
  let actual := marked.getD (if base = 0 then 10 else base)
  let count := digits.countP (· ≠ 0x5F)
  match digitsIn actual digits with
  | none => .error .malformed
  | some value =>
    -- powers of two are read digit by digit, however many there are
    if Numeral.digitLimit < count && !([2, 4, 8, 16, 32] : List Nat).contains actual then .error (.tooLong count)
    else if base = 0 && marked.isNone && unsigned[0]? = some 0x30 && value ≠ 0 then .error .malformed
    else .ok (if negative then -value else value)

private def indexOf : Data → Except ConversionFault Int
  | .int n => .ok n
  | .bool b => .ok (countOf b)
  | value => .error (.notAnIndex value.typeName)

private def integerIn (value base : Data) : Except ConversionFault Int := do
  let base ← indexOf base
  if base ≠ 0 && (base < 2 || 36 < base) then throw .baseRange
  match value with
  | .str s => (readInBase base.toNat s).mapError fun
    | .malformed => .notInteger base.toNat s.quoted
    | .tooLong digits => .longInteger digits
  | .bytes => throw (.notInteger base.toNat value.shown)
  | _ => throw .explicitBase

private def isNumber : Data → Bool
  | .int _ | .bool _ | .float _ => true
  | _ => false

private def complexWith (real imaginary : Data) : Except ConversionFault (Binary64 × Binary64) := do
  match real, imaginary with
  | .str _, _ => throw .complexText
  | _, .str _ => throw .imaginaryText
  | _, _ =>
    if !isNumber real then throw (.noComplex real.typeName)
    if !isNumber imaginary then throw (.noImaginary imaginary.typeName)
    return (← realOf real, ← realOf imaginary)

/-- An encoding of texts: the characters that it has bytes for, and why it has none for others. -/
structure Encoding where
  names : List Text
  covers : CodePoint → Bool
  bytes : CodePoint → List Nat
  reason : Text

def Encoding.utf8 : Encoding :=
  ⟨["utf-8", "utf8", "u8", "utf"], fun c => !Text.isSurrogate c, Text.utf8Bytes, "surrogates not allowed"⟩

def encodings : List Encoding :=
  [.utf8, ⟨["ascii", "us-ascii", "646"], (· < 0x80), ([·]), "ordinal not in range(128)"⟩,
    ⟨["latin-1", "latin1", "iso-8859-1", "iso8859-1", "latin", "l1"], (· < 0x100), ([·]),
      "ordinal not in range(256)"⟩]

private def encoding? (name : Text) : Option Encoding :=
  let usual := name.map fun c => if c = 0x5F || c = 0x20 then 0x2D else Numeral.asciiLower c
  encodings.find? (·.names.contains usual)

/-- The bytes of a text, with a handler of what the encoding has no bytes for. -/
def Encoding.encode (encoding : Encoding) (handler text : Text) : Except ConversionFault (List Nat) :=
  match text.dropWhile encoding.covers with
  | [] => .ok (text.flatMap encoding.bytes)
  | first :: rest =>
    if handler = ("strict" : Text) then
      .error (.unencodable (encoding.names.headD []) first (text.takeWhile encoding.covers).length
        (1 + (rest.takeWhile (!encoding.covers ·)).length) encoding.reason)
    else if handler = ("ignore" : Text) then .ok ((text.filter encoding.covers).flatMap encoding.bytes)
    else if handler = ("replace" : Text) then
      .ok (text.flatMap fun c => if encoding.covers c then encoding.bytes c else [0x3F])
    else .error (.unknownHandler handler)

private def wrongType (argument expected : Text) (value : Data) : ConversionFault :=
  let typeName := match value with
    | .none => "None"
    | value => value.typeName
  .argumentType argument expected typeName

private def textArgument (function name : Text) : Data → Except ConversionFault Text
  | .str text => do
    let _ ← Encoding.utf8.encode "strict" text
    if text.contains 0 then throw .embeddedNull
    return text
  | value => .error (wrongType (function ++ " argument '" ++ name ++ "'") "str" value)

/-- An encoding and a handler, as the functions on texts and bytes take them after a value. -/
private def codec (function : Text) (options : List Data) : Except ConversionFault (Text × Text) := do
  if 2 < options.length then throw (.argumentLimit function 3 false (options.length + 1))
  let found ← (["encoding", "errors"].zip options).mapM fun (name, value) =>
    textArgument function (.ofString name) value
  return (found.headD [], found.getD 1 "strict")

private def reported (value : Data) : Except ConversionFault Text :=
  if value.isPrintable then .ok value.shown else .error .unwritable

def textOf : List Data → Except ConversionFault Text
  | [] => .ok []
  | [value] => if value.isPrintable then .ok value.text else .error .unwritable
  | value :: options => do
    let _ ← codec "str()" options
    match value with
    | .bytes => return []
    | .str _ => throw .decodedText
    | _ => throw (.notDecodable value.typeName)

private def isText : Data → Bool
  | .str _ => true
  | _ => false

/-- What an enumeration of texts asks of its arguments before a text is made of them. -/
def checkTexts (arguments : List Data) : Except ConversionFault Unit := do
  match arguments with
  | [] => return ()
  | [value] => if !isText value then throw (.notAString (← reported value))
  | _ :: encoding :: rest =>
    if 1 < rest.length then throw (.textCount (← reported (.tuple arguments)))
    if !isText encoding then throw (.notAText "encoding" (← reported encoding))
    match rest with
    -- the values of a format are given by a tuple after it
    | [.tuple []] => throw (.formatCount true)
    | [.tuple [value]] => throw (.notAText "errors" (← reported value))
    | [.tuple _] => throw (.formatCount false)
    | [value] => if !isText value then throw (.notAText "errors" (← reported value))
    | _ => return ()

/-- The bytes that arguments make: those of a value, or of a text in an encoding. -/
def bytesMade (function : Text) : List Data → Except ConversionFault Data
  | [] => .ok (.list [])
  | [value] => bytesOf value
  | value :: options => do
    let (name, handler) ← codec function options
    match value with
    | .str text =>
      match encoding? name with
      | some encoding =>
        let bytes ← encoding.encode handler text
        return .list (bytes.map fun (byte : Nat) => .int byte)
      | none => throw (.unknownEncoding name)
    | _ => throw .encodedValue

private def orUnset {α : Type} (result : Except ConversionFault α) : Except ConversionFault α :=
  result.mapError fun _ => .unset

/-- What one value makes, or none. Objects that begin empty are filled only after they have been made. -/
private def ofOne {α : Type} (empty : α) (one : Data → Except ConversionFault α) :
    List Data → Except ConversionFault α
  | [] => .ok empty
  | [value] => orUnset (one value)
  | _ => .error .unset

/-- The decimal number that arguments make; the second one could only be a context. -/
private def decimalMade : List Data → Except ConversionFault Data
  | [] => .ok (.int 0)
  | [value] | [value, .none] => decimalOf value
  | [_, _] => .error .noContext
  | arguments => .error (.argumentLimit "function" 2 false arguments.length)

private def defaultEntries : List Data → Except ConversionFault Data
  | [] | [.none] => .ok (.dict [])
  | [.none, value] => orUnset (dictionaryOf value)
  | _ => .error .unset

private def lastOf (limit : Data) (items : List Data) : Except ConversionFault (List Data) := do
  if limit == .none then return items
  let limit ← indexOf limit
  if limit < 0 || countLimit ≤ limit then throw .unset
  return items.drop (items.length - limit.toNat)

/-- Items, the last ones of them where there is a limit. -/
private def dequeOf : List Data → Except ConversionFault (List Data)
  | [] => .ok []
  | [value] => orUnset (elementsOf value)
  | [value, limit] => orUnset (do lastOf limit (← elementsOf value))
  | _ => .error .unset

/-- How often items occur. A dictionary says so itself. -/
private def countsOf : Data → Except ConversionFault (List (Data × Data))
  | .none => .ok []
  | .dict entries => .ok entries
  | value => do
    let items ← elementsOf value
    return (← distinctItems items).map fun item => (item, .int (items.countP item.sameKey))

private def counterOf (arguments : List Data) : Made := do
  let counts ← ofOne [] countsOf arguments
  return ⟨.data (.dict counts), some (.dict (counts.filter fun entry => !entry.2.sameKey (.int 0)))⟩

private def typeOf (c : StandardClass) : List Data → Made
  | [.str _, .tuple [], .dict _] => .ok (.unique c)
  | [.str _, .tuple _, .dict _] => .error .metaclassConflict
  | [.str _, .tuple _, table] => .error (wrongType "type.__new__() argument 3" "dict" table)
  | [.str _, bases, _] => .error (wrongType "type.__new__() argument 2" "tuple" bases)
  | [name, _, _] => .error (wrongType "type.__new__() argument 1" "str" name)
  | arguments => .error (.valueCount c.name 3 arguments.length)

private def enumerated : List Data → Except ConversionFault Unit
  | [] => .error (.missingArgument "enumerate()" "iterable" 1)
  | [value] => (elementsOf value).map fun _ => ()
  | [value, start] => do
    let _ ← indexOf start
    let _ ← elementsOf value
  | arguments => .error (.argumentLimit "enumerate()" 2 false arguments.length)

private def reversedOf : List Data → Except ConversionFault Unit
  | [.str _] | [.bytes] | [.tuple _] => .ok ()
  -- what goes through these backwards is an object of another class
  | [.list _] | [.dict _] => .error .unset
  | [value] => .error (.notReversible value.typeName)
  | arguments => .error (.argumentCount "reversed" "1 argument" arguments.length)

private def filtered : List Data → Except ConversionFault Unit
  | [_, value] => (elementsOf value).map fun _ => ()
  | arguments => .error (.argumentCount "filter" "2 arguments" arguments.length)

private def mapped : List Data → Except ConversionFault Unit
  | [] | [_] => .error .mapCount
  | _ :: values => values.forM fun value => (elementsOf value).map fun _ => ()

/-- A group of exceptions, which no plain values are. -/
private def groupOf : List Referent → Made
  | [.data (.str _), .data exceptions] =>
    match exceptions with
    | .list [] | .tuple [] | .str [] | .bytes => .error .emptySequence
    | .list _ | .tuple _ | .str _ => .error .notAnException
    | _ => .error .noSequence
  | [.data message, _] => .error (wrongType "BaseExceptionGroup.__new__() argument 1" "str" message)
  | arguments => .error (.valueCount ExceptionClass.rootGroup.text 2 arguments.length)

private def isIndex : Data → Bool
  | .int n => -countLimit ≤ n && n < countLimit
  | .bool _ => true
  | _ => false

private def tellsPlace : Referent → Bool
  | .data value =>
    match elementsOf value with
    | .ok items => items.length = 4 || items.length = 6
    | .error _ => false
  | _ => false

/-- An exception made of values. Some need certain ones; one that ends an iteration shows the first. -/
def exceptionOf (kind : ExceptionClass) (arguments : List Referent) : Made :=
  let made : Made := .ok (.unique (.exception kind))
  match kind, arguments with
  | .rootGroup, _ | .group, _ => groupOf arguments
  | .unicodeDecode, [.data (.str _), .data .bytes, .data start, .data stop, .data (.str _)]
  | .unicodeEncode, [.data (.str _), .data (.str _), .data start, .data stop, .data (.str _)]
  | .unicodeTranslate, [.data (.str _), .data start, .data stop, .data (.str _)] =>
    if isIndex start && isIndex stop then made else .error .unset
  | .unicodeDecode, _ | .unicodeEncode, _ | .unicodeTranslate, _ => .error .unset
  | .stopIteration, _ => .ok ⟨arguments.headD .none, none⟩
  | .source, [_, place] | .indentation, [_, place] | .tab, [_, place] =>
    if tellsPlace place then made else .error .unset
  | _, _ => made

/-- What a standard class makes of plain arguments. An owner is named where they are too many. -/
def make (owner : Text) (c : StandardClass) (arguments : List Data) : Made :=
  let unique (checked : Except ConversionFault Unit) : Made := checked.map fun _ => .unique c
  match c, arguments with
  | .int, [] | .bool, [] => .ok (.plain (.int 0))
  | .int, [value] | .bool, [value] => (integerOf value).map fun n => .plain (.int n)
  | .int, [value, base] => (integerIn value base).map fun n => .plain (.int n)
  | .int, _ | .bool, _ => .error (.argumentLimit "int()" 2 false arguments.length)
  | .float, [] => .ok (.plain (.float (.zero false)))
  | .float, [value] => (realOf value).map fun x => .plain (.float x)
  | .complex, [] => .ok (.made c (.tuple [.int 0, .int 0]))
  | .complex, [value] => (complexOf value).map fun (x, y) => .made c (.tuple [.float x, .float y])
  | .complex, [x, y] => (complexWith x y).map fun (x, y) => .made c (.tuple [.float x, .float y])
  | .complex, _ => .error (.argumentLimit "complex()" 2 false arguments.length)
  | .str, _ => (textOf arguments).map fun text => .plain (.str text)
  | .bytes, _ => (bytesMade "bytes()" arguments).map (.made c)
  | .bytearray, _ => (orUnset (bytesMade "bytearray()" arguments)).map (.made c)
  | .tuple, [] => .ok (.plain (.tuple []))
  | .tuple, [value] => (elementsOf value).map fun items => .plain (.tuple items)
  | .frozenset, [] => .ok (.made c (.set []))
  | .frozenset, [value] => (elementsOf value >>= distinctItems).map fun items => .made c (.set items)
  | .float, _ | .tuple, _ =>
    .error (.argumentCount c.name "at most 1 argument" arguments.length)
  | .frozenset, _ => .error (.argumentCount owner "at most 1 argument" arguments.length)
  | .list, _ => (ofOne [] elementsOf arguments).map fun items => .plain (.list items)
  | .set, _ => (ofOne [] (elementsOf · >>= distinctItems) arguments).map fun items => .plain (.set items)
  | .dict, _ | .orderedDict, _ => (ofOne (.dict []) dictionaryOf arguments).map .plain
  | .defaultdict, _ => (defaultEntries arguments).map .plain
  | .counter, _ => counterOf arguments
  | .deque, _ => (dequeOf arguments).map fun items => .made c (.list items)
  | .date, _ => (dateOf arguments).map (.made c)
  | .datetime, _ => (datetimeOf arguments).map (.made c)
  | .time, _ => (timeOf arguments).map (.made c)
  | .timedelta, _ => (durationOf arguments).map (.made c)
  | .decimal, _ => (decimalMade arguments).map (.made c)
  | .type, _ => typeOf c arguments
  | .enumerate, _ => unique (enumerated arguments)
  | .zip, _ => unique (arguments.forM fun value => (elementsOf value).map fun _ => ())
  | .reversed, _ => unique (reversedOf arguments)
  | .filter, _ => unique (filtered arguments)
  | .map, _ => unique (mapped arguments)
  | .classmethod, [_] | .staticmethod, [_] => .ok (.unique c)
  | .super, _ | .classmethod, _ | .staticmethod, _ => .error .unset
  | .property, _ => if arguments.length ≤ 4 then .ok (.unique c) else .error .unset
  | .exception kind, _ => exceptionOf kind (arguments.map .data)
  | _, _ => .ok (.unique c)

/-- What a standard class makes of a value that is not plain, given the name of its class. -/
def makeOther (c : StandardClass) (typeName shown : Text) (value : Referent) : Made :=
  match c with
  | .int | .bool => .error (.noInteger typeName)
  | .float => .error (.noReal typeName)
  | .complex => .error (.noComplex typeName)
  | .str => .ok (.plain (.str shown))
  | .bytes => .error (.noBytes typeName)
  | .tuple | .frozenset | .enumerate | .zip => .error (.notIterable typeName)
  | .date | .datetime | .time => .error (.notAnIndex typeName)
  | .timedelta => .error (.noDuration "days" typeName)
  | .decimal => .error (.noDecimal typeName)
  | .list | .set | .dict | .bytearray | .orderedDict | .deque | .counter | .super =>
    .error .unset
  | .defaultdict => .ok (.plain (.dict []))
  | .reversed => .error (.notReversible typeName)
  | .filter => .error (.argumentCount "filter" "2 arguments" 1)
  | .map => .error .mapCount
  | .exception kind => exceptionOf kind [value]
  | .type => .error (.valueCount c.name 3 1)
  | _ => .ok (.unique c)

end Specimen.Enumeration
