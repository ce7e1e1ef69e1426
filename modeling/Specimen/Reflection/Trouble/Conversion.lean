import Specimen.Data.Basic

/-!
Why no object of a class can be made of a value.
-/
namespace Specimen

/-- Why a class makes no object of a value. -/
inductive ConversionFault where
  | notInteger (base : Nat) (shown : Text)
  /-- An integer numeral of more digits than are read. -/
  | longInteger (digits : Nat)
  /-- A value with an integer of more digits than are written. -/
  | unwritable
  /-- A base for what is no text. -/
  | explicitBase
  | baseRange
  | noInteger (typeName : Text)
  | nanInteger
  | infiniteInteger
  | notReal (shown : Text)
  | noReal (typeName : Text)
  /-- An integer beyond all floating-point numbers. -/
  | largeReal
  | malformedComplex
  | notComplex (shown : Text)
  | noComplex (typeName : Text)
  /-- An imaginary part beside a text. -/
  | complexText
  | imaginaryText
  | noImaginary (typeName : Text)
  /-- A text in the place of bytes to be decoded. -/
  | decodedText
  | notDecodable (typeName : Text)
  | embeddedNull
  | noBytes (typeName : Text)
  | textBytes
  /-- An encoding for what is no text. -/
  | encodedValue
  | unknownEncoding (name : Text)
  | unknownHandler (name : Text)
  /-- A run of characters that an encoding has no bytes for. -/
  | unencodable (encoding : Text) (first position run : Nat) (reason : Text)
  | negativeCount
  | largeCount
  | notAByte
  /-- A value that stands for no integer. -/
  | notAnIndex (typeName : Text)
  | notIterable (typeName : Text)
  | notReversible (typeName : Text)
  | unhashable (typeName : Text)
  /-- A part of what a function is given that has to be there. -/
  | missingArgument (function name : Text) (position : Nat)
  /-- An integer that does not fit into a machine word, whose kind has a name. -/
  | largeWord (kind : Text)
  | aboveWord
  | belowWord
  | yearRange (year : Int)
  | dayRange
  | fieldRange (field : Text) (least greatest : Int)
  | noZone (typeName : Text)
  | noDuration (component typeName : Text)
  | durationRange (days : Int)
  | notDecimal
  | noDecimal (typeName : Text)
  | decimalLength
  | decimalSign
  | decimalDigits
  | decimalExponent
  | noContext
  | notAString (shown : Text)
  /-- Something else than a text in a place that has a name. -/
  | notAText (place shown : Text)
  /-- More than the values that a text is made of. -/
  | textCount (shown : Text)
  /-- A value in the place of a format's values, with too few or too many for it. -/
  | formatCount (isShort : Bool)
  /-- An argument of another type than the expected one. -/
  | argumentType (argument expected typeName : Text)
  /-- A class whose objects are made of so many values. -/
  | valueCount (owner : Text) (expected given : Nat)
  /-- A function that takes more than one value. -/
  | functionCount (expected : Nat)
  /-- More arguments than a function takes, or than it takes by place. -/
  | argumentLimit (function : Text) (limit : Nat) (byPlace : Bool) (given : Nat)
  /-- Another number of arguments than the expected one, given in words. -/
  | argumentCount (owner expected : Text) (given : Nat)
  | mapCount
  | metaclassConflict
  /-- What a group of exceptions cannot be made of. -/
  | noSequence
  | emptySequence
  | notAnException
  /-- A member that gives way to what it was made of. -/
  | noOwnValue (typeName : Text)
  /-- An object without a value, of which the class of values makes none. -/
  | unset
  deriving DecidableEq, Repr

def ConversionFault.text : ConversionFault → Text
  | .notInteger base shown =>
    "invalid literal for int() with base " ++ Text.ofNat base ++ ": " ++ shown.take 200
  | .longInteger digits =>
    "Exceeds the limit (4300 digits) for integer string conversion: value has " ++
      Text.ofNat digits ++ " digits; use sys.set_int_max_str_digits() to increase the limit"
  | .unwritable =>
    "Exceeds the limit (4300 digits) for integer string conversion; use sys.set_int_max_str_digits() " ++
      "to increase the limit"
  | .explicitBase => "int() can't convert non-string with explicit base"
  | .baseRange => "int() base must be >= 2 and <= 36, or 0"
  | .noInteger typeName =>
    "int() argument must be a string, a bytes-like object or a real number, not '" ++ typeName ++ "'"
  | .nanInteger => "cannot convert float NaN to integer"
  | .infiniteInteger => "cannot convert float infinity to integer"
  | .notReal shown => "could not convert string to float: " ++ shown
  | .noReal typeName => "float() argument must be a string or a real number, not '" ++ typeName ++ "'"
  | .largeReal => "int too large to convert to float"
  | .malformedComplex => "complex() arg is a malformed string"
  | .notComplex shown => "could not convert string to complex: " ++ shown
  | .noComplex typeName =>
    "complex() first argument must be a string or a number, not '" ++ typeName ++ "'"
  | .complexText => "complex() can't take second arg if first is a string"
  | .imaginaryText => "complex() second arg can't be a string"
  | .noImaginary typeName => "complex() second argument must be a number, not '" ++ typeName ++ "'"
  | .decodedText => "decoding str is not supported"
  | .notDecodable typeName => "decoding to str: need a bytes-like object, " ++ typeName ++ " found"
  | .embeddedNull => "embedded null character"
  | .noBytes typeName => "cannot convert '" ++ typeName ++ "' object to bytes"
  | .textBytes => "string argument without an encoding"
  | .encodedValue => "encoding without a string argument"
  | .unknownEncoding name => "unknown encoding: " ++ name
  | .unknownHandler name => "unknown error handler name '" ++ name ++ "'"
  | .unencodable encoding first position run reason =>
    "'" ++ encoding ++ "' codec can't encode character" ++
      (if run = 1 then
        " '" ++ Text.escaped first ++ "' in position " ++ Text.ofNat position
      else "s in position " ++ Text.ofNat position ++ "-" ++ Text.ofNat (position + run - 1)) ++
      ": " ++ reason
  | .negativeCount => "negative count"
  | .largeCount => "cannot fit 'int' into an index-sized integer"
  | .notAByte => "bytes must be in range(0, 256)"
  | .notAnIndex typeName => "'" ++ typeName ++ "' object cannot be interpreted as an integer"
  | .notIterable typeName => "'" ++ typeName ++ "' object is not iterable"
  | .notReversible typeName => "'" ++ typeName ++ "' object is not reversible"
  | .unhashable typeName => "unhashable type: '" ++ typeName ++ "'"
  | .missingArgument function name position =>
    function ++ " missing required argument " ++ name.quoted ++ " (pos " ++ Text.ofNat position ++ ")"
  | .largeWord kind => "Python int too large to convert to C " ++ kind
  | .aboveWord => "signed integer is greater than maximum"
  | .belowWord => "signed integer is less than minimum"
  | .yearRange year => "year " ++ Text.ofInt year ++ " is out of range"
  | .dayRange => "day is out of range for month"
  | .fieldRange field least greatest =>
    field ++ " must be in " ++ Text.ofInt least ++ ".." ++ Text.ofInt greatest
  | .noZone typeName =>
    "tzinfo argument must be None or of a tzinfo subclass, not type '" ++ typeName ++ "'"
  | .noDuration component typeName =>
    "unsupported type for timedelta " ++ component ++ " component: " ++ typeName
  | .durationRange days =>
    "days=" ++ Text.ofInt days ++ "; must have magnitude <= 999999999"
  | .notDecimal => "[<class 'decimal.ConversionSyntax'>]"
  | .noDecimal typeName => "conversion from " ++ typeName ++ " to Decimal is not supported"
  | .decimalLength => "argument must be a sequence of length 3"
  | .decimalSign => "sign must be an integer with the value 0 or 1"
  | .decimalDigits => "coefficient must be a tuple of digits"
  | .decimalExponent => "exponent must be an integer"
  | .noContext => "optional argument must be a context"
  | .notAString shown => shown ++ " is not a string"
  | .notAText place shown => place ++ " must be a string, not " ++ shown
  | .textCount shown => "too many arguments for str(): " ++ shown
  | .formatCount isShort =>
    if isShort then "not enough arguments for format string"
    else "not all arguments converted during string formatting"
  | .argumentType argument expected typeName =>
    argument ++ " must be " ++ expected ++ ", not " ++ typeName
  | .valueCount owner expected given =>
    owner ++ ".__new__() takes exactly " ++ Text.ofNat expected ++ " arguments (" ++
      Text.ofNat given ++ " given)"
  | .functionCount expected =>
    "function takes exactly " ++ Text.ofNat expected ++ " arguments (1 given)"
  | .argumentLimit function limit byPlace given =>
    function ++ " takes at most " ++ Text.ofNat limit ++
      (if byPlace then (" positional arguments (" : Text) else " arguments (") ++ Text.ofNat given ++
      " given)"
  | .argumentCount owner expected given => owner ++ " expected " ++ expected ++ ", got " ++ Text.ofNat given
  | .mapCount => "map() must have at least two arguments."
  | .metaclassConflict =>
    "metaclass conflict: the metaclass of a derived class must be a (non-strict) subclass of the " ++
      "metaclasses of all its bases"
  | .noSequence => "second argument (exceptions) must be a sequence"
  | .emptySequence => "second argument (exceptions) must be a non-empty sequence"
  | .notAnException => "Item 0 of second argument (exceptions) is not an exception"
  | .noOwnValue typeName => "'" ++ typeName ++ "' object has no attribute '_value_'"
  | .unset => "_value_ not set in __new__, unable to create it"

end Specimen
