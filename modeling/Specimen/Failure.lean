import Specimen.Reflection.Trouble
import Specimen.Text.Quoted
import Specimen.Text.Utf8

/-!
What can go wrong. A refusal is a fatal outcome that the library words for its user; the other
failures are faults of numbers, encodings, names, files and classes that pass through it.
-/
namespace Specimen

/-- A fatal outcome with the message for the user. -/
inductive Refusal where
  /-- A malformed document, and where. -/
  | document (message : Text) (position line column : Nat)
  /-- No usable type under a name. -/
  | resolution (message : Text) (qualifiedName : Option Text)
  /-- A type reached again from itself, and the names on the way. -/
  | loop (message : Text) (path : List Text)
  /-- A type graph that breaks one of its rules. -/
  | graph (message : Text)
  deriving DecidableEq, Repr

/-- The full text of a refusal; that of a malformed document says where. -/
def Refusal.text : Refusal → Text
  | .document message position line column =>
    message ++ " at line " ++ Text.ofNat line ++ ", column " ++ Text.ofNat column ++
      " (char " ++ Text.ofNat position ++ ")"
  | .resolution message _ => message
  | .loop message _ => message
  | .graph message => message

/-- What to do about a refusal. -/
structure Advice where
  message : Text
  action : Text
  deriving DecidableEq, Repr

def Refusal.advice (refusal : Refusal) : Advice :=
  match refusal with
  | .document .. =>
    ⟨"Selected text is not valid JSON: " ++ refusal.text,
      "Select a complete JSON document and retry."⟩
  | .resolution .. =>
    ⟨"Could not resolve type: " ++ refusal.text,
      "Check the qualified type name, or build the project so the type can be loaded."⟩
  | .loop .. =>
    ⟨"Reference loop detected: " ++ refusal.text,
      "Use reference loop handling 'ignore' to project cyclic members as null."⟩
  | .graph _ => ⟨"JSON Butler failed: " ++ refusal.text, "Please check logs and retry."⟩

inductive FileFault where
  | missing
  | notDirectory
  | isDirectory
  deriving DecidableEq, Repr

def FileFault.text : FileFault → Text
  | .missing => "[Errno 2] No such file or directory"
  | .notDirectory => "[Errno 20] Not a directory"
  | .isDirectory => "[Errno 21] Is a directory"

inductive Failure where
  | refusal (refusal : Refusal)
  /-- An integer literal of more digits than are read. -/
  | longInteger (digits : Nat)
  /-- An integer of more digits than are written. -/
  | unwritableInteger
  /-- A text that is no number. -/
  | notANumber (text : Text)
  | unencodable (cause : Text.Unencodable)
  | undecodable (cause : Text.Undecodable)
  /-- A value that no JSON document is made from. -/
  | unsupportedValue (typeName : Text)
  /-- A value that no text of JSON is made from. -/
  | unserializable (typeName : Text)
  /-- A value that cannot be a key. -/
  | unhashable (typeName : Text)
  /-- A key that is not written as a member name. -/
  | unwritableName (typeName : Text)
  /-- A literal type without values. -/
  | emptyLiteral
  | file (fault : FileFault) (path : Text)
  /-- A class that cannot be reflected. -/
  | unreflected (cause : Trouble)
  /-- What a loaded module raised past all handlers. -/
  | escape (cause : Escape)
  deriving DecidableEq, Repr

private def unencodableText (cause : Text.Unencodable) : Text :=
  if cause.run = 1 then
    "'utf-8' codec can't encode character '" ++ Text.escaped cause.codePoint ++
      "' in position " ++ Text.ofNat cause.position ++ ": surrogates not allowed"
  else
    "'utf-8' codec can't encode characters in position " ++ Text.ofNat cause.position ++ "-" ++
      Text.ofNat (cause.position + cause.run - 1) ++ ": surrogates not allowed"

private def undecodableText (cause : Text.Undecodable) : Text :=
  let reason : Text := match cause.fault with
    | .invalidStart => "invalid start byte"
    | .invalidContinuation => "invalid continuation byte"
    | .unexpectedEnd => "unexpected end of data"
  if cause.width = 1 then
    "'utf-8' codec can't decode byte 0x" ++ Text.hexadecimal 2 cause.byte ++ " in position " ++
      Text.ofNat cause.start ++ ": " ++ reason
  else
    "'utf-8' codec can't decode bytes in position " ++ Text.ofNat cause.start ++ "-" ++
      Text.ofNat (cause.start + cause.width - 1) ++ ": " ++ reason

def Failure.text : Failure → Text
  | .refusal cause => cause.text
  | .longInteger digits =>
    "Exceeds the limit (4300 digits) for integer string conversion: value has " ++
      Text.ofNat digits ++ " digits; use sys.set_int_max_str_digits() to increase the limit"
  | .unwritableInteger =>
    "Exceeds the limit (4300 digits) for integer string conversion; use sys.set_int_max_str_digits() " ++
      "to increase the limit"
  | .notANumber text => "could not convert string to float: " ++ text.quoted
  | .unencodable cause => unencodableText cause
  | .undecodable cause => undecodableText cause
  | .unsupportedValue typeName => "Unsupported value type: " ++ typeName
  | .unserializable typeName => "Object of type " ++ typeName ++ " is not JSON serializable"
  | .unhashable typeName => "unhashable type: '" ++ typeName ++ "'"
  | .unwritableName typeName => "keys must be str, int, float, bool or None, not " ++ typeName
  | .emptyLiteral => "tuple index out of range"
  | .file fault path => fault.text ++ ": " ++ path.quoted
  | .unreflected cause => cause.text
  | .escape cause => cause.message

def orUnencodable {α : Type} (result : Except Text.Unencodable α) : Except Failure α :=
  result.mapError .unencodable

end Specimen
