import Specimen.Reflection.Trouble.Base
import Specimen.Reflection.Trouble.Conversion
import Specimen.Reflection.Trouble.Enumeration
import Specimen.Source.Basic

/-!
What can go wrong when names are looked up, type expressions evaluated, classes created and modules
loaded.
-/
namespace Specimen

inductive Trouble where
  | undefined (name : Text)
  /-- A module without an attribute; `isComplete` tells whether the module was loaded to its end. -/
  | noModuleAttribute (owner name : Text) (isComplete : Bool)
  | noClassAttribute (owner name : Text)
  /-- An enumeration without an attribute. -/
  | noEnumerationAttribute (name : Text)
  | noObjectAttribute (owner name : Text)
  | noModule (name : Text)
  | notPackage (name parent : Text)
  | emptyModuleName
  | relativeModule (name : Text)
  /-- What a module raised itself. -/
  | raised (fault : LoadFault)
  | notAnException
  /-- A class whose objects are made of nothing. -/
  | noArguments (owner : Text)
  /-- A type that takes nothing in brackets. -/
  | notSubscriptable (owner : Text)
  /-- An object that holds nothing that brackets could pick out. -/
  | notIndexable (typeName : Text)
  /-- A sequence asked for something at a place that is no number. -/
  | wrongPlace (typeName place : Text)
  /-- A dictionary without an entry. -/
  | noEntry (key : Text)
  | argumentCount (owner : Text) (actual expected : Nat)
  /-- Several types where one belongs; `isRequired` tells that there has to be one. -/
  | severalTypes (owner : Text) (isRequired : Bool) (shown : Text)
  | notGeneric (owner : Text)
  /-- Other arguments than parameters and a result. -/
  | callableForm
  | parameterList (shown : Text)
  | notAnArgument (type : Text)
  | bareForm (name : Text)
  | badOperands (left right : Text)
  | base (cause : BaseFault)
  /-- Reserved places with a name that is none. -/
  | placeName
  | placeItem (typeName : Text)
  /-- A second place for attributes of any name. -/
  | placeOfDictionary
  /-- A second place for weak references. -/
  | placeOfWeakness
  | placesInSized (owner : Text)
  /-- A reserved place with the name of something in the class body. -/
  | placeTaken (name : Text)
  /-- A name of a class that is no text. -/
  | qualifiedName (typeName : Text)
  /-- A value in the place of the reference to the class itself. -/
  | classCell (typeName : Text)
  | enumeration (cause : EnumerationFault)
  /-- A value of which no object can be made. -/
  | conversion (cause : ConversionFault)
  /-- A method that takes its object only, called with more. -/
  | extraArguments (method : Text) (given : Nat)
  | notCallable (typeName : Text)
  | mutableDefault (type field : Text)
  /-- A field specification without an annotation. -/
  | unannotatedField (name : Text)
  /-- A field specification under a name that cannot be taken away from its class. -/
  | undeletable (name owner : Text)
  /-- A second mark that the fields after it are given by name. -/
  | repeatedMark (name : Text)
  /-- Something else than a table in the place of a class's annotations. -/
  | annotationTable (owner : Text)
  /-- Something in the place of a table that takes no entries. -/
  | noEntries (typeName : Text)
  /-- A computed attribute that cannot be read. -/
  | unreadable (name owner : Text)
  deriving DecidableEq, Repr

def Trouble.text : Trouble → Text
  | .undefined name => "name '" ++ name ++ "' is not defined"
  | .noModuleAttribute owner name isComplete =>
    if isComplete then "module '" ++ owner ++ "' has no attribute '" ++ name ++ "'"
    else "partially initialized module '" ++ owner ++ "' has no attribute '" ++ name ++
      "' (most likely due to a circular import)"
  | .noClassAttribute owner name => "type object '" ++ owner ++ "' has no attribute '" ++ name ++ "'"
  | .noEnumerationAttribute name => name
  | .noObjectAttribute owner name => "'" ++ owner ++ "' object has no attribute '" ++ name ++ "'"
  | .noModule name => "No module named " ++ name.quoted
  | .notPackage name parent =>
    "No module named " ++ name.quoted ++ "; " ++ parent.quoted ++ " is not a package"
  | .emptyModuleName => "Empty module name"
  | .relativeModule name =>
    "the 'package' argument is required to perform a relative import for " ++ name.quoted
  | .raised fault => fault.message
  | .notAnException => "exceptions must derive from BaseException"
  | .noArguments owner => owner ++ "() takes no arguments"
  | .notSubscriptable owner => "type '" ++ owner ++ "' is not subscriptable"
  | .notIndexable typeName => "'" ++ typeName ++ "' object is not subscriptable"
  | .wrongPlace typeName place =>
    if typeName = ("str" : Text) then "string indices must be integers, not '" ++ place ++ "'"
    else "list indices must be integers or slices, not " ++ place
  | .noEntry key => key
  | .argumentCount owner actual expected =>
    "Too " ++ (if expected < actual then ("many" : Text) else "few") ++ " arguments for " ++ owner ++
      "; actual " ++ Text.ofNat actual ++ ", expected " ++ Text.ofNat expected
  | .severalTypes owner isRequired shown =>
    owner ++ (if isRequired then (" requires a single type." : Text) else " accepts only single type.") ++
      " Got " ++ shown ++ "."
  | .notGeneric owner => owner ++ " is not a generic class"
  | .callableForm => "Callable must be used as Callable[[arg, ...], result]."
  | .parameterList shown =>
    "Expected a list of types, an ellipsis, ParamSpec, or Concatenate. Got " ++ shown
  | .notAnArgument type => type ++ " is not valid as type argument"
  | .bareForm name => "Plain " ++ name ++ " is not valid as type argument"
  | .badOperands left right =>
    "unsupported operand type(s) for |: '" ++ left ++ "' and '" ++ right ++ "'"
  | .base cause => cause.text
  | .placeName => "__slots__ must be identifiers"
  | .placeItem typeName => "__slots__ items must be strings, not '" ++ typeName ++ "'"
  | .placeOfDictionary => "__dict__ slot disallowed: we already got one"
  | .placeOfWeakness =>
    "__weakref__ slot disallowed: either we already got one, or __itemsize__ != 0"
  | .placesInSized owner => "nonempty __slots__ not supported for subtype of '" ++ owner ++ "'"
  | .placeTaken name => name.quoted ++ " in __slots__ conflicts with class variable"
  | .qualifiedName typeName => "type __qualname__ must be a str, not " ++ typeName
  | .classCell typeName =>
    "__classcell__ must be a nonlocal cell, not <class '" ++ typeName ++ "'>"
  | .enumeration cause => cause.text
  | .conversion cause => cause.text
  | .extraArguments method given =>
    method ++ "() takes 1 positional argument but " ++ Text.ofNat given ++ " were given"
  | .notCallable typeName => "'" ++ typeName ++ "' object is not callable"
  | .mutableDefault type field =>
    "mutable default <class '" ++ type ++ "'> for field " ++ field ++
      " is not allowed: use default_factory"
  | .unannotatedField name => name.quoted ++ " is a field but has no type annotation"
  | .undeletable name owner =>
    "cannot delete " ++ name.quoted ++ " attribute of immutable type " ++ owner.quoted
  | .repeatedMark name => name.quoted ++ " is KW_ONLY, but KW_ONLY has already been specified"
  | .annotationTable owner => owner ++ ".__annotations__ is neither a dict nor None"
  | .noEntries typeName =>
    if typeName = ("list" : Text) then "list indices must be integers or slices, not str"
    else "'" ++ typeName ++ "' object does not support item assignment"
  | .unreadable name owner =>
    "property " ++ name.quoted ++ " of " ++ owner.quoted ++ " object has no getter"

/-- How an exception ends a program that does not handle it. -/
inductive Ending where
  /-- With a status, and perhaps a text on standard error. -/
  | exit (status : Nat) (shown : Option Text)
  /-- As a user does. -/
  | interruption
  | crash
  deriving DecidableEq, Repr

/-- An exception of a class outside the general ones, which passes through whatever handles those. -/
structure Escape where
  exception : Text
  message : Text
  ending : Ending
  deriving DecidableEq, Repr

/-- What ends a step of loading before its end. -/
inductive Halt where
  | trouble (cause : Trouble)
  | escape (cause : Escape)
  deriving DecidableEq, Repr

def Halt.isTrouble : Halt → Bool
  | .trouble _ => true
  | .escape _ => false

end Specimen
