import Specimen.Text.Basic

/-!
Why no class descends from the bases of a declaration.
-/
namespace Specimen

/-- Why there is no class with given bases. -/
inductive BaseFault where
  /-- Something that no class can descend from. -/
  | sealed (name : Text)
  | unacceptable (name : Text)
  | duplicate (name : Text)
  | inconsistentOrder (bases : List Text)
  | layoutConflict
  /-- Bases whose own classes are no subclasses of one another. -/
  | metaclassConflict
  /-- The class of generic classes, written without arguments. -/
  | plainGeneric
  /-- What stands among bases after a generic name and is no class. -/
  | notAClass
  /-- A member of an enumeration, which has no ancestors. -/
  | noAncestors (enumeration : Text)
  /-- A base whose class makes objects of fewer arguments than a class is made of. -/
  | argumentLimit (owner : Text) (limit : Nat)
  | singleArgument (owner : Text)
  | noArguments (owner : Text)
  | encoding
  | code
  | uncreatable (owner : Text)
  | other
  deriving DecidableEq, Repr

def BaseFault.text : BaseFault → Text
  | .sealed name => "Cannot subclass " ++ name
  | .unacceptable name => "type '" ++ name ++ "' is not an acceptable base type"
  | .duplicate name => "duplicate base class " ++ name
  | .inconsistentOrder bases =>
    "Cannot create a consistent method resolution\norder (MRO) for bases " ++ List.intercalate ", " bases
  | .layoutConflict => "multiple bases have instance lay-out conflict"
  | .metaclassConflict =>
    "metaclass conflict: the metaclass of a derived class must be a (non-strict) subclass of the " ++
      "metaclasses of all its bases"
  | .plainGeneric => "Cannot inherit from plain Generic"
  | .notAClass => "issubclass() arg 1 must be a class"
  | .noAncestors enumeration => "'" ++ enumeration ++ "' object has no attribute '__mro__'"
  | .argumentLimit owner limit =>
    owner ++ "() takes at most " ++ Text.ofNat limit ++ " argument" ++
      (if limit = 1 then ([] : Text) else "s") ++ " (3 given)"
  | .singleArgument owner => owner ++ " expected at most 1 argument, got 3"
  | .noArguments owner => owner ++ " takes no arguments"
  | .encoding => "str() argument 'encoding' must be str, not tuple"
  | .code => "function() argument 'code' must be code, not str"
  | .uncreatable owner => "cannot create '" ++ owner ++ "' instances"
  | .other => "bases must be types"

end Specimen
