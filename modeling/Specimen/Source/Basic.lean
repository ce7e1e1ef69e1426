import Specimen.Source.TypeExpr

/-!
Declarations of modules and classes, as a source file writes them.
-/
namespace Specimen

def jsonKey : Text := "json"

/-- The metadata key whose false value keeps a member out of documents. -/
def serializeKey : Text := "serialize"

inductive FieldValue where
  | absent
  /-- A field specification with its metadata, and perhaps a default of none. -/
  | specified (metadata : List (Data × Data)) (defaultsToNone : Bool)
  | value (value : Data)
  deriving Repr, BEq, Inhabited

inductive Member where
  /-- An annotated name. -/
  | field (name : Text) (type : TypeExpr) (value : FieldValue)
  /-- A computed attribute; one that cannot be read has no type. -/
  | property (name : Text) (type : Option TypeExpr) (readable : Bool)
  /-- A name bound to a value. -/
  | constant (name : Text) (value : Data)
  | method (name : Text)
  | nested (name : Text) (isDataclass : Bool) (bases : List Text) (members : List Member)
  deriving Repr, Inhabited

structure ClassSource where
  name : Text
  isDataclass : Bool
  bases : List Text
  members : List Member
  deriving Repr, Inhabited

/-- What a module raises at the end of its loading: the name of an exception class, and its message. -/
structure LoadFault where
  exception : Text
  message : Text
  deriving DecidableEq, Repr

/-- A module. Where annotations are postponed, each of them is kept as its text. -/
structure ModuleSource where
  name : Text
  postponed : Bool
  imports : List Text
  classes : List ClassSource
  functions : List Text
  values : List (Text × Data)
  fault : Option LoadFault
  deriving Repr, Inhabited

end Specimen
