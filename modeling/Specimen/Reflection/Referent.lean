import Specimen.Reflection.Standard
import Specimen.Source.TypeExpr

/-!
What type expressions and names denote.
-/
namespace Specimen

/-- A class: a standard one, or one that a module declared. -/
inductive ClassRef where
  | standard (c : StandardClass)
  | declared (index : Nat)
  deriving DecidableEq, Repr, Inhabited

inductive TypingForm where
  /-- A generic name, the class behind it, and how many arguments it takes where that is fixed. -/
  | alias (name : Text) (origin : StandardClass) (arity : Option Nat)
  | classVar
  | final
  | optional
  | union
  | annotated
  | literal
  deriving DecidableEq, Repr

inductive Referent where
  | data (value : Data)
  | ellipsis
  | cls (c : ClassRef)
  | module (name : Text)
  | form (form : TypingForm)
  /-- An object of a class, neither a type nor plain data. -/
  | object (c : ClassRef)
  /-- A member of an enumeration. -/
  | member (enumeration : ClassRef) (name : Text)
  /-- A string with the expression it holds. -/
  | text (expr : TypeExpr)
  /-- A string in the place of a type, by its number. A lenient one may turn out to be a class
  variable. -/
  | forward (expr : TypeExpr) (lenient : Bool) (number : Nat)
  /-- A class with arguments. A native one was written with the class itself. -/
  | generic (native : Bool) (origin : ClassRef) (args : List Referent)
  | literal (values : List Data)
  | annotated (inner : Referent) (markers : List Marker)
  | classVar (inner : Referent)
  | final (inner : Referent)
  | initVar (inner : Referent)
  /-- One of several types. A native one was written with bars. -/
  | union (native : Bool) (members : List Referent)
  deriving Repr, Inhabited

namespace Referent

def standard (c : StandardClass) : Referent := .cls (.standard c)

def any : Referent := standard .any

def noneType : Referent := standard .noneType

def none : Referent := .data .none

def isNoneType : Referent → Bool
  | .cls (.standard .noneType) => true
  | _ => false

/-- A referent with markers; those of a marked one stay in front. -/
def mark (inner : Referent) (markers : List Marker) : Referent :=
  match inner with
  | .annotated d earlier => .annotated d (earlier ++ markers)
  | d => .annotated d markers

def origin? : Referent → Option ClassRef
  | .generic _ origin _ => some origin
  | .form (.alias _ origin _) => some (.standard origin)
  | _ => Option.none

def args : Referent → List Referent
  | .generic _ _ args => args
  | _ => []

end Referent

end Specimen
