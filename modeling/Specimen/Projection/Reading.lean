import Specimen.Reflection.World

/-!
What an annotation says about a member: its type, whether it is a collection or optional, and whether
it keeps the member out of documents.
-/
namespace Specimen.Referent

mutual

/-- A referent without markers and without the absent value, and whether that was among its types. A
union of several other types is any type. -/
def strip : Referent → Referent × Bool
  | .annotated inner _ => strip inner
  | .union _ members =>
    let (others, allowsNone) := stripMembers members
    match others with
    | [(d, optional)] => (d, optional || allowsNone)
    | _ => (any, allowsNone)
  | d => (d, false)

/-- The members of a union other than the absent value's type, each stripped, and whether that type is
among them. -/
def stripMembers : List Referent → List (Referent × Bool) × Bool
  | [] => ([], false)
  | d :: rest =>
    let (others, allowsNone) := stripMembers rest
    if d.isNoneType then (others, true) else (strip d :: others, allowsNone)

end

def collectionOrigins : List StandardClass :=
  [.list, .tuple, .set, .frozenset, .sequence, .mutableSequence, .abstractSet, .mutableSet,
    .iterable, .collection]

def plainCollections : List StandardClass := [.list, .tuple, .set, .frozenset]

def isCollection (d : Referent) : Bool :=
  match d, d.origin? with
  | _, some (.standard origin) => collectionOrigins.contains origin
  | .cls (.standard s), _ => plainCollections.contains s
  | _, _ => false

/-- The type of the items of a collection type; a string is no type. -/
def element (d : Referent) : Referent :=
  match d.args with
  | [] => any
  | first :: _ =>
    match (strip first).1 with
    | .text _ => any
    | item => item

/-- What an annotation says: a type, whether it is that of a collection's items, and whether the
member may be absent. -/
structure Reading where
  type : Referent
  isCollection : Bool
  optional : Bool
  deriving Repr

/-- What an annotation says. A string says nothing. -/
def read : Referent → Reading
  | .text _ => ⟨any, false, false⟩
  | d =>
    let (type, optional) := strip d
    if type.isCollection then ⟨type.element, true, optional⟩ else ⟨type, false, optional⟩

/-- Whether the member belongs to the class and not to its objects. Of a string the beginning tells. -/
def isStatic : Referent → Bool
  | .text expr => (Text.deleteAll "typing." expr.text).startsWith "ClassVar"
  | .initVar _ | .classVar _ | .form .classVar => true
  | _ => false

def isUnserialized : Referent → Bool
  | .annotated _ markers => markers.any fun
    | .unserialized _ => true
    | .note _ => false
  | _ => false

end Specimen.Referent
