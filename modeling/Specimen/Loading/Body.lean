import Specimen.Reflection.Lookup

/-!
What a class body has collected so far.
-/
namespace Specimen

/-- What the body of an enumeration has said about its members. -/
structure MemberTable where
  /-- The names that are to be members. -/
  names : List Text
  /-- What is to be ignored. -/
  ignored : List Data
  deriving Repr, Inhabited

/-- The annotations and attributes that a class body has collected. -/
structure Body where
  annotations : Annotations
  attributes : List (Text × ClassAttribute)
  /-- There in the body of an enumeration. -/
  table : Option MemberTable
  deriving Repr, Inhabited

namespace Body

def moduleKey : Text := "__module__"

def qualnameKey : Text := "__qualname__"

def start (moduleName qualname : Text) (isEnumeration : Bool) : Body :=
  ⟨.table [], [(moduleKey, .plain (.data (.str moduleName))), (qualnameKey, .plain (.data (.str qualname)))],
    if isEnumeration then some ⟨[], []⟩ else none⟩

variable (body : Body)

def attribute? (name : Text) : Option ClassAttribute := List.lookup name body.attributes

def bind (name : Text) (value : ClassAttribute) : Body :=
  { body with attributes := Json.put name value body.attributes }

def without (names : List Text) : Body :=
  { body with attributes := body.attributes.filter fun entry => !names.contains entry.1 }

def annotate (world : World) (name : Text) (written : Referent) : Except Trouble Body :=
  match body.annotations with
  | .table entries => .ok { body with annotations := .table (Json.put name written entries) }
  | .absent => .error (.noEntries StandardClass.noneType.name)
  | .replaced value => .error (.noEntries (world.typeNameOf value))

def names : Bindings := body.attributes.map fun (name, found) => (name, found.referent)

end Body

end Specimen
