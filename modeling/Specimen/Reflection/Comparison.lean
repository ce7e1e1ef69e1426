import Specimen.Data.Equality
import Specimen.Reflection.Referent

/-!
Equality of referents, by which the members of unions are told apart. Literal types are compared as sets,
so one that holds a value which cannot be a dictionary key fails, with the name of that value's type.
-/
namespace Specimen.Referent

mutual

def isHashable : Referent → Bool
  | .data value => value.isHashable
  | .literal values => values.all Data.isHashable
  | .generic _ _ args => areHashable args
  | .annotated inner _ => isHashable inner
  | .classVar inner => isHashable inner
  | .final inner => isHashable inner
  | .union _ members => areHashable members
  | _ => true

def areHashable : List Referent → Bool
  | [] => true
  | d :: rest => isHashable d && areHashable rest

end

/-- Whether the two are one marker. Instances of the mark are never one. -/
def sameMarker : Marker → Marker → Bool
  | .unserialized true, _ => false
  | a, b => a == b

def sameMarkers : List Marker → List Marker → Bool
  | [], [] => true
  | a :: s, b :: t => sameMarker a b && sameMarkers s t
  | _, _ => false

def sameValues (a b : List Data) : Except Text Bool :=
  match Data.unhashableItem? (a ++ b) with
  | some typeName => .error typeName
  | Option.none =>
    .ok (a.all (fun v => b.any v.sameLiteral) && b.all fun v => a.any v.sameLiteral)

mutual

/-- Whether two referents are equal. The members of unions and of literals have no order; forward
references with one text are equal where their numbers agree; an initialisation variable equals no
other. -/
def compare (agree : Nat → Nat → Bool) : Referent → Referent → Except Text Bool
  | .data a, .data b => .ok (a.equals b)
  | .ellipsis, .ellipsis => .ok true
  | .cls a, .cls b => .ok (a == b)
  | .module a, .module b => .ok (a == b)
  | .form a, .form b => .ok (a == b)
  | .object a, .object b => .ok (a == b)
  | .member a name, .member b name' => .ok (a == b && name == name')
  | .text a, .text b => .ok (a.text == b.text)
  | .forward a _ i, .forward b _ j => .ok (a.text == b.text && agree i j)
  | .generic native a args, .generic native' a' args' =>
    if native == native' && a == a' then compareList agree args args' else .ok false
  | .literal a, .literal b => sameValues a b
  | .annotated a markers, .annotated a' markers' =>
    return (← compare agree a a') && sameMarkers markers markers'
  | .classVar a, .classVar b => compare agree a b
  | .final a, .final b => compare agree a b
  | .union _ a, .union _ b =>
    if a.length == b.length then compareMembers agree a b else .ok false
  | _, _ => .ok false

def compareList (agree : Nat → Nat → Bool) : List Referent → List Referent → Except Text Bool
  | [], [] => .ok true
  | a :: s, b :: t => do if ← compare agree a b then compareList agree s t else return false
  | _, _ => .ok false

/-- Whether each of the first referents is among the second ones. -/
def compareMembers (agree : Nat → Nat → Bool) : List Referent → List Referent → Except Text Bool
  | [], _ => .ok true
  | a :: s, t => do
    if ← t.anyM (fun b => compare agree a b) then compareMembers agree s t else return false

end

/-- Whether two referents can be compared and are equal, forward references by their texts alone. -/
def same (a b : Referent) : Bool := (compare (fun _ _ => true) a b).toOption.getD false

def sameList (agree : Nat → Nat → Bool) (s t : List Referent) : Bool :=
  (compareList agree s t).toOption.getD false

/-- The referents without repetitions, after those that have been kept. -/
def distinct (agree : Nat → Nat → Bool) (kept : List Referent) :
    List Referent → Except Text (List Referent)
  | [] => .ok kept
  | d :: rest => do
    let isKnown ← kept.anyM fun k => compare agree k d
    distinct agree (if isKnown then kept else kept ++ [d]) rest

def flatten (members : List Referent) : List Referent :=
  members.flatMap fun
    | .union _ inner => inner
    | d => [d]

/-- The union of members: nested unions are flattened and repetitions dropped, and a union of one is
that one. -/
def unite (agree : Nat → Nat → Bool) (native : Bool) (members : List Referent) :
    Except Text Referent := do
  match ← distinct agree [] (flatten members) with
  | [single] => return single
  | several => return .union native several

end Specimen.Referent
