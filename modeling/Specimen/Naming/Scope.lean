import Specimen.Naming.Identifier

/-!
Scopes hand out names that differ from each other. The first claim of a name gets it unchanged; later
ones get the least free number from 2 on behind it. A counter at each name says where its next search
begins.
-/
namespace Specimen.Naming

/-- Names in use, each with the number its last claim ended at. -/
structure Scope where
  taken : List (Text × Nat)
  deriving DecidableEq, Repr

namespace Scope

def empty : Scope := ⟨[]⟩

def counter? (scope : Scope) (name : Text) : Option Nat :=
  (scope.taken.find? (·.1 = name)).map (·.2)

def isTaken (scope : Scope) (name : Text) : Bool := (scope.counter? name).isSome

def numbered (base : Text) (number : Nat) : Text := base ++ Text.ofNat number

def set (scope : Scope) (name : Text) (counter : Nat) : Scope :=
  let rec go : List (Text × Nat) → List (Text × Nat)
    | [] => [(name, counter)]
    | (other, old) :: rest => if other = name then (name, counter) :: rest else (other, old) :: go rest
  ⟨go scope.taken⟩

/-- The scope with a name in use; a name in use already keeps its counter. -/
def reserve (scope : Scope) (name : Text) : Scope :=
  if scope.isTaken name then scope else scope.set name 1

def reserveAll (scope : Scope) (names : List Text) : Scope := names.foldl reserve scope

/-- The first number above `number` whose name is free, among the next `fuel` ones. -/
def firstFree (scope : Scope) (base : Text) : (fuel number : Nat) → Nat
  | 0, number => number
  | fuel + 1, number =>
    if scope.isTaken (numbered base (number + 1)) then firstFree scope base fuel (number + 1)
    else number + 1

/-- The name handed out for a base, and the scope after it. Of the next numbers, one more than there
are names in use, some one is free. -/
def claim (scope : Scope) (base : Text) : Text × Scope :=
  match scope.counter? base with
  | none => (base, scope.set base 1)
  | some counter =>
    let number := scope.firstFree base (scope.taken.length + 1) counter
    let name := numbered base number
    (name, (scope.set base number).reserve name)

/-- The name handed out for a text that is first made an identifier. -/
def claimNormalized (scope : Scope) (text : Text) : Text × Scope := scope.claim (normalize text)

end Scope

end Specimen.Naming
