import Specimen.Reflection.Trouble
import Specimen.Reflection.World

/-!
The order of attribute lookup of a class with several bases. It keeps the order of the bases and the
order of each base's own ancestors.
-/
namespace Specimen.Linearization

def isBehind (c : ClassRef) (orders : List (List ClassRef)) : Bool :=
  orders.any fun order => order.tail.contains c

/-- The first class at the front of a sequence that no sequence holds further behind. -/
def nextClass (orders : List (List ClassRef)) : Option ClassRef :=
  (orders.filterMap List.head?).find? fun c => !isBehind c orders

def takeOff (c : ClassRef) (orders : List (List ClassRef)) : List (List ClassRef) :=
  orders.map fun order => if order.head? = some c then order.tail else order

private def heads (orders : List (List ClassRef)) : List ClassRef :=
  (orders.filterMap List.head?).foldl (fun kept c => if kept.contains c then kept else kept ++ [c]) []

/-- The merge of sequences, or the classes at their fronts when it gets stuck. Every step takes off at
least one class, so the total length bounds the number of steps. -/
def merge : (fuel : Nat) → List (List ClassRef) → Except (List ClassRef) (List ClassRef)
  | 0, _ => .ok []
  | fuel + 1, orders =>
    if orders.all List.isEmpty then .ok []
    else match nextClass orders with
      | none => .error (heads orders)
      | some c => (merge fuel (takeOff c orders)).map (c :: ·)

def ancestors (world : World) (bases : List ClassRef) : Except Trouble (List ClassRef) :=
  let orders := bases.map world.resolutionOrder ++ [bases]
  match merge (orders.flatten.length + 1) orders with
  | .ok order => .ok order
  | .error stuck => .error (.base (.inconsistentOrder (stuck.map world.className)))

private def duplicate? : List ClassRef → Option ClassRef
  | [] => none
  | c :: rest => if rest.contains c then some c else duplicate? rest

/-- The classes above a class with the given bases, none of them twice. -/
def ofBases (world : World) (bases : List ClassRef) : Except Trouble (List ClassRef) :=
  match duplicate? bases with
  | some c => .error (.base (.duplicate (world.className c)))
  | none => ancestors world bases

end Specimen.Linearization
