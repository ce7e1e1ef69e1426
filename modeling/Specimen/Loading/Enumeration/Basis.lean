import Specimen.Loading.Enumeration.Making
import Specimen.Loading.Enumeration.Naming

/-!
What an enumeration is built on: the class that makes the values of its members, found among its bases
before its body is run.
-/
namespace Specimen.Enumeration

def standardBasis : StandardClass → Option StandardClass
  | .intEnum | .intFlag => some .int
  | .strEnum => some .str
  | _ => none

def basisOf (world : World) : ClassRef → Option ClassRef
  | .standard s => (standardBasis s).map .standard
  | c => (world.enumeration c).basis

/-- The class of values along the ancestors of one base: that of the first enumeration with one, or the
nearest class whose objects are made by a class from here on. -/
def basisAlong (world : World) (candidate : Option ClassRef) : List ClassRef → Option ClassRef
  | [] => none
  | c :: rest =>
    if c = .standard .object then basisAlong world candidate rest
    else if world.descends c .enum then
      match basisOf world c with
      | some basis => some basis
      | none => basisAlong world candidate rest
    else if world.makesObjects c || (world.ownFieldTable? c).isSome then some (candidate.getD c)
    else basisAlong world (some (candidate.getD c)) rest

def basis (world : World) (className : Text) (bases : List ClassRef) :
    Except Trouble (Option ClassRef) :=
  let found := (bases.filterMap fun c => basisAlong world none (world.resolutionOrder c)).foldl
    (fun kept c => if kept.contains c then kept else kept ++ [c]) []
  match found with
  | [] => .ok none
  | [c] => .ok (some c)
  | several =>
    .error (.enumeration (.severalBases className (several.map fun c => shown world (.plain (.cls c)))))

/-- The class of values, once nothing speaks against the bases: none has members, and the last one is
an enumeration. -/
def prepare (world : World) (className : Text) (bases : List ClassRef) :
    Except Trouble (Option ClassRef) :=
  match (bases.flatMap world.resolutionOrder).find? fun c => !(world.enumeration c).listed.isEmpty with
  | some c =>
    .error (.enumeration (.extended className (world.className c) (world.descends c .flag)))
  | none =>
    if (bases.getLast?.map fun c => world.descends c .enum).getD false then basis world className bases
    else .error (.enumeration .baseOrder)

end Specimen.Enumeration
