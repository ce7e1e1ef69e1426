import Specimen.Loading.Body
import Specimen.Reflection.Trouble
import Specimen.Text.Letter
import Specimen.Text.Numeral

/-!
How the objects of a class are laid out, which decides what classes can be bases together, and the
attributes that a class body reserves places for.
-/
namespace Specimen

namespace StandardClass

def closed : List StandardClass :=
  [.bool, .memoryview, .range, .slice, .timezone, .noneType, .notImplementedType, .ellipsisType,
    .function, .builtinFunction, .methodDescriptor, .memberDescriptor, .mappingProxy]

/-- The class that last added something of its own to the objects. -/
def core : StandardClass → StandardClass
  | .bool => .int
  | .strEnum => .str
  | .exception kind => .exception kind.core
  | .enum | .reprEnum | .flag | .any | .generic | .abstractBase | .nonSerialized => .object
  | .tzinfo | .chainMap | .userDict | .userList | .userString => .object
  | .counter => .dict
  | .mappingView | .keysView | .itemsView | .valuesView => .mappingView
  | .enumType | .abstractType | .anyType => .type
  | s => if interfaces.contains s then .object else s

/-- Classes whose objects take attributes of any name and can be referred to weakly. -/
def flexible : List StandardClass :=
  [.type, .enum, .orderedDict, .counter, .chainMap, .userDict, .userList, .userString, .any,
    .nonSerialized]

def hasDictionary (s : StandardClass) : Bool :=
  s.resolutionOrder.any fun c =>
    flexible.contains c || [.exception .root, .classmethod, .staticmethod].contains c

def hasWeakness (s : StandardClass) : Bool :=
  s.resolutionOrder.any (fun c =>
    flexible.contains c || [.exception .group, .set, .frozenset, .uuid, .deque].contains c) &&
    s ≠ .intEnum && s ≠ .intFlag

def isSized (s : StandardClass) : Bool :=
  s.resolutionOrder.any fun c => [.int, .bytes, .tuple, .type].contains c

end StandardClass

namespace World

variable (world : World)

def layout (c : ClassRef) : Layout :=
  match c with
  | .standard s => ⟨.standard s.core, s.hasDictionary, s.hasWeakness⟩
  | .declared _ => ((world.info? c).map (·.layout)).getD ⟨.standard .object, true, true⟩

def isSized (c : ClassRef) : Bool :=
  (world.resolutionOrder c).any fun
    | .standard s => s.isSized
    | .declared _ => false

end World

namespace Layout

private def checkOpen (c : ClassRef) : Except Trouble Unit :=
  match c with
  | .standard s =>
    if StandardClass.closed.contains s then .error (.base (.unacceptable s.reportName)) else .ok ()
  | .declared _ => .ok ()

/-- The base whose layout a class takes over, from one base on. Of two layouts one has to be a part of
the other. -/
def chooseFrom (world : World) (best : ClassRef) : List ClassRef → Except Trouble ClassRef
  | [] => .ok best
  | c :: rest => do
    checkOpen c
    let kept := (world.layout best).core
    let core := (world.layout c).core
    if (world.resolutionOrder kept).contains core then chooseFrom world best rest
    else if (world.resolutionOrder core).contains kept then chooseFrom world c rest
    else throw (.base .layoutConflict)

def choose (world : World) : List ClassRef → Except Trouble ClassRef
  | [] => .ok (.standard .object)
  | c :: rest => do
    checkOpen c
    chooseFrom world c rest

def plain (world : World) (c base : ClassRef) : Layout :=
  let inherited := world.layout base
  ⟨if world.isSized base && !inherited.hasDictionary then c else inherited.core, true,
    inherited.hasWeakness || !world.isSized base⟩

/-- The places that a class body reserves. -/
structure Places where
  names : List Text
  forDictionary : Bool
  forWeakness : Bool
  deriving Inhabited

private def isWordStart (c : CodePoint) : Bool := Text.isLetter c || c = 0x5F

def isIdentifier (text : Text) : Bool :=
  match text with
  | [] => false
  | c :: rest => isWordStart c && rest.all fun d => isWordStart d || Text.isAlphanumeric d

def dictionaryName : Text := "__dict__"

def weaknessName : Text := "__weakref__"

/-- The places of a list, put after others, where a base leaves room for them. -/
def collect (inherited : Layout) (isSized : Bool) (places : Places) :
    List Data → Except Trouble Places
  | [] => .ok places
  | .str name :: rest =>
    if !isIdentifier name then .error .placeName
    else if name = dictionaryName then
      if inherited.hasDictionary || places.forDictionary then .error .placeOfDictionary
      else collect inherited isSized { places with forDictionary := true } rest
    else if name = weaknessName then
      if inherited.hasWeakness || isSized || places.forWeakness then .error .placeOfWeakness
      else collect inherited isSized { places with forWeakness := true } rest
    else collect inherited isSized { places with names := places.names ++ [name] } rest
  | item :: _ => .error (.placeItem item.typeName)

def placesOf (world : World) (base : ClassRef) (items : List Data) : Except Trouble Places :=
  if !items.isEmpty && world.isSized base then .error (.placesInSized (world.reportName base))
  else collect (world.layout base) (world.isSized base) ⟨[], false, false⟩ items

/-- The layout of a class with reserved places. What they leave out, another base may have. -/
def withPlaces (world : World) (c base : ClassRef) (bases : List ClassRef) (places : Places) : Layout :=
  let inherited := world.layout base
  let others := (bases.filter (· ≠ base)).map world.layout
  ⟨if places.names.isEmpty then inherited.core else c,
    inherited.hasDictionary || places.forDictionary || others.any (·.hasDictionary),
    inherited.hasWeakness || places.forWeakness ||
      (!world.isSized base && others.any (·.hasWeakness))⟩

end Layout

end Specimen
