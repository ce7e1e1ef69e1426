import Specimen.Loading.Enumeration.Making
import Specimen.Loading.Enumeration.Naming

/-!
What a module raises at the end of its loading: an object of a class made of one text.
-/
namespace Specimen.Raising

open Enumeration (nearestMethod?)

/-- The call of a method that declared classes give to an object made of one value. -/
def callOwn (world : World) (stops : StandardClass → Bool) (name : Text) (order : List ClassRef) :
    Except Trouble Bool :=
  match nearestMethod? world stops name order with
  | some (owner, found) => do
    Enumeration.call world name (world.qualname owner) 2 found
    return true
  | none => .ok false

def makeStandard (c : StandardClass) (message : Text) : Except ConversionFault Unit :=
  match c with
  | .exception .unicodeDecode | .exception .unicodeEncode => .error (.functionCount 5)
  | .exception .unicodeTranslate => .error (.functionCount 4)
  | c =>
    match Enumeration.make c.name c [.str message] with
    | .error .unset | .ok _ => .ok ()
    | .error fault => .error fault

def takesValues (s : StandardClass) : Bool :=
  s ≠ .object && (s.makesObjects || s.initializes)

def construct (world : World) (c : ClassRef) (message : Text) : Except Trouble Unit := do
  let order := world.resolutionOrder c
  let isMade ← callOwn world (·.makesObjects) makerName order
  let isHanded ← callOwn world (·.initializes) initializerName order
  let standard := order.findSome? fun
    | .standard s => if takesValues s then some s else none
    | .declared _ => none
  match standard with
  | some s => (makeStandard s message).mapError .conversion
  | none => if !isMade && !isHanded then throw (.noArguments (world.className c))

/-- The text of an exception made of a text: that of a missing key is quoted. -/
def messageOf (world : World) (c : ClassRef) (message : Text) : Text :=
  let showing : List StandardClass :=
    [.exception .rootGroup, .exception .importing, .exception .key, .exception .operatingSystem,
      .exception .source]
  let shown := (world.resolutionOrder c).find? fun
    | .standard s => showing.contains s
    | .declared _ => false
  if shown = some (.standard (.exception .key)) then message.quoted else message

/-- The status of a program that ends with an integer: its lowest byte, or that of -1 where it does not
fit into a machine word. -/
def statusOf (value : Int) : Nat :=
  if -0x8000000000000000 ≤ value && value ≤ 0x7FFFFFFFFFFFFFFF then (value % 0x100).toNat else 0xFF

def exitWith : Data → Ending
  | .none => .exit 0 none
  | .bool value => .exit (if value then 1 else 0) none
  | .int value => .exit (statusOf value) none
  | value => .exit 1 (some value.text)

def codeName : Text := "code"

/-- The end that an exit asks for. Its code is the text that it was made of, unless a class in front of the
class of exits binds the code itself or hands new objects to a method of its own. -/
def exitOf (world : World) (c : ClassRef) (message : Text) : Ending :=
  let order := world.resolutionOrder c
  match nearestMethod? world (· = .exception .systemExit) codeName order with
  | some (_, .plain (.data value)) => exitWith value
  | some (_, .property _ true) => exitWith .none
  -- neither a place that nothing was put in nor a property without a getter can be read
  | some (_, .property _ false) | some (_, .plain (.object (.standard .memberDescriptor))) =>
    exitWith (.str message)
  | some (owner, .plain (.object (.standard .function))) =>
    exitWith (.str ("<bound method " ++ world.qualname owner ++ "." ++ codeName ++ " of " ++ world.className c ++ "(" ++
      message.quoted ++ ")>"))
  | some (_, found) => exitWith (.str (world.shownText found.referent))
  | none =>
    let initializer := order.find? fun
      | .standard s => s.initializes
      | .declared _ => false
    exitWith (if initializer = some (.standard (.exception .systemExit)) then .str message else .none)

/-- How an exception outside the general ones ends a program. -/
def endingOf (world : World) (c : ClassRef) (message : Text) : Ending :=
  if world.descends c (.exception .interruption) then .interruption
  else if world.descends c (.exception .systemExit) then exitOf world c message
  else .crash

def haltOf (env : Environment) (fault : LoadFault) : Halt :=
  let world := env.world
  let run : Except Trouble Halt := do
    match ← env.denote fault.exception with
    | .cls c =>
      construct world c fault.message
      let name := world.className c
      let message := messageOf world c fault.message
      if world.descends c (.exception .general) then return .trouble (.raised ⟨name, message⟩)
      else if world.descends c (.exception .root) then
        return .escape ⟨name, message, endingOf world c fault.message⟩
      else throw .notAnException
    | .module _ => throw (.notCallable StandardClass.module.name)
    | .data value => throw (.notCallable value.typeName)
    | _ => throw .notAnException
  match run with
  | .ok halt => halt
  | .error cause => .trouble cause

end Specimen.Raising
