import Specimen.Loading.Enumeration.Basis

/-!
Making the members of an enumeration. A value equal to an earlier one makes its name an alias of that
member; among flags only the members of one bit are listed.
-/
namespace Specimen.Enumeration

structure Draft where
  world : World
  className : Text
  qualname : Text
  bases : List ClassRef
  /-- The classes above it, in the order of attribute lookup. -/
  ancestors : List ClassRef
  basis : Option ClassRef
  body : Body
  deriving Inhabited

namespace Draft

variable (draft : Draft)

/-- What the nearest class binds a name to, and the name of that class. Nothing is found behind a
standard class that has the name itself. -/
def nearest? (stops : StandardClass → Bool) (name : Text) : Option (Text × ClassAttribute) :=
  match draft.body.attribute? name with
  | some found => some (draft.qualname, found)
  | none => (nearestMethod? draft.world stops name draft.ancestors).map fun (c, found) =>
      (draft.world.qualname c, found)

def callMethod (stops : StandardClass → Bool) (name : Text) (given : Nat) : Except Trouble Unit :=
  match draft.nearest? stops name with
  | some (owner, found) => call draft.world name owner given found
  | none => .ok ()

private def isAbsent : ClassAttribute → Bool
  | .plain (.data .none) => true
  | _ => false

def enumerationOrder : List ClassRef := draft.bases.getLast?.elim [] draft.world.resolutionOrder

/-- The method of its own that makes an enumeration's members, or that an enumeration above it had. -/
def maker? : Option (Text × ClassAttribute) :=
  match (draft.body.attribute? makerName).filter (!isAbsent ·) with
  | some found => some (draft.qualname, found)
  | none =>
    let enumerations := draft.enumerationOrder.filter fun c => draft.world.descends c .enum
    let values := (draft.basis.elim [] draft.world.resolutionOrder).takeWhile fun
      | .standard s => !s.makesObjects
      | .declared _ => true
    (enumerations ++ values).findSome? fun c =>
      ((draft.world.ownAttribute? c makerName).filter (!isAbsent ·)).map fun found =>
        (draft.world.qualname c, found)

def standardMaker? : Option StandardClass :=
  (draft.basis.elim [] draft.world.resolutionOrder).findSome? fun
    | .standard .object => none
    | .standard s => if s.makesObjects || s.initializes then some s else none
    | .declared _ => none

/-- Whether the members are texts that nothing but texts are made into. -/
def takesTextsOnly : Bool := draft.enumerationOrder.contains (.standard .strEnum)

/-- The arguments that a plain value gives: a tuple its items, unless the values are tuples themselves. -/
def arguments (value : Data) : List Data :=
  match draft.basis, value with
  | some (.standard .tuple), .tuple items => [.tuple items]
  | some (.standard .tuple), value => [.tuple [value]]
  | _, .tuple items => items
  | _, value => [value]

def argumentCount (value : ClassAttribute) : Nat :=
  match value.referent with
  | .data plain => (draft.arguments plain).length
  | _ => 1

private def areOptional (world : World) (c : ClassRef) (fields : List DataField) : Bool :=
  fields.all fun field => field.role = .classVariable ||
    (world.resolutionOrder c).any fun k => (world.ownAttribute? k field.name).isSome

/-- Whether objects of the class of values can be handed so many arguments. -/
def takes (count : Nat) : Bool :=
  let order := draft.basis.elim [] draft.world.resolutionOrder
  match nearestMethod? draft.world (·.initializes) initializerName order with
  | none => true
  | some (c, .plain (.object (.standard .function))) =>
    count = 0 && ((draft.world.ownAttribute? c initializerName).isSome ||
      ((draft.world.ownFields? c).map (areOptional draft.world c)).getD true)
  | some _ => false

def convert (value : ClassAttribute) : Made := do
  let count := draft.argumentCount value
  let made ← match draft.standardMaker?, value.referent with
    | none, _ =>
      match draft.basis with
      | some c => if count = 0 then .ok ⟨.object c, some (.tuple [])⟩ else .error .unset
      | none => .error .unset
    | some c, .data plain => do
      if draft.takesTextsOnly then checkTexts (draft.arguments plain)
      make draft.className c (draft.arguments plain)
    | some c, other =>
      if draft.takesTextsOnly then .error (.notAString (shown draft.world value))
      else if draft.basis = some (.standard .tuple) then .ok (.unique c)
      else makeOther c (draft.world.typeNameOf value) (shown draft.world value) other
  if draft.takes count || draft.takesTextsOnly then return made else throw .unset

/-- The value of a member before anything of the enumeration's own has been called. -/
def ownValue (value : ClassAttribute) : Except Trouble MemberValue :=
  match draft.basis, value.referent with
  | none, .data v => .ok (.plain v)
  | none, other => .ok ⟨other, none⟩
  | some _, _ => (draft.convert value).mapError .conversion

def sharedValue? : Option MemberValue :=
  (draft.nearest? (fun _ => false) "_value_").map fun (_, found) =>
    match found.referent with
    | .data v => .plain v
    | other => ⟨other, none⟩

/-- The method that makes objects from a class and arguments, called where there is one. What it is
written with gives nothing, and nothing has no value. -/
def callMaker (given : Nat) : Except Trouble Unit :=
  match draft.maker? with
  | some (owner, .property _ _) =>
    call draft.world makerName owner given (.plain (.object (.standard .property)))
  | some (owner, .plain (.object (.standard .function))) => do
    call draft.world makerName owner given (.plain (.object (.standard .function)))
    throw (.conversion (if draft.basis.isSome then .unset else .noOwnValue StandardClass.noneType.name))
  | some (owner, found) => call draft.world makerName owner given found
  | none => .ok ()

def setterName : Text := "__setattr__"

def looksUp (c : StandardClass) : Bool := c.makesObjects && !c.resolutionOrder.contains .enum

def sets (c : StandardClass) : Bool := c = .exception .root || c = .type

/-- Whether a value could not be made only after an empty object had been. -/
def isUnset : Except Trouble MemberValue → Bool
  | .error (.conversion .unset) => true
  | _ => false

def madeValue (value : ClassAttribute) : Except Trouble MemberValue := do
  let own := draft.ownValue value
  if !isUnset own then let _ ← own
  if draft.takesTextsOnly then draft.callMethod sets setterName 3
  draft.callMethod looksUp "__getattribute__" 2
  if !draft.takesTextsOnly then
    draft.callMethod (fun _ => false) "__getattr__" 2
    if draft.basis.isSome && (draft.nearest? sets setterName).isSome then
      throw (.conversion .unset)
  own

/-- The value of a member that has been given one; the class of values may still refuse its own. -/
def givenValue (value : ClassAttribute) (shared : MemberValue) : Except Trouble MemberValue := do
  let own := draft.ownValue value
  if !isUnset own then let _ ← own
  draft.callMethod looksUp "__getattribute__" 2
  return shared

def valueOf (value : ClassAttribute) : Except Trouble MemberValue := do
  let given := draft.argumentCount value + 1
  draft.callMaker given
  let found ← match draft.sharedValue? with
    | some shared => draft.givenValue value shared
    | none => draft.madeValue value
  draft.callMethod sets setterName 3
  if draft.ancestors.contains (.standard .uuid) then throw (.enumeration .immutable)
  draft.callMethod (·.initializes) initializerName given
  return found

/-- A member with its value, or the member that its name is an alias of. -/
inductive Entry where
  | member (name : Text) (value : MemberValue)
  | alias (name member : Text)
  deriving Repr, Inhabited

def entryOf (earlier : List Entry) (name : Text) (value : MemberValue) : Entry :=
  let found := earlier.findSome? fun
    | .member other its => if its.same value then some other else none
    | .alias _ _ => none
  found.elim (.member name value) (.alias name)

def entries (earlier : List Entry) : List Text → Except Trouble (List Entry)
  | [] => .ok earlier
  | name :: rest => do
    let value ← draft.valueOf ((draft.body.attribute? name).getD (.plain .none))
    entries (earlier ++ [entryOf earlier name value]) rest

def areFlags : Bool := draft.ancestors.contains (.standard .flag)

end Draft

def hasSingleBit (n : Int) : Bool := 0 < n && n.toNat &&& (n.toNat - 1) = 0

def isSingleBit : Referent → Bool
  | .data (.int n) => hasSingleBit n
  | .data (.bool b) => b
  | _ => false

/-- Whether the value of a flag has exactly one bit, asked of any value. -/
def countsSingleBit (world : World) (value : Referent) : Except Trouble Bool :=
  match value with
  | .data (.int n) => .ok (hasSingleBit n)
  | .data (.bool b) => .ok b
  | .data (.float x) =>
    if x.toInt? = some 0 then .ok false
    else .error (.enumeration (.badIntersection StandardClass.float.name))
  | other => .error (.enumeration (.badDifference (world.typeNameOf (.plain other))))

def Draft.info (draft : Draft) (entries : List Draft.Entry) : EnumerationInfo :=
  let members := entries.filterMap fun
    | .member name value => some (name, value.referent)
    | .alias _ _ => none
  let listed := if draft.areFlags then members.filter fun entry => isSingleBit entry.2 else members
  ⟨draft.basis, members, listed.map (·.1)⟩

namespace Draft

variable (draft : Draft)

/-- The names of a stated order without those of several bits. -/
def keepSingleBits (entries : List Entry) : List Data → Except Trouble (List Data)
  | [] => .ok []
  | item :: rest => do
    requireHashable [item]
    let value := entries.findSome? fun
      | .member name value => if item.sameKey (.str name) then some value.referent else none
      | .alias name target => if item.sameKey (.str name) then
          entries.findSome? fun
            | .member other value => if other = target then some value.referent else none
            | .alias _ _ => none
        else none
    let kept ← value.elim (.ok true) (countsSingleBit draft.world)
    let others ← keepSingleBits entries rest
    return if kept then item :: others else others

/-- Whether a name of a stated order counts: that of a listed member, or of none at all. -/
def counts (entries : List Entry) (listed : List Text) (item : Data) : Bool :=
  let isName (name : Text) := item.sameKey (.str name)
  listed.any isName || !entries.any fun
    | .member name _ | .alias name _ => isName name

def isVoid : ClassAttribute → Bool
  | .plain (.data value) =>
    match value with
    | .none | .bool false => true
    | .str text => (wordsOf text).isEmpty
    | .list items | .tuple items | .set items => items.isEmpty
    | .dict entries => entries.isEmpty
    | .bytes => true
    | value => value.sameKey (.int 0)
  | _ => false

/-- The names that a stated order may hold, compared with the members listed. -/
def checkOrder (entries : List Entry) (listed : List Text) : Except Trouble Unit :=
  match draft.body.attribute? orderName with
  | none => .ok ()
  | some stated => do
    if isVoid stated then return
    let items ← itemsOf draft.world stated
    let items ← if draft.areFlags then keepSingleBits draft entries items else pure items
    if items.isEmpty then return
    requireHashable items
    let items := items.filter (counts entries listed)
    let names : List Data := listed.map .str
    if items != names then
      throw (.enumeration (.order (Data.list names).shown (Data.list items).shown))

def settled (c : ClassRef) (entries : List Entry) : Body :=
  entries.foldl (fun body entry =>
    match entry with
    | .member name _ => body.bind name (.plain (.member c name))
    | .alias name target => body.bind name (.plain (.member c target)))
    (draft.body.without [orderName])

end Draft

def withoutIgnored (body : Body) : Except Trouble Body :=
  match body.table with
  | none => .ok body
  | some table =>
    let ignored := table.ignored.filterMap fun
      | .str name => some name
      | _ => none
    if table.names.contains "mro" then .error (.enumeration (.invalidName "mro"))
    else .ok (body.without (ignoreName :: ignored))

end Specimen.Enumeration
