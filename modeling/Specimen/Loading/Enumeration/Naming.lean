import Specimen.Loading.Body
import Specimen.Reflection.TypeText
import Specimen.Text.Blank

/-!
Binding names in the body of an enumeration. What is neither a function nor a computed attribute becomes
a member under an ordinary name, and the name of a member is bound once.
-/
namespace Specimen.Enumeration

/-- The part that a name of the body plays. -/
inductive NameKind where
  /-- A private name of the class. -/
  | hidden
  /-- A name between single underscores. -/
  | reserved
  /-- A name between double underscores. -/
  | special
  | ordinary
  deriving DecidableEq, Repr

private def isScore (c : Option CodePoint) : Bool := c = some 0x5F

def kindOf (className name : Text) : NameKind :=
  let start := "_" ++ className ++ "__"
  let back := name.reverse
  if start.length < name.length && name.startsWith start && !name.endsWith "__" then .hidden
  else if 2 < name.length && isScore name[0]? && isScore back[0]? && !isScore name[1]? &&
      !isScore back[1]? then .reserved
  else if 4 < name.length && name.startsWith "__" && name.endsWith "__" && !isScore name[2]? &&
      !isScore back[2]? then .special
  else .ordinary

def ignoreName : Text := "_ignore_"

def orderName : Text := "_order_"

def permitted : List Text :=
  [orderName, "_generate_next_value_", "_numeric_repr_", "_missing_", ignoreName, "_iter_member_",
    "_iter_member_by_value_", "_iter_member_by_def_"]

def wordsOf (text : Text) : List Text :=
  ((text.map fun c => if c = 0x2C || Text.isBlank c then 0x20 else c).splitOn 0x20).filter (!·.isEmpty)

/-- What a class binds a method's name to. A dataclass has a method of its own that new objects are
handed to. -/
def method? (world : World) (name : Text) (c : ClassRef) : Option (ClassRef × ClassAttribute) :=
  let made : Option ClassAttribute :=
    if name = initializerName && (world.ownFields? c).isSome then
      some (.plain (.object (.standard .function))) else none
  ((world.ownAttribute? c name).or made).map fun found => (c, found)

def nearestMethod? (world : World) (stops : StandardClass → Bool) (name : Text) (order : List ClassRef) :
    Option (ClassRef × ClassAttribute) :=
  let front := order.takeWhile fun
    | .standard s => !stops s
    | .declared _ => true
  front.findSome? (method? world name)

/-- What a call of something that takes its object only gives, with so many arguments. -/
def call (world : World) (name owner : Text) (given : Nat) : ClassAttribute → Except Trouble Unit
  | .plain (.object (.standard .function)) =>
    if given ≤ 1 then .ok () else .error (.extraArguments (owner ++ "." ++ name) given)
  | .plain (.cls _) => .ok ()
  | .property _ _ => .error (.notCallable StandardClass.noneType.name)
  | found => .error (.notCallable (world.typeNameOf found))

/-- The items of a value that can be gone through; a text gives its words. -/
def itemsOf (world : World) (value : ClassAttribute) : Except Trouble (List Data) :=
  match value with
  | .plain (.data (.str text)) => .ok ((wordsOf text).map .str)
  | .plain (.data (.list items)) | .plain (.data (.tuple items)) | .plain (.data (.set items)) => .ok items
  | .plain (.data (.dict entries)) => .ok (entries.map (·.1))
  | .plain (.data .bytes) => .ok []
  | .plain (.cls c) =>
    if world.descends c .enum then .ok [] else .error (.conversion (.notIterable (world.typeNameOf value)))
  | _ => .error (.conversion (.notIterable (world.typeNameOf value)))

def requireHashable (items : List Data) : Except Trouble Unit :=
  match Data.unhashableItem? items with
  | some typeName => .error (.conversion (.unhashable typeName))
  | none => .ok ()

def shown (world : World) : ClassAttribute → Text
  | .plain (.data value) => value.shown
  | .plain (.cls c) => world.shownClass c
  | value => "<" ++ world.typeNameOf value ++ " object>"

/-- Whether access to an attribute goes through the value itself: functions and computed attributes. -/
def isDescriptor (world : World) : ClassAttribute → Bool
  | .property _ _ => true
  | .plain (.object (.standard .function)) => true
  | .plain (.cls c) => (["__get__", "__set__", "__delete__"] : List Text).any fun name =>
      (world.select (.cls c) name).isOk
  | _ => false

def ignore (world : World) (body : Body) (table : MemberTable) (value : ClassAttribute) :
    Except Trouble Body := do
  let items ← itemsOf world value
  requireHashable items
  match table.names.filter fun name => items.any (·.sameKey (.str name)) with
  | [] =>
    return { body.bind ignoreName (.plain (.data (.list items))) with
      table := some { table with ignored := items } }
  | names => throw (.enumeration (.ignoredMembers names))

def bind (world : World) (className : Text) (body : Body) (table : MemberTable) (name : Text)
    (value : ClassAttribute) : Except Trouble Body :=
  let redefined (found : ClassAttribute) : Except Trouble Body :=
    .error (.enumeration (.redefined name (shown world found)))
  match kindOf className name with
  | .hidden => .ok (body.bind name value)
  | .reserved =>
    if !permitted.contains name then .error (.enumeration (.reservedName name))
    else if name = ignoreName then ignore world body table value
    else .ok (body.bind name value)
  | .special => .ok (body.bind (if name = ("__order__" : Text) then orderName else name) value)
  | .ordinary =>
    match body.attribute? name, table.names.contains name with
    | some found, true => redefined found
    | found, _ =>
      if table.ignored.any (·.sameKey (.str name)) || isDescriptor world value then
        .ok (body.bind name value)
      else match found with
        | some earlier => redefined earlier
        | none =>
          .ok { body.bind name value with table := some { table with names := table.names ++ [name] } }

end Specimen.Enumeration
