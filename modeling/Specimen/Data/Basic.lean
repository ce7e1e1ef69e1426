import Specimen.Json.Value
import Specimen.Number.Shortest
import Specimen.Text.Quoted

/-!
Plain data: what a JSON document is made from and read into, and what literals, defaults, enumeration
values and field metadata hold.
-/
namespace Specimen

/-- Texts between round brackets; a single one is followed by a comma. -/
def tupleText : List Text → Text
  | [part] => "(" ++ part ++ ",)"
  | parts => "(" ++ List.intercalate ", " parts ++ ")"

namespace Json.Value

def typeName : Document → Text
  | .null => "JsonNull"
  | .bool _ => "JsonBool"
  | .number _ => "JsonNumber"
  | .string _ => "JsonString"
  | .array _ => "JsonArray"
  | .object _ => "JsonObject"

def fieldText (document : Document) (field value : Text) : Text :=
  document.typeName ++ "(" ++ field ++ "=" ++ value ++ ")"

mutual

def shown (document : Document) : Text :=
  match document with
  | .null => document.typeName ++ "()"
  | .bool value => document.fieldText "value" (if value then "True" else "False")
  | .number literal => document.fieldText "literal" literal.quoted
  | .string value => document.fieldText "value" value.quoted
  | .array items => document.fieldText "items" (tupleText (shownItems items))
  | .object members => document.fieldText "members" (tupleText (shownMembers members))

def shownItems : List Document → List Text
  | [] => []
  | item :: rest => shown item :: shownItems rest

def shownMembers : List (Text × Document) → List Text
  | [] => []
  | (name, value) :: rest => tupleText [name.quoted, shown value] :: shownMembers rest

end

end Json.Value

/-- A plain value. Dictionaries keep the order of their entries. -/
inductive Data where
  | none
  | bool (value : Bool)
  | int (value : Int)
  | float (value : Binary64)
  | str (value : Text)
  | list (items : List Data)
  | tuple (items : List Data)
  | set (items : List Data)
  | bytes
  | dict (entries : List (Data × Data))
  /-- A document that stands for itself. -/
  | document (value : Json.Document)
  deriving Repr, BEq, Inhabited

namespace Data

def typeName : Data → Text
  | .none => "NoneType"
  | .bool _ => "bool"
  | .int _ => "int"
  | .float _ => "float"
  | .str _ => "str"
  | .list _ => "list"
  | .tuple _ => "tuple"
  | .set _ => "set"
  | .bytes => "bytes"
  | .dict _ => "dict"
  | .document value => value.typeName

def integer? : Data → Option Int
  | .bool value => some (if value then 1 else 0)
  | .int value => some value
  | .float value => value.toInt?
  | _ => Option.none

mutual

/-- Whether two values are the same dictionary key: numbers and truth values by their value, the
absent number never. -/
def sameKey : Data → Data → Bool
  | .none, .none => true
  | .bytes, .bytes => true
  | .str s, .str t => s == t
  | .tuple s, .tuple t => sameKeys s t
  | .document s, .document t => s == t
  | .float .nan, _ => false
  | .float (.infinite a), .float (.infinite b) => a == b
  | .float x, .float y =>
    match x.toInt?, y.toInt? with
    | some a, some b => a == b
    | Option.none, Option.none => x == y
    | _, _ => false
  | a, b =>
    match integer? a, integer? b with
    | some m, some n => m == n
    | _, _ => false

def sameKeys : List Data → List Data → Bool
  | [], [] => true
  | a :: s, b :: t => sameKey a b && sameKeys s t
  | _, _ => false

end

def isScalar : Data → Bool
  | .bool _ | .int _ | .float _ | .str _ => true
  | _ => false

def hasHash : Data → Bool
  | .list _ | .set _ | .dict _ => false
  | _ => true

mutual

/-- The type of the first part that keeps the value from being a dictionary key. A tuple is as good a key
as its items are. -/
def unhashable? : Data → Option Text
  | .tuple items => unhashableItem? items
  | value => if value.hasHash then Option.none else some value.typeName

def unhashableItem? : List Data → Option Text
  | [] => Option.none
  | item :: rest => (unhashable? item).or (unhashableItem? rest)

end

def isHashable (value : Data) : Bool := value.unhashable?.isNone

/-- Whether the value counts as true: all but the absent value, zeros and what is empty. -/
def isTrue : Data → Bool
  | .none | .bytes => false
  | .bool value => value
  | .str text => !text.isEmpty
  | .list items | .tuple items | .set items => !items.isEmpty
  | .dict entries => !entries.isEmpty
  | .document (.array items) => !items.isEmpty
  | .document (.object members) => !members.isEmpty
  | .document _ => true
  | number => integer? number != some 0

/-- The entries with a value put at a key, in the key's place or at the end. -/
def putEntry (key value : Data) : List (Data × Data) → List (Data × Data)
  | [] => [(key, value)]
  | (k, v) :: rest =>
    if sameKey k key then (k, value) :: rest else (k, v) :: putEntry key value rest

def ofEntries (entries : List (Data × Data)) : Data :=
  .dict (entries.foldl (fun kept entry => putEntry entry.1 entry.2 kept) [])

mutual

def shown : Data → Text
  | .none => "None"
  | .bool value => if value then "True" else "False"
  | .int value => Text.ofInt value
  | .float value => value.text
  | .str value => value.quoted
  | .list items => "[" ++ List.intercalate ", " (shownItems items) ++ "]"
  | .tuple items => tupleText (shownItems items)
  | .set [] => "set()"
  | .set items => "\x7b" ++ List.intercalate ", " (shownItems items) ++ "\x7d"
  | .bytes => "b''"
  | .dict entries => "\x7b" ++ List.intercalate ", " (shownEntries entries) ++ "\x7d"
  | .document value => value.shown

def shownItems : List Data → List Text
  | [] => []
  | item :: rest => shown item :: shownItems rest

def shownEntries : List (Data × Data) → List Text
  | [] => []
  | (key, value) :: rest => (shown key ++ ": " ++ shown value) :: shownEntries rest

end

def text : Data → Text
  | .str value => value
  | value => value.shown

def IsPrintable (value : Int) : Prop := (Text.ofNat value.natAbs).length ≤ Numeral.digitLimit

instance : DecidablePred IsPrintable := fun _ => inferInstanceAs (Decidable (_ ≤ _))

mutual

/-- Whether every integer in a value has few enough digits to be written. -/
def isPrintable : Data → Bool
  | .int value => decide (IsPrintable value)
  | .list items | .tuple items | .set items => arePrintable items
  | .dict entries => havePrintable entries
  | _ => true

def arePrintable : List Data → Bool
  | [] => true
  | item :: rest => isPrintable item && arePrintable rest

def havePrintable : List (Data × Data) → Bool
  | [] => true
  | (key, value) :: rest => isPrintable key && isPrintable value && havePrintable rest

end

end Data

end Specimen
