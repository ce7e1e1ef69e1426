import Specimen.Data.Basic

/-!
Equality of plain values: numbers and truth values by their value, lists item by item, dictionaries and
sets in any order.
-/
namespace Specimen.Data

/-- Whether each key of the first list is among those of the second. -/
def keysWithin (first second : List Data) : Bool := first.all fun a => second.any a.sameKey

mutual

def equals : Data → Data → Bool
  | .list s, .list t => equalItems s t
  | .tuple s, .tuple t => equalItems s t
  | .set s, .set t => keysWithin s t && keysWithin t s
  | .dict s, .dict t => s.length == t.length && entriesWithin s t
  | a, b => a.sameKey b

def equalItems : List Data → List Data → Bool
  | [], [] => true
  | a :: s, b :: t => equals a b && equalItems s t
  | _, _ => false

/-- Whether each entry of the first dictionary has an equal one in the second. -/
def entriesWithin : List (Data × Data) → List (Data × Data) → Bool
  | [], _ => true
  | (key, value) :: rest, t =>
    (match t.find? fun entry => key.sameKey entry.1 with
      | some (_, other) => equals value other
      | Option.none => false) && entriesWithin rest t

end

/-- Whether two values are one value of a literal type: equal, and of one type. -/
def sameLiteral (a b : Data) : Bool := a.typeName == b.typeName && a.equals b

def distinctLiterals (values : List Data) : List Data :=
  values.foldl (fun kept v => if kept.any v.sameLiteral then kept else kept ++ [v]) []

end Specimen.Data
