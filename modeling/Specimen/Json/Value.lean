import Specimen.Text.Basic
import Specimen.Number.Numeral

/-!
JSON values. Numbers keep their literal text and objects keep the order of their members; the type of
member names is a parameter, since the names of a projected document need not be texts.
-/
namespace Specimen.Json

/-- A JSON value whose objects have names of type `κ`. -/
inductive Value (κ : Type) where
  | null
  | bool (value : Bool)
  | number (literal : Text)
  | string (value : Text)
  | array (items : List (Value κ))
  | object (members : List (κ × Value κ))
  deriving Repr, BEq, Inhabited

abbrev Document := Value Text

def integralMin : Int := -9223372036854775808

def integralMax : Int := 9223372036854775807

inductive Number where
  | int (value : Int)
  | float (value : Binary64)
  deriving DecidableEq, Repr

/-- The integer that a literal without point and exponent denotes within signed 64 bits. -/
def integral? (literal : Text) : Option Int :=
  if literal.any fun c => c = '.' || c = 'e' || c = 'E' then none
  else match Numeral.readInteger literal with
    | .ok value => if integralMin ≤ value && value ≤ integralMax then some value else none
    | .error _ => none

def isIntegral (literal : Text) : Bool := (integral? literal).isSome

/-- The number that a literal denotes: an integer where it is integral, a floating-point number
otherwise. -/
def Number.ofLiteral (literal : Text) : Option Number :=
  match integral? literal with
  | some value => some (.int value)
  | none => (Numeral.readFloat literal).map .float

namespace Value

variable {κ : Type}

mutual

def depth : Value κ → Nat
  | .array items => 1 + depthOfItems items
  | .object members => 1 + depthOfMembers members
  | _ => 0

def depthOfItems : List (Value κ) → Nat
  | [] => 0
  | item :: rest => max (depth item) (depthOfItems rest)

def depthOfMembers : List (κ × Value κ) → Nat
  | [] => 0
  | (_, value) :: rest => max (depth value) (depthOfMembers rest)

end

mutual

def mapNames {μ : Type} (f : κ → μ) : Value κ → Value μ
  | .null => .null
  | .bool value => .bool value
  | .number literal => .number literal
  | .string value => .string value
  | .array items => .array (mapNamesItems f items)
  | .object members => .object (mapNamesMembers f members)

def mapNamesItems {μ : Type} (f : κ → μ) : List (Value κ) → List (Value μ)
  | [] => []
  | item :: rest => mapNames f item :: mapNamesItems f rest

def mapNamesMembers {μ : Type} (f : κ → μ) : List (κ × Value κ) → List (μ × Value μ)
  | [] => []
  | (name, value) :: rest => (f name, mapNames f value) :: mapNamesMembers f rest

end

def names (members : List (κ × Value κ)) : List κ := members.map (·.1)

def get? [BEq κ] (members : List (κ × Value κ)) (name : κ) : Option (Value κ) :=
  (members.find? (·.1 == name)).map (·.2)

end Value

/-- The entries with a value put at a key: in the key's place, or at the end. -/
def put {κ α : Type} [BEq κ] (key : κ) (value : α) : List (κ × α) → List (κ × α)
  | [] => [(key, value)]
  | (k, v) :: rest => if k == key then (k, value) :: rest else (k, v) :: put key value rest

/-- The entries put one after the other: each key once, at its first place, with its last value. -/
def collapse {κ α : Type} [BEq κ] (entries : List (κ × α)) : List (κ × α) :=
  entries.foldl (fun kept entry => put entry.1 entry.2 kept) []

namespace Value

mutual

/-- The document with each name once in every object, at its first place and with its last value. -/
def dedupe : Document → Document
  | .array items => .array (dedupeItems items)
  | .object members => .object (collapse (dedupeMembers members))
  | .null => .null
  | .bool value => .bool value
  | .number literal => .number literal
  | .string value => .string value

def dedupeItems : List Document → List Document
  | [] => []
  | item :: rest => dedupe item :: dedupeItems rest

def dedupeMembers : List (Text × Document) → List (Text × Document)
  | [] => []
  | (name, value) :: rest => (name, dedupe value) :: dedupeMembers rest

end

end Value

end Specimen.Json
