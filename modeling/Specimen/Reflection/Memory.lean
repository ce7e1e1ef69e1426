import Specimen.Reflection.Comparison

/-!
What is remembered of types. A form of the typing module that is asked for again, with arguments equal to
earlier ones, gives the type that it gave first, whatever the order of members in it; and a forward
reference knows what it was last found to denote.
-/
namespace Specimen

structure MadeType where
  form : TypingForm
  args : List Referent
  markers : List Marker
  type : Referent
  deriving Repr

/-- The types made so far, the first one first, and what was found for each forward reference. Those are
numbered in the order of their creation. -/
structure Memory where
  types : List MadeType
  found : List (Option Referent)
  deriving Repr, Inhabited

def Referent.sameKind : Referent → Referent → Bool
  | .union native _, .union native' _ => native == native'
  | .data a, .data b => a.typeName == b.typeName
  | _, _ => true

/-- Whether arguments of a form are of one kind, where the form tells kinds apart. -/
def TypingForm.sameKinds (form : TypingForm) (args args' : List Referent) : Bool :=
  (form != .annotated && form != .literal) ||
    (args.zip args').all fun pair => pair.1.sameKind pair.2

namespace Memory

def empty : Memory := ⟨[], []⟩

variable (memory : Memory)

def found? (number : Nat) : Option Referent := (memory.found[number]?).join

/-- Whether forward references with one text are equal: where both were found to denote something, that
has to be equal. -/
def agree (i j : Nat) : Bool :=
  match memory.found? i, memory.found? j with
  | some a, some b => i == j || a.same b
  | _, _ => true

def madeBefore? (form : TypingForm) (args : List Referent) (markers : List Marker) : Option Referent :=
  (memory.types.find? fun made =>
    made.form == form && Referent.sameList memory.agree made.args args &&
      form.sameKinds made.args args && Referent.sameMarkers made.markers markers).map (·.type)

def keep (made : MadeType) : Memory := { memory with types := memory.types ++ [made] }

def refer : Memory := { memory with found := memory.found ++ [none] }

/-- The memory after a forward reference has been found to denote something. -/
def settle (number : Nat) (d : Referent) : Memory :=
  { memory with found := memory.found.set number (some d) }

end Memory

end Specimen
