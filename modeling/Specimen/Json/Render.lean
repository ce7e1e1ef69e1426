import Specimen.Data.Document

/-!
JSON text of plain data: compact, or with every member and item on its own line, two spaces deeper
than its container.
-/
namespace Specimen.Json

/-- How a document is laid out. -/
inductive Formatting where
  | compact
  | indented
  deriving DecidableEq, Repr

def escaped (c : CodePoint) : Text :=
  if c = 0x22 || c = 0x5C then [0x5C, c]
  else if c = 0x08 then "\\b"
  else if c = 0x09 then "\\t"
  else if c = 0x0A then "\\n"
  else if c = 0x0C then "\\f"
  else if c = 0x0D then "\\r"
  else if c < 0x20 then "\\u" ++ Text.hexadecimal 4 c
  else [c]

def stringLiteral (text : Text) : Text := 0x22 :: text.flatMap escaped ++ [0x22]

def floatLiteral : Binary64 → Text
  | .nan => "NaN"
  | .infinite negative => if negative then "-Infinity" else "Infinity"
  | value => value.text

/-- The member name that a key is written as: only texts, numbers, truth values and the absent value are. -/
def nameOf : Data → Except Failure Text
  | .str value => .ok value
  | .none => .ok "null"
  | .bool value => .ok (if value then "true" else "false")
  | .int value => Data.integerText value
  | .float value => .ok (floatLiteral value)
  | key => .error (.unwritableName key.typeName)

def lineBreak (formatting : Formatting) (level : Nat) : Text :=
  match formatting with
  | .compact => []
  | .indented => 0x0A :: List.replicate (2 * level) 0x20

def colonText : Formatting → Text
  | .compact => ":"
  | .indented => ": "

/-- The parts between brackets, each on a line of its own where the layout has lines. -/
def bracketed (formatting : Formatting) (level : Nat) (opening closing : CodePoint)
    (parts : List Text) : Text :=
  if parts.isEmpty then [opening, closing]
  else opening :: lineBreak formatting (level + 1) ++
    List.intercalate (0x2C :: lineBreak formatting (level + 1)) parts ++
    lineBreak formatting level ++ [closing]

mutual

/-- The text of plain data at a nesting level. Other values have none. -/
def renderAt (formatting : Formatting) (level : Nat) : Data → Except Failure Text
  | .none => .ok "null"
  | .bool value => .ok (if value then "true" else "false")
  | .int value => Data.integerText value
  | .float value => .ok (floatLiteral value)
  | .str value => .ok (stringLiteral value)
  | .list items => (renderItems formatting (level + 1) items).map (bracketed formatting level 0x5B 0x5D)
  | .tuple items => (renderItems formatting (level + 1) items).map (bracketed formatting level 0x5B 0x5D)
  | .dict entries =>
    (renderEntries formatting (level + 1) entries).map (bracketed formatting level 0x7B 0x7D)
  | value => .error (.unserializable value.typeName)

def renderItems (formatting : Formatting) (level : Nat) : List Data → Except Failure (List Text)
  | [] => .ok []
  | item :: rest => do
    let first ← renderAt formatting level item
    return first :: (← renderItems formatting level rest)

def renderEntries (formatting : Formatting) (level : Nat) : List (Data × Data) → Except Failure (List Text)
  | [] => .ok []
  | (key, value) :: rest => do
    let name ← nameOf key
    let first ← renderAt formatting level value
    return (stringLiteral name ++ colonText formatting ++ first) :: (← renderEntries formatting level rest)

end

def renderData (formatting : Formatting) (data : Data) : Except Failure Text := renderAt formatting 0 data

def renderNamed {κ : Type} (name : κ → Data) (formatting : Formatting) (value : Value κ) :
    Except Failure Text := do
  renderData formatting (← value.toData name)

def render (formatting : Formatting) (document : Document) : Except Failure Text :=
  renderNamed .str formatting document

end Specimen.Json
