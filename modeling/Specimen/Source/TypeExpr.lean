import Specimen.Data.Basic

/-!
Type expressions as annotations write them.
-/
namespace Specimen

inductive Marker where
  /-- The mark of members that are never serialized: the class itself, or an instance of it. -/
  | unserialized (isInstance : Bool)
  | note (text : Text)
  deriving DecidableEq, Repr

def Marker.className : Text := "json_butler.NonSerialized"

def Marker.text : Marker → Text
  | .unserialized isInstance => className ++ (if isInstance then ("()" : Text) else [])
  | .note text => text.quoted

inductive TypeExpr where
  | none
  | ellipsis
  /-- A dotted name. -/
  | name (dotted : Text)
  /-- The text of an expression, to be evaluated later. -/
  | quoted (inner : TypeExpr)
  /-- A dotted name with arguments in brackets. -/
  | subscript (head : Text) (args : List TypeExpr)
  | literal (values : List Data)
  | annotated (inner : TypeExpr) (markers : List Marker)
  /-- Operands joined by bars. -/
  | union (operands : List TypeExpr)
  deriving Repr, BEq, Inhabited

namespace TypeExpr

/-- Expressions joined by bars; those of an operand that is itself joined take its place. -/
def bars (operands : List TypeExpr) : TypeExpr :=
  .union (operands.flatMap fun
    | .union inner => inner
    | expr => [expr])

def bracketedText (head : Text) (args : List Text) : Text :=
  head ++ "[" ++ List.intercalate ", " args ++ "]"

mutual

def text : TypeExpr → Text
  | .none => "None"
  | .ellipsis => "..."
  | .name dotted => dotted
  | .quoted inner => (text inner).quoted
  | .subscript head args => bracketedText head (texts args)
  | .literal values => bracketedText "typing.Literal" (values.map Data.shown)
  | .annotated inner markers =>
    bracketedText "typing.Annotated" (text inner :: markers.map Marker.text)
  | .union operands => List.intercalate " | " (texts operands)

def texts : List TypeExpr → List Text
  | [] => []
  | expr :: rest => text expr :: texts rest

end

end TypeExpr

end Specimen
