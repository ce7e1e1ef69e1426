import Specimen.Reflection.Library

/-!
Types in full, as reports on misplaced ones write them: with the modules of classes and the names of
generic forms.
-/
namespace Specimen

def typingModule : Text := "typing."

def genericName (origin : StandardClass) : Text :=
  (Library.aliases.findSome? fun
    | .alias name of _ => if of = origin then some name else none
    | _ => none).getD origin.name

def Marker.fullText : Marker → Text
  | .unserialized isInstance =>
    let name := StandardClass.nonSerialized.moduleName ++ "." ++ StandardClass.nonSerialized.name
    if isInstance then "<" ++ name ++ " object>" else "<class '" ++ name ++ "'>"
  | .note text => text.quoted

namespace World

variable (world : World)

/-- A class in full: its module, unless it is a built-in one, and its name. -/
def classText (c : ClassRef) : Text :=
  match world.label c with
  | .other _ => world.className c
  | .text name =>
    if name = StandardClass.builtinModule then world.qualname c else name ++ "." ++ world.qualname c

/-- A union in full, given the texts of its members. One of a type and the absent value is an optional
type. -/
def unionText : List Referent → List Text → Text
  | [a, b], [s, t] =>
    if a.isNoneType then TypeExpr.bracketedText "typing.Optional" [t]
    else if b.isNoneType then TypeExpr.bracketedText "typing.Optional" [s]
    else TypeExpr.bracketedText "typing.Union" [s, t]
  | _, texts => TypeExpr.bracketedText "typing.Union" texts

mutual

def typeText : Referent → Text
  | .data value => value.shown
  | .ellipsis => "..."
  | .cls c => world.classText c
  | .module name => name
  | .form form => typingModule ++ Library.formName form
  | .object c => world.classText c
  | .member c _ => world.classText c
  | .text expr => expr.text.quoted
  | .forward expr _ _ => "ForwardRef(" ++ expr.text.quoted ++ ")"
  | .generic false (.standard origin) args =>
    TypeExpr.bracketedText (typingModule ++ genericName origin) (typeTexts args)
  | .generic _ origin args => TypeExpr.bracketedText (world.classText origin) (typeTexts args)
  | .literal values => TypeExpr.bracketedText "typing.Literal" (values.map Data.shown)
  | .annotated inner markers =>
    TypeExpr.bracketedText "typing.Annotated" (typeText inner :: markers.map Marker.fullText)
  | .classVar inner => TypeExpr.bracketedText "typing.ClassVar" [typeText inner]
  | .final inner => TypeExpr.bracketedText "typing.Final" [typeText inner]
  | .initVar (.cls c) => TypeExpr.bracketedText "dataclasses.InitVar" [world.className c]
  | .initVar inner => TypeExpr.bracketedText "dataclasses.InitVar" [typeText inner]
  | .union true members => List.intercalate " | " (operandTexts members)
  | .union false members => unionText members (typeTexts members)

def typeTexts : List Referent → List Text
  | [] => []
  | d :: rest => typeText d :: typeTexts rest

/-- The operands of bars in full; the absent value's type is written like the value. -/
def operandTexts : List Referent → List Text
  | [] => []
  | d :: rest => (if d.isNoneType then "None" else typeText d) :: operandTexts rest

end

/-- A class as reports show it by itself; enumerations have a form of their own. -/
def shownClass (c : ClassRef) : Text :=
  if c = .standard .any then world.classText c
  else if world.descends c .enum then
    "<" ++ (if world.descends c .flag then ("flag" : Text) else "enum") ++ " " ++
      (world.className c).quoted ++ ">"
  else "<class " ++ (world.classText c).quoted ++ ">"

def argumentText : Referent → Text
  | .cls c => world.shownClass c
  | .ellipsis => "Ellipsis"
  | d => world.typeText d

/-- A type as a report shows it by itself; a string is shown as it is. -/
def shownText : Referent → Text
  | .text expr => expr.text
  | d => world.argumentText d

/-- Several arguments in reports, cut off where they are long. -/
def groupText (args : List Referent) : Text :=
  (("(" : Text) ++ List.intercalate ", " (args.map world.argumentText) ++ ")").take 100

end World

end Specimen
