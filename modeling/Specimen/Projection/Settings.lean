import Specimen.Json.Render

/-!
The rules of a projection.
-/
namespace Specimen

/-- Which members of a type are visible. -/
inductive Visibility where
  /-- Own members, and inherited ones of the same root package. -/
  | declaredOnly
  /-- Own members. -/
  | resolvedDynamic
  deriving DecidableEq, Repr

/-- What becomes of a type reached again from itself. -/
inductive LoopHandling where
  | ignore
  | error
  deriving DecidableEq, Repr

structure Settings where
  visibility : Visibility
  loops : LoopHandling
  formatting : Json.Formatting
  deriving DecidableEq, Repr

def Visibility.named : List (Text × Visibility) :=
  [("declared-only", .declaredOnly), ("resolved-dynamic", .resolvedDynamic)]

def LoopHandling.named : List (Text × LoopHandling) := [("ignore", .ignore), ("error", .error)]

def Json.Formatting.named : List (Text × Json.Formatting) :=
  [("compact", .compact), ("indented", .indented)]

def Settings.standard : Settings := ⟨.declaredOnly, .ignore, .indented⟩

/-- The rules for a type, which of an unbuilt one show the own members only. -/
def Settings.forType (settings : Settings) (isBuilt : Bool) : Settings :=
  if isBuilt then settings else { settings with visibility := .resolvedDynamic }

end Specimen
