import Specimen.Projection.Document
import Specimen.Resolution.Handle

/-!
From a class to a representative JSON document.
-/
namespace Specimen

/-- The text of a document with what it was made from. -/
structure Serialized where
  text : Text
  qualifiedName : Text
  memberCount : Nat
  /-- The rules that were used, which those asked for may not be. -/
  settings : Settings
  deriving Repr

namespace Handle

/-- A handle with its class. There may be no handle, and a handle may have none. -/
def require : Option Handle → Except Failure (Handle × ClassRef)
  | none => .error (.refusal (.resolution "No reflectable type for None" none))
  | some handle =>
    match handle.type with
    | some c => .ok (handle, c)
    | none =>
      .error (.refusal (.resolution ("No reflectable type for " ++ handle.qualifiedName)
        (some handle.qualifiedName)))

end Handle

namespace World

variable (world : World)

def reflectHandle (settings : Settings) (handle : Option Handle) :
    Except Failure (List ReflectedMember) := do
  let (handle, c) ← Handle.require handle
  let reflection := world.reflect (settings.forType handle.isBuilt).visibility c
  (reflection.run.run world.memory).1.mapError .unreflected

/-- The representative document of a handle's class, as text that can be encoded. -/
def serialize (settings : Settings) (handle : Option Handle) : Except Failure Serialized := do
  let (handle, c) ← Handle.require handle
  let settings := settings.forType handle.isBuilt
  let (members, sample) ← world.project settings c
  let text ← Sample.render settings.formatting sample
  orUnencodable (Text.checkEncodable text)
  return ⟨text, handle.qualifiedName, members.length, settings⟩

end World

end Specimen
