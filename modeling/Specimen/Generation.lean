import Specimen.Emission.Source
import Specimen.Inference.Infer

/-!
From a JSON sample to source text.
-/
namespace Specimen

/-- The namespace that a call without one uses, unless the options say otherwise. -/
def defaultNamespace : Text := "Generated"

def defaultTypeName : Text := "Root"

/-- What holds for every call. -/
structure Options where
  nameSpace : Text
  style : CodeStyle
  /-- Whether integer and floating-point samples merge into floating-point. -/
  widen : Bool
  /-- Whether source is withheld when samples conflict. -/
  blockOnConflicts : Bool
  deriving DecidableEq, Repr

def Options.standard : Options := ⟨defaultNamespace, .dataclass, true, false⟩

structure Generated where
  source : Text
  typeCount : Nat
  conflicts : List Conflict
  deriving Repr

def Generated.hasConflicts (generated : Generated) : Bool := !generated.conflicts.isEmpty

namespace Options

def inferText (options : Options) (nameSpace : Option Text) (rootName text : Text) :
    Except Failure Inference.Result := do
  Inference.infer options.widen (nameSpace.getD options.nameSpace) rootName (← Json.parse text)

/-- The source of the types of the sample that a text denotes. Both texts have to be encodable. -/
def generate (options : Options) (nameSpace : Option Text) (rootName : Text)
    (style : Option CodeStyle) (text : Text) : Except Failure Generated := do
  orUnencodable (Text.checkEncodable text)
  let nameSpace := nameSpace.getD options.nameSpace
  let result ← options.inferText (some nameSpace) rootName text
  let source ← Inference.orGraphFault
    (Emission.emit result.graph (style.getD options.style) (some nameSpace) (some result.graph.rootName))
  orUnencodable (Text.checkEncodable source)
  return ⟨source, result.graph.records.length, result.conflicts⟩

end Options

end Specimen
