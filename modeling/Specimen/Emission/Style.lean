import Specimen.Text.Basic

/-!
The styles of generated source.
-/
namespace Specimen

inductive CodeStyle where
  | dataclass
  | csharp
  deriving DecidableEq, Repr

def CodeStyle.named : List (Text × CodeStyle) := [("dataclass", .dataclass), ("csharp", .csharp)]

def Emission.indent : Text := "    "

def Emission.unlines (lines : List Text) : Text := List.intercalate [0x0A] lines ++ [0x0A]

end Specimen
