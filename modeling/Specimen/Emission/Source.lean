import Specimen.Emission.Csharp
import Specimen.Emission.Dataclass

/-!
The source text of a type graph: the types in dependency order, in one of the styles.
-/
namespace Specimen.Emission

/-- The source of a graph. A namespace or a root name left out is the graph's own. -/
def emit (graph : TypeGraph) (style : CodeStyle) (nameSpace rootName : Option Text) :
    Except GraphFault Text := do
  graph.validate
  let nameSpace := nameSpace.getD graph.nameSpace
  let records ← graph.dependencyOrder
  match style with
  | .csharp => return csharpSource records nameSpace
  | .dataclass =>
    let rootName := match rootName with
      | some (c :: rest) => c :: rest
      | _ => graph.rootName
    return dataclassSource records nameSpace rootName graph.rootIsArray

end Specimen.Emission
