import Specimen.Generation
import Specimen.Loading.Own
import Specimen.Serialization

/-!
From a JSON sample to types and back to a document: the generated dataclasses are loaded as a module, in
which the root type can be reflected.
-/
namespace Specimen

/-- The root type of a type graph, loaded as a class. -/
structure LoadedRoot where
  world : World
  /-- The class under the name of the root type, if the module binds it to one. -/
  type : Option ClassRef
  deriving Repr

/-- The root type of generated dataclasses, loaded under the name of a module. -/
def TypeGraph.load (graph : TypeGraph) (moduleName : Text) : Except GraphFault LoadedRoot := do
  let source := Emission.dataclassModule moduleName (← graph.dependencyOrder)
  let (_, world) := (Loading.enterModule (fun _ => return ()) source).run.run Own.world
  return ⟨world, (List.lookup graph.rootName (world.namesOf moduleName)).bind Resolver.asClass⟩

def LoadedRoot.handle (root : LoadedRoot) (name : Text) : Handle := ⟨name, root.type, true, none⟩

/-- The types of a sample as source, and the root type that the source declares. -/
def Options.generateAndLoad (options : Options) (nameSpace : Option Text)
    (rootName moduleName text : Text) : Except Failure (Generated × LoadedRoot) := do
  let generated ← options.generate nameSpace rootName (some .dataclass) text
  let result ← options.inferText nameSpace rootName text
  return (generated, ← Inference.orGraphFault (result.graph.load moduleName))

end Specimen
