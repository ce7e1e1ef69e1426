import Specimen.Failure
import Specimen.Schema.Record

/-!
Graphs of record types: the types in the order they were added, and the name of the root.
-/
namespace Specimen

inductive GraphFault where
  | duplicateName (name : Text)
  | unresolved (name : Text)
  /-- A field of `owner` leads to a type that the graph does not hold. -/
  | unknownReference (owner name : Text)
  deriving DecidableEq, Repr

def GraphFault.refusal : GraphFault → Refusal
  | .duplicateName name => .graph ("Duplicate schema name: " ++ name)
  | .unresolved name => .graph ("Unresolved type reference: " ++ name)
  | .unknownReference owner name =>
    .graph ("Field of " ++ owner ++ " references unknown type " ++ name)

structure TypeGraph where
  rootName : Text
  nameSpace : Text
  rootIsArray : Bool
  records : List RecordType
  deriving DecidableEq, Repr

namespace TypeGraph

def empty (rootName nameSpace : Text) (rootIsArray : Bool) : TypeGraph :=
  ⟨rootName, nameSpace, rootIsArray, []⟩

def find? (graph : TypeGraph) (name : Text) : Option RecordType :=
  graph.records.find? (·.name = name)

def contains (graph : TypeGraph) (name : Text) : Bool := (graph.find? name).isSome

def resolve (graph : TypeGraph) (name : Text) : Except GraphFault RecordType :=
  match graph.find? name with
  | some record => .ok record
  | none => .error (.unresolved name)

def findFingerprint? (graph : TypeGraph) (fingerprint : Text) : Option RecordType :=
  graph.records.find? (·.fingerprint = fingerprint)

def add (graph : TypeGraph) (record : RecordType) : Except GraphFault TypeGraph :=
  if graph.contains record.name then .error (.duplicateName record.name)
  else .ok { graph with records := graph.records ++ [record] }

def checkDependencies (graph : TypeGraph) (owner : Text) :
    List Text → Except GraphFault Unit
  | [] => .ok ()
  | name :: rest =>
    if graph.contains name then checkDependencies graph owner rest
    else .error (.unknownReference owner name)

def checkRecords (graph : TypeGraph) : List RecordType → Except GraphFault Unit
  | [] => .ok ()
  | record :: rest => do
    checkDependencies graph record.name record.dependencies
    checkRecords graph rest

def validate (graph : TypeGraph) : Except GraphFault Unit := do
  let _ ← graph.resolve graph.rootName
  checkRecords graph graph.records

/-- The names met by a walk and the types it has listed. -/
structure Walk where
  visited : List Text
  ordered : List RecordType
  deriving DecidableEq, Repr

def visitEach (step : Text → Walk → Except GraphFault Walk) :
    List Text → Walk → Except GraphFault Walk
  | [], walk => .ok walk
  | name :: rest, walk => do visitEach step rest (← step name walk)

/-- The walk after visiting a type: its dependencies first, then the type. Every nested visit meets a
new name of the graph, which bounds the nesting. -/
def visit (graph : TypeGraph) : (fuel : Nat) → Text → Walk → Except GraphFault Walk
  | 0, _, walk => .ok walk
  | fuel + 1, name, walk =>
    if walk.visited.contains name then .ok walk
    else do
      let record ← graph.resolve name
      let walk ← visitEach (visit graph fuel) record.dependencies
        ⟨name :: walk.visited, walk.ordered⟩
      return ⟨walk.visited, walk.ordered ++ [record]⟩

/-- The types in an order that lists dependencies before what needs them: a depth-first walk from the
root, then from every type in the order of addition. -/
def dependencyOrder (graph : TypeGraph) : Except GraphFault (List RecordType) := do
  let names := graph.rootName :: graph.records.map (·.name)
  return (← visitEach (graph.visit (graph.records.length + 1)) names ⟨[], []⟩).ordered

end TypeGraph

end Specimen
