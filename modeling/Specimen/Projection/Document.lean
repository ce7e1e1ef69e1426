import Specimen.Data.Document
import Specimen.Projection.Member

/-!
Representative documents of classes: placeholders for scalars, a nested document for each record, one
item for a collection of records, and nothing in other collections.
-/
namespace Specimen

/-- A document whose member names may be any plain data. -/
abbrev Sample := Json.Value Data

abbrev Sampler := ExceptT Failure (StateM Memory)

namespace World

variable (world : World)

/-- The scalar classes with their placeholders. The first one that a class descends from counts. -/
def placeholders : List (StandardClass × Sample) :=
  [(.bool, .bool false), (.int, .number "0"), (.float, .number "0.0"), (.decimal, .number "0"),
    (.str, .string []), (.bytes, .string []), (.datetime, .string "1970-01-01T00:00:00"),
    (.date, .string "1970-01-01"), (.time, .string "00:00:00"),
    (.uuid, .string "00000000-0000-0000-0000-000000000000")]

def mappingOrigins : List ClassRef := [.standard .dict, .standard .mapping, .standard .mutableMapping]

def scalar? (c : ClassRef) : Option Sample :=
  (placeholders.find? fun entry => world.descends c entry.1).map (·.2)

/-- Whether a class declares annotations or computed attributes itself. -/
def hasOwnMembers (c : ClassRef) : Except Trouble Bool := do
  if world.isBuiltin c then return false
  return !(← world.visibleAnnotations c).isEmpty || !(world.ownProperties c).isEmpty

/-- Whether one of several classes declares annotations or computed attributes itself. -/
def haveMembers : List ClassRef → Except Trouble Bool
  | [] => .ok false
  | c :: rest => do if ← world.hasOwnMembers c then return true else haveMembers rest

def isRecord : Referent → Except Trouble Bool
  | .cls (.declared index) =>
    let c := ClassRef.declared index
    if world.isBuiltin c || world.descends c .enum || (world.scalar? c).isSome then .ok false
    else if world.isDataclass c then .ok true
    else world.haveMembers (world.resolutionOrder c)
  | _ => .ok false

def namedExceptions : List ClassRef :=
  [.standard (.exception .name), .standard (.exception .attribute), .standard (.exception .importing)]

/-- What a class between an enumeration and the class of all enumerations gives its members as an
attribute of their own name or value. Computed attributes give nothing, if they can be read. -/
def memberAttribute? (c : ClassRef) (name : Text) : Except Trouble (Option Referent) :=
  let found : Option (Except Trouble Referent) := (world.resolutionOrder c).findSome? fun k =>
    if namedExceptions.contains k && name = ("name" : Text) then some (.ok .none)
    else match world.ownAttribute? k name with
      | none | some (.plain (.member _ _)) => none
      | some (.property _ true) => some (.ok .none)
      | some (.property _ false) => some (.error (.unreadable name (world.qualname c)))
      | some found => some (.ok found.referent)
  match found with
  | none => .ok none
  | some result => result.map some

def dataSample (value : Data) : Except Failure Sample := do
  return (← value.toDocument).mapNames .str

def labelSample (c : ClassRef) (name : Text) : Except Failure Sample := do
  match ← (world.memberAttribute? c "name").mapError .unreflected with
  | some (.data label) => dataSample label
  | _ => return .string name

/-- The sample of a member of an enumeration: its value if that is a scalar, else its name. -/
def choiceSample (c : ClassRef) (name : Text) (value : Referent) : Except Failure Sample := do
  match ((← (world.memberAttribute? c "value").mapError .unreflected)).getD value with
  | .data value => if value.isScalar then dataSample value else world.labelSample c name
  | _ => world.labelSample c name

def enumerationSample (c : ClassRef) : Except Failure Sample :=
  let info := world.enumeration c
  match info.listed with
  | [] => .ok .null
  | name :: _ => world.choiceSample c name ((List.lookup name info.members).getD .none)

def placeholder (d : Referent) : Except Failure Sample :=
  match d with
  | .literal [] => .error .emptyLiteral
  | .literal (first :: _) => dataSample first
  | .cls c =>
    if mappingOrigins.contains c then .ok (.object [])
    else if world.descends c .enum then world.enumerationSample c
    else .ok ((world.scalar? c).getD .null)
  | _ =>
    if (d.origin?.map mappingOrigins.contains).getD false then .ok (.object []) else .ok .null

def loopRefusal (path : List ClassRef) (c : ClassRef) : Refusal :=
  let names := (path ++ [c]).map world.qualname
  .loop ("Self referencing loop detected for type " ++ world.qualname c ++ ": " ++
    List.intercalate " -> " names) names

def reflecting {α : Type} (step : Evaluator α) : Sampler α := ExceptT.adapt .unreflected step

def memberSample (loops : LoopHandling) (nested : List ClassRef → ClassRef → Sampler Sample)
    (path : List ClassRef) (member : ReflectedMember) : Sampler Sample := do
  match member.type, ← reflecting (world.isRecord member.type) with
  | .cls target, true =>
    if path.contains target then
      match loops with
      | .error => throw (.refusal (world.loopRefusal path target))
      | .ignore => return if member.isCollection then .array [] else .null
    else do
      let sample ← nested (path ++ [target]) target
      return if member.isCollection then .array [sample] else sample
  | type, _ => if member.isCollection then return .array [] else world.placeholder type

def memberSamples (loops : LoopHandling) (nested : List ClassRef → ClassRef → Sampler Sample)
    (path : List ClassRef) : List ReflectedMember → Sampler (List (Data × Sample))
  | [] => return []
  | member :: rest => do
    let first ← world.memberSample loops nested path member
    return (member.jsonName, first) :: (← memberSamples loops nested path rest)

/-- The document of members of the class at the end of a path. Each nested document lengthens the path
by another class, so the number of classes bounds the nesting. -/
def documentFrom (settings : Settings) :
    (fuel : Nat) → List ClassRef → List ReflectedMember → Sampler Sample
  | 0, _, _ => return .null
  | fuel + 1, path, members => do
    let nested (path : List ClassRef) (c : ClassRef) : Sampler Sample := do
      documentFrom settings fuel path (← reflecting (world.reflect settings.visibility c))
    return .object (← world.memberSamples settings.loops nested path members)

def project (settings : Settings) (c : ClassRef) : Except Failure (List ReflectedMember × Sample) :=
  let run : Sampler (List ReflectedMember × Sample) := do
    let members ← reflecting (world.reflect settings.visibility c)
    return (members, ← world.documentFrom settings (world.classes.length + 2) [c] members)
  (run.run.run world.memory).1

end World

def Sample.render (formatting : Json.Formatting) (sample : Sample) : Except Failure Text :=
  Json.renderNamed id formatting sample

end Specimen
