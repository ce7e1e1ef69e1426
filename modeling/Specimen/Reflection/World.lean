import Specimen.Reflection.Memory
import Specimen.Source.Basic

/-!
The classes and modules that have been loaded so far.
-/
namespace Specimen

abbrev Bindings := List (Text × Referent)

/-- What a name of a class body is bound to. -/
inductive ClassAttribute where
  | plain (value : Referent)
  /-- A field specification. -/
  | specified (metadata : List (Data × Data)) (defaultsToNone : Bool)
  /-- A computed attribute with the annotation of its result. -/
  | property (type : Option Referent) (readable : Bool)
  deriving Repr, Inhabited

def ClassAttribute.referent : ClassAttribute → Referent
  | .plain value => value
  | .specified _ _ => .object (.standard .fieldSpec)
  | .property _ _ => .object (.standard .property)

def ClassAttribute.isProperty : ClassAttribute → Bool
  | .property _ _ => true
  | _ => false

def ClassAttribute.isSpecification : ClassAttribute → Bool
  | .specified _ _ => true
  | _ => false

def ClassAttribute.isTrue : ClassAttribute → Bool
  | .plain (.data value) => value.isTrue
  | _ => true

/-- The type of what keeps a bound value from being a dictionary key. -/
def ClassAttribute.unhashable? : ClassAttribute → Option Text
  | .plain (.data value) => value.unhashable?
  | _ => none

/-- The part that a field of a dataclass plays. -/
inductive FieldRole where
  | regular
  | classVariable
  | initVariable
  deriving DecidableEq, Repr, Inhabited

structure DataField where
  name : Text
  role : FieldRole
  metadata : List (Data × Data)
  deriving Repr, Inhabited

structure EnumerationInfo where
  /-- The class that makes the members' values; without one they are what they were written as. -/
  basis : Option ClassRef
  /-- The members with their values, aliases left out. -/
  members : Bindings
  /-- The names of the members that belong to the enumeration's own list. -/
  listed : List Text
  deriving Repr, Inhabited

/-- How the objects of a class are laid out. -/
structure Layout where
  /-- The class above it, or itself, that last added something of its own to the objects. -/
  core : ClassRef
  /-- Whether objects take attributes of any name. -/
  hasDictionary : Bool
  /-- Whether objects can be referred to weakly. -/
  hasWeakness : Bool
  deriving Repr, Inhabited

inductive ModuleLabel where
  | text (name : Text)
  /-- Something that is no text. -/
  | other (value : ClassAttribute)
  deriving Repr, Inhabited

def ModuleLabel.name : ModuleLabel → Text
  | .text name => name
  | .other _ => []

def ModuleLabel.isTrue : ModuleLabel → Bool
  | .text name => !name.isEmpty
  | .other value => value.isTrue

/-- What a class body keeps as its annotations. -/
inductive Annotations where
  | table (entries : Bindings)
  /-- The absent value has taken the place of the table. -/
  | absent
  /-- Something else has taken the place of the table. -/
  | replaced (value : ClassAttribute)
  deriving Repr, Inhabited

def Annotations.entries : Annotations → Bindings
  | .table entries => entries
  | _ => []

/-- A class that a module declared. Annotations are in the order of their first appearance, and so are
attributes; `fields` is there if the class itself was made a dataclass. -/
structure ClassInfo where
  name : Text
  qualname : Text
  /-- The module that the class says it belongs to. -/
  label : ModuleLabel
  /-- The module that declared the class. -/
  home : Text
  ancestors : List ClassRef
  layout : Layout
  annotations : Annotations
  attributes : List (Text × ClassAttribute)
  fields : Option (List DataField)
  /-- What the class is as an enumeration, if it is one. -/
  enumeration : Option EnumerationInfo
  deriving Repr, Inhabited

structure LoadedModule where
  name : Text
  names : Bindings
  isComplete : Bool
  deriving Repr, Inhabited

/-- All that has been loaded. Classes are numbered in the order of their creation. -/
structure World where
  classes : List ClassInfo
  modules : List LoadedModule
  memory : Memory
  deriving Repr, Inhabited

def makerName : Text := "__new__"

def initializerName : Text := "__init__"

def fieldsName : Text := "__dataclass_fields__"

/-- What a class keeps under the name of the fields of a dataclass. -/
inductive FieldTable where
  | known (fields : List DataField)
  /-- What the class body itself binds to the name. -/
  | other (value : ClassAttribute)
  deriving Repr, Inhabited

namespace World

variable (world : World)

def module? (name : Text) : Option LoadedModule := world.modules.find? (·.name = name)

/-- The names of a module; none if it is not loaded. -/
def namesOf (name : Text) : Bindings := ((world.module? name).map (·.names)).getD []

def info? : ClassRef → Option ClassInfo
  | .standard _ => none
  | .declared index => world.classes[index]?

def className (c : ClassRef) : Text :=
  match c with
  | .standard s => s.name
  | .declared _ => ((world.info? c).map (·.name)).getD []

/-- The name of a class, after those of the classes around it. -/
def qualname (c : ClassRef) : Text :=
  match c with
  | .standard s => s.name
  | .declared _ => ((world.info? c).map (·.qualname)).getD []

def label (c : ClassRef) : ModuleLabel :=
  match c with
  | .standard s => .text s.moduleName
  | .declared _ => ((world.info? c).map (·.label)).getD (.text [])

/-- The module of a class; empty if that is no text. -/
def moduleName (c : ClassRef) : Text := (world.label c).name

def home (c : ClassRef) : Text :=
  match c with
  | .standard s => s.moduleName
  | .declared _ => ((world.info? c).map (·.home)).getD []

def isBuiltin (c : ClassRef) : Bool := world.moduleName c = StandardClass.builtinModule

def resolutionOrder (c : ClassRef) : List ClassRef :=
  match c with
  | .standard s => s.resolutionOrder.map .standard
  | .declared _ => c :: ((world.info? c).map (·.ancestors)).getD []

def descends (c : ClassRef) (ancestor : StandardClass) : Bool :=
  (world.resolutionOrder c).contains (.standard ancestor)

def ownAnnotations (c : ClassRef) : Annotations :=
  ((world.info? c).map (·.annotations)).getD (.table [])

def identifierNames : List Text :=
  Text.words ("bytes bytes_le fields time_low time_mid time_hi_version clock_seq_hi_variant " ++
    "clock_seq_low time clock_seq node hex urn variant version")

/-- The attributes that a class declares itself. Of a standard class only computed ones that are written
in the language itself are told. -/
def ownAttributes (c : ClassRef) : List (Text × ClassAttribute) :=
  match c with
  | .standard .uuid => identifierNames.map fun name => (name, .property none true)
  | _ => ((world.info? c).map (·.attributes)).getD []

def ownAttribute? (c : ClassRef) (name : Text) : Option ClassAttribute :=
  List.lookup name (world.ownAttributes c)

/-- The members of an enumeration; a class that is none has none. -/
def enumeration (c : ClassRef) : EnumerationInfo :=
  ((world.info? c).bind (·.enumeration)).getD ⟨none, [], []⟩

def ownFields? (c : ClassRef) : Option (List DataField) := (world.info? c).bind (·.fields)

def makesObjects (c : ClassRef) : Bool :=
  match c with
  | .standard s => s.makesObjects
  | .declared _ => (world.ownAttribute? c makerName).isSome

/-- What a class itself keeps under the name of the fields of a dataclass. -/
def ownFieldTable? (c : ClassRef) : Option FieldTable :=
  match world.ownFields? c with
  | some fields => some (.known fields)
  | none => (world.ownAttribute? c fieldsName).map .other

/-- What a class or the nearest class above it keeps under the name of the fields of a dataclass. -/
def fieldTable? (c : ClassRef) : Option FieldTable :=
  (world.resolutionOrder c).findSome? world.ownFieldTable?

def isDataclass (c : ClassRef) : Bool := (world.fieldTable? c).isSome

mutual

def describe : Referent → Text
  | .data value => value.shown
  | .ellipsis => "..."
  | .cls c => world.qualname c
  | .module name => name
  | .form (.alias _ origin _) => origin.name
  | .form .classVar => "ClassVar"
  | .form .final => "Final"
  | .form .optional => "Optional"
  | .form .union => "Union"
  | .form .annotated => "Annotated"
  | .form .literal => "Literal"
  | .object c => world.qualname c
  | .member c _ => world.qualname c
  | .text _ => "<string>"
  | .forward _ _ _ => "<forward>"
  | .generic _ origin args => TypeExpr.bracketedText (world.qualname origin) (describeAll args)
  | .literal _ => "Literal"
  | .annotated inner _ => "Annotated[" ++ describe inner ++ "]"
  | .classVar inner => "ClassVar[" ++ describe inner ++ "]"
  | .final inner => "Final[" ++ describe inner ++ "]"
  | .initVar inner => "InitVar[" ++ describe inner ++ "]"
  | .union _ members => TypeExpr.bracketedText "Union" (describeAll members)

def describeAll : List Referent → List Text
  | [] => []
  | d :: rest => describe d :: describeAll rest

end

end World

end Specimen
