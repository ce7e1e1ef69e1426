import Specimen.Reflection.Library
import Specimen.Reflection.Trouble

/-!
Looking up names in an environment, and attributes on what they denote.
-/
namespace Specimen

namespace StandardClass

def universalNames : List Text :=
  Text.words ("__delattr__ __dir__ __doc__ __eq__ __format__ __ge__ __getattribute__ __getstate__ " ++
    "__gt__ __hash__ __init__ __init_subclass__ __le__ __lt__ __ne__ __new__ __reduce__ " ++
    "__reduce_ex__ __repr__ __setattr__ __sizeof__ __str__ __subclasshook__")

def classNames : List Text :=
  Text.words ("__annotations__ __bases__ __basicsize__ __call__ __dict__ __dictoffset__ __flags__ " ++
    "__instancecheck__ __itemsize__ __mro__ __or__ __prepare__ __ror__ __subclasscheck__ " ++
    "__subclasses__ __text_signature__ __weakrefoffset__ mro")

def moduleNames : List Text :=
  Text.words
    "__builtins__ __cached__ __dict__ __doc__ __file__ __loader__ __package__ __path__ __spec__"

/-- The public names of the objects of a class, those of its ancestors left out. -/
def memberNames : StandardClass → List Text
  | .int => Text.words ("as_integer_ratio bit_count bit_length conjugate denominator from_bytes " ++
      "imag numerator real to_bytes")
  | .float => Text.words "as_integer_ratio conjugate fromhex hex imag is_integer real"
  | .complex => Text.words "conjugate imag real"
  | .str => Text.words ("capitalize casefold center count encode endswith expandtabs find format " ++
      "format_map index isalnum isalpha isascii isdecimal isdigit isidentifier islower isnumeric " ++
      "isprintable isspace istitle isupper join ljust lower lstrip maketrans partition " ++
      "removeprefix removesuffix replace rfind rindex rjust rpartition rsplit rstrip split " ++
      "splitlines startswith strip swapcase title translate upper zfill")
  | .bytes => Text.words ("capitalize center count decode endswith expandtabs find fromhex hex " ++
      "index isalnum isalpha isascii isdigit islower isspace istitle isupper join ljust lower " ++
      "lstrip maketrans partition removeprefix removesuffix replace rfind rindex rjust rpartition " ++
      "rsplit rstrip split splitlines startswith strip swapcase title translate upper zfill")
  | .list => Text.words "append clear copy count extend index insert pop remove reverse sort"
  | .tuple => Text.words "count index"
  | .set => Text.words ("add clear copy difference difference_update discard intersection " ++
      "intersection_update isdisjoint issubset issuperset pop remove symmetric_difference " ++
      "symmetric_difference_update union update")
  | .frozenset => Text.words ("copy difference intersection isdisjoint issubset issuperset " ++
      "symmetric_difference union")
  | .dict => Text.words "clear copy fromkeys get items keys pop popitem setdefault update values"
  | .function => Text.words ("__annotations__ __builtins__ __call__ __closure__ __code__ " ++
      "__defaults__ __dict__ __get__ __globals__ __kwdefaults__ __module__ __name__ __qualname__")
  | .bytearray => Text.words ("append capitalize center clear copy count decode endswith expandtabs " ++
      "extend find fromhex hex index insert isalnum isalpha isascii isdigit islower isspace istitle " ++
      "isupper join ljust lower lstrip maketrans partition pop remove removeprefix removesuffix " ++
      "replace reverse rfind rindex rjust rpartition rsplit rstrip split splitlines startswith " ++
      "strip swapcase title translate upper zfill")
  | .memoryview => Text.words ("c_contiguous cast contiguous f_contiguous format hex itemsize nbytes " ++
      "ndim obj readonly release shape strides suboffsets tobytes tolist toreadonly")
  | .range => Text.words "count index start step stop"
  | .slice => Text.words "indices start step stop"
  | .property => Text.words "__delete__ __get__ __set__ deleter fdel fget fset getter setter"
  | .type => classNames
  | .exception kind => Text.words kind.memberWords
  | .enum => Text.words ("__members__ _generate_next_value_ _member_map_ _member_names_ " ++
      "_member_type_ _missing_ _value2member_map_")
  | .date => Text.words ("ctime day fromisocalendar fromisoformat fromordinal fromtimestamp " ++
      "isocalendar isoformat isoweekday max min month replace resolution strftime timetuple today " ++
      "toordinal weekday year")
  | .uuid => "int" :: "is_safe" :: World.identifierNames
  | .object => universalNames
  | _ => []

end StandardClass

namespace World

variable (world : World)

def metaclass (c : ClassRef) : StandardClass :=
  if world.descends c .enum then .enumType
  else if world.descends c .any then .anyType
  else if (.abstractBase :: StandardClass.interfaces).any (world.descends c) then .abstractType
  else .type

def reportName (c : ClassRef) : Text :=
  match c with
  | .standard s => s.reportName
  | .declared _ => world.className c

def typeNameOf : ClassAttribute → Text
  | .plain (.data value) => value.typeName
  | .plain (.cls c) => (world.metaclass c).name
  | .plain (.object c) => world.className c
  | .plain (.member c _) => world.className c
  | .plain _ => StandardClass.object.name
  | .specified _ _ => StandardClass.fieldSpec.name
  | .property _ _ => StandardClass.property.name

/-- What the nearest class with a name binds it to; `standardMember` stands for the members of standard
classes. -/
def inherited? (standardMember : StandardClass) (c : ClassRef) (name : Text) : Option Referent :=
  (world.resolutionOrder c).findSome? fun
    | .standard s =>
      if s.memberNames.contains name then some (.object (.standard standardMember)) else none
    | .declared index => (world.ownAttribute? (.declared index) name).map (·.referent)

def textAttribute (text : Text) : Referent := .data (.str text)

def classFact? (c : ClassRef) (name : Text) : Option Referent :=
  if name = ("__class__" : Text) then some (.standard (world.metaclass c))
  else if name = ("__name__" : Text) then some (textAttribute (world.className c))
  else if name = ("__qualname__" : Text) then some (textAttribute (world.qualname c))
  else if name = ("__module__" : Text) then
    some (((world.ownAttribute? c name).map (·.referent)).getD (textAttribute (world.moduleName c)))
  else if name = ("__base__" : Text) then some (((world.resolutionOrder c)[1]?).elim .none .cls)
  else if name = ("__dict__" : Text) then some (.object (.standard .mappingProxy))
  else if name = ("__mro__" : Text) || name = ("__bases__" : Text) then some (.data (.tuple []))
  else if name = ("__annotations__" : Text) then
    match c with
    | .standard _ => none
    | .declared _ => some (.data (.dict []))
  else none

def classAttribute (c : ClassRef) (name : Text) : Except Trouble Referent :=
  match (world.classFact? c name).or (world.inherited? .methodDescriptor c name) with
  | some found => .ok found
  | none =>
    if StandardClass.classNames.contains name then .ok (.object (.standard .builtinFunction))
    else if world.metaclass c = .enumType then .error (.noEnumerationAttribute name)
    else .error (.noClassAttribute (world.reportName c) name)

def objectAttribute (c : ClassRef) (name : Text) : Except Trouble Referent :=
  if name = ("__class__" : Text) then .ok (.cls c)
  else match world.inherited? .builtinFunction c name with
    | some found => .ok found
    | none =>
      if world.descends c .enum && (name = ("name" : Text) || name = ("value" : Text)) then
        .ok (.object (.standard .str))
      else .error (.noObjectAttribute (world.reportName c) name)

def moduleFact? (name owner : Text) : Option Referent :=
  if name = ("__class__" : Text) then some (.standard .module)
  else if name = ("__name__" : Text) then some (textAttribute owner)
  else if name = ("__dict__" : Text) || name = ("__builtins__" : Text) then some (.data (.dict []))
  else if name = ("__file__" : Text) || name = ("__package__" : Text) then some (textAttribute owner)
  else if name = ("__doc__" : Text) then some .none
  else none

def moduleAttribute (owner name : Text) : Except Trouble Referent :=
  match List.lookup name (world.namesOf owner) with
  | some found => .ok found
  | none =>
    match moduleFact? name owner with
    | some found => .ok found
    | none =>
      if StandardClass.moduleNames.contains name || StandardClass.universalNames.contains name then
        .ok (.object (.standard .builtinFunction))
      else
        .error (.noModuleAttribute owner name (((world.module? owner).map (·.isComplete)).getD true))

def select (owner : Referent) (name : Text) : Except Trouble Referent :=
  match owner with
  | .cls c => classAttribute world c name
  | .module m => moduleAttribute world m name
  | .data value => objectAttribute world (.standard value.standardClass) name
  | .object c => objectAttribute world c name
  | _ => objectAttribute world (.standard .object) name

def lacks (found : ClassAttribute) (name : Text) : Trouble :=
  match world.select found.referent name with
  | .error trouble => trouble
  | .ok _ => .noObjectAttribute (world.typeNameOf found) name

def selectAll (owner : Referent) : List Text → Except Trouble Referent
  | [] => .ok owner
  | name :: rest => do selectAll (← world.select owner name) rest

end World

/-- Where names are looked up: the layers from the innermost outwards, then the built-in classes. -/
structure Environment where
  world : World
  layers : List Bindings
  deriving Inhabited

namespace Environment

def findLayer (name : Text) : List Bindings → Option Referent
  | [] => List.lookup name Library.builtinNames
  | layer :: rest => (List.lookup name layer).or (findLayer name rest)

def lookup (env : Environment) (name : Text) : Except Trouble Referent :=
  match findLayer name env.layers with
  | some found => .ok found
  | none => .error (.undefined name)

def denote (env : Environment) (dotted : Text) : Except Trouble Referent :=
  match dotted.splitOn 0x2E with
  | [] => .error (.undefined dotted)
  | name :: rest => do env.world.selectAll (← env.lookup name) rest

end Environment

end Specimen
