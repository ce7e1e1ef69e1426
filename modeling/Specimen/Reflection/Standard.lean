import Specimen.Data.Basic
import Specimen.Reflection.Exception

/-!
The classes that exist before any module is loaded: their modules, names and ancestors.
-/
namespace Specimen

inductive StandardClass where
  | object | type | int | float | complex | str | bytes | bool | list | tuple | set | frozenset | dict
  | bytearray | memoryview | range | slice | enumerate | filter | map | reversed | zip
  | classmethod | staticmethod | property | super
  | noneType | notImplementedType | ellipsisType | function | builtinFunction
  | methodDescriptor | memberDescriptor | module | mappingProxy
  | exception (kind : ExceptionClass)
  | enum | reprEnum | intEnum | strEnum | flag | intFlag | enumType
  | abstractType | anyType | abstractBase
  | date | datetime | time | timedelta | tzinfo | timezone | decimal | uuid
  | deque | defaultdict | orderedDict | counter | chainMap | userDict | userList | userString
  | mapping | mutableMapping | sequence | mutableSequence | abstractSet | mutableSet
  | iterable | iterator | collection | sized | container | reversible
  | hashable | callable | generator | byteString | mappingView | keysView | itemsView | valuesView
  | awaitable | coroutine | asyncIterable | asyncIterator | asyncGenerator
  | any | generic
  | fieldSpec | initVar | keywordMark
  | nonSerialized
  deriving DecidableEq, Repr, Inhabited

namespace StandardClass

def name : StandardClass → Text
  | .object => "object" | .type => "type" | .int => "int" | .float => "float"
  | .complex => "complex" | .str => "str" | .bytes => "bytes" | .bool => "bool" | .list => "list"
  | .tuple => "tuple" | .set => "set" | .frozenset => "frozenset" | .dict => "dict"
  | .bytearray => "bytearray" | .memoryview => "memoryview" | .range => "range" | .slice => "slice"
  | .enumerate => "enumerate" | .filter => "filter" | .map => "map" | .reversed => "reversed"
  | .zip => "zip" | .classmethod => "classmethod" | .staticmethod => "staticmethod"
  | .property => "property" | .super => "super"
  | .noneType => "NoneType" | .notImplementedType => "NotImplementedType"
  | .ellipsisType => "ellipsis" | .function => "function"
  | .builtinFunction => "builtin_function_or_method" | .methodDescriptor => "method_descriptor"
  | .memberDescriptor => "member_descriptor" | .mappingProxy => "mappingproxy"
  | .module => "module"
  | .exception kind => kind.text
  | .enum => "Enum" | .reprEnum => "ReprEnum" | .intEnum => "IntEnum" | .strEnum => "StrEnum"
  | .flag => "Flag" | .intFlag => "IntFlag" | .enumType => "EnumType"
  | .abstractType => "ABCMeta" | .abstractBase => "ABC" | .anyType => "_AnyMeta"
  | .date => "date" | .datetime => "datetime" | .time => "time" | .timedelta => "timedelta"
  | .tzinfo => "tzinfo" | .timezone => "timezone" | .decimal => "Decimal" | .uuid => "UUID"
  | .deque => "deque" | .defaultdict => "defaultdict" | .orderedDict => "OrderedDict"
  | .counter => "Counter" | .chainMap => "ChainMap" | .userDict => "UserDict"
  | .userList => "UserList" | .userString => "UserString"
  | .mapping => "Mapping" | .mutableMapping => "MutableMapping" | .sequence => "Sequence"
  | .mutableSequence => "MutableSequence" | .abstractSet => "Set" | .mutableSet => "MutableSet"
  | .iterable => "Iterable" | .iterator => "Iterator" | .collection => "Collection"
  | .sized => "Sized" | .container => "Container" | .reversible => "Reversible"
  | .hashable => "Hashable" | .callable => "Callable" | .generator => "Generator"
  | .byteString => "ByteString" | .mappingView => "MappingView" | .keysView => "KeysView"
  | .itemsView => "ItemsView" | .valuesView => "ValuesView" | .awaitable => "Awaitable"
  | .coroutine => "Coroutine" | .asyncIterable => "AsyncIterable"
  | .asyncIterator => "AsyncIterator" | .asyncGenerator => "AsyncGenerator"
  | .any => "Any" | .generic => "Generic" | .fieldSpec => "Field" | .initVar => "InitVar"
  | .keywordMark => "_KW_ONLY_TYPE"
  | .nonSerialized => "NonSerialized"

def builtinModule : Text := "builtins"

def moduleName : StandardClass → Text
  | .enum | .reprEnum | .intEnum | .strEnum | .flag | .intFlag | .enumType => "enum"
  | .date | .datetime | .time | .timedelta | .tzinfo | .timezone => "datetime"
  | .decimal => "decimal"
  | .uuid => "uuid"
  | .deque | .defaultdict | .orderedDict | .counter | .chainMap | .userDict | .userList
  | .userString => "collections"
  | .mapping | .mutableMapping | .sequence | .mutableSequence | .abstractSet | .mutableSet
  | .iterable | .iterator | .collection | .sized | .container | .reversible
  | .hashable | .callable | .generator | .byteString | .mappingView | .keysView | .itemsView
  | .valuesView | .awaitable | .coroutine | .asyncIterable | .asyncIterator
  | .asyncGenerator => "collections.abc"
  | .any | .anyType | .generic => "typing"
  | .abstractType | .abstractBase => "abc"
  | .fieldSpec | .initVar | .keywordMark => "dataclasses"
  | .nonSerialized => "json_butler.reflection.contract_resolver"
  | _ => builtinModule

/-- The name of a class in reports. Those that are not written in the language itself carry their
module's name. -/
def reportName (c : StandardClass) : Text :=
  match c with
  | .date | .datetime | .time | .timedelta | .tzinfo | .timezone | .decimal | .deque
  | .defaultdict | .orderedDict =>
    c.moduleName ++ "." ++ c.name
  | _ => c.name

def ancestors : StandardClass → List StandardClass
  | .object => []
  | .bool => [.int, .object]
  | .exception kind => kind.ancestors.map .exception ++ [.object]
  | .reprEnum => [.enum, .object]
  | .intEnum => [.int, .reprEnum, .enum, .object]
  | .strEnum => [.str, .reprEnum, .enum, .object]
  | .flag => [.enum, .object]
  | .intFlag => [.int, .reprEnum, .flag, .enum, .object]
  | .enumType | .abstractType | .anyType => [.type, .object]
  | .datetime => [.date, .object]
  | .defaultdict | .orderedDict | .counter => [.dict, .object]
  | .timezone => [.tzinfo, .object]
  | .collection => [.sized, .iterable, .container, .object]
  | .mapping | .abstractSet => [.collection, .sized, .iterable, .container, .object]
  | .mutableMapping => [.mapping, .collection, .sized, .iterable, .container, .object]
  | .mutableSet => [.abstractSet, .collection, .sized, .iterable, .container, .object]
  | .reversible | .iterator => [.iterable, .object]
  | .sequence => [.reversible, .collection, .sized, .iterable, .container, .object]
  | .mutableSequence | .userString | .byteString =>
    [.sequence, .reversible, .collection, .sized, .iterable, .container, .object]
  | .userList =>
    [.mutableSequence, .sequence, .reversible, .collection, .sized, .iterable, .container, .object]
  | .userDict | .chainMap =>
    [.mutableMapping, .mapping, .collection, .sized, .iterable, .container, .object]
  | .mappingView => [.sized, .object]
  | .keysView | .itemsView =>
    [.mappingView, .abstractSet, .collection, .sized, .iterable, .container, .object]
  | .valuesView => [.mappingView, .collection, .sized, .iterable, .container, .object]
  | .generator => [.iterator, .iterable, .object]
  | .coroutine => [.awaitable, .object]
  | .asyncIterator => [.asyncIterable, .object]
  | .asyncGenerator => [.asyncIterator, .asyncIterable, .object]
  | _ => [.object]

def resolutionOrder (c : StandardClass) : List StandardClass := c :: c.ancestors

def interfaces : List StandardClass :=
  [.mapping, .mutableMapping, .sequence, .mutableSequence, .abstractSet, .mutableSet, .iterable,
    .iterator, .collection, .sized, .container, .reversible, .hashable, .callable, .generator,
    .byteString, .mappingView, .keysView, .itemsView, .valuesView, .awaitable, .coroutine,
    .asyncIterable, .asyncIterator, .asyncGenerator]

/-- Whether a class has a method of its own that makes its objects. Interfaces and markers have none,
and neither have classes that only initialize their objects. -/
def makesObjects : StandardClass → Bool
  | .uuid | .generic | .abstractBase | .fieldSpec | .initVar | .nonSerialized | .reprEnum
  | .defaultdict | .orderedDict
  | .counter | .chainMap | .userDict | .userList | .userString => false
  | .exception kind => kind.makesObjects
  | c => !interfaces.contains c

/-- Whether a class has a method of its own that its new objects are handed to. -/
def initializes : StandardClass → Bool
  | .list | .set | .dict | .bytearray | .classmethod | .staticmethod | .property | .super | .type
  | .orderedDict | .defaultdict | .deque | .counter | .chainMap | .userDict | .userList
  | .userString | .mappingView | .enum | .fieldSpec | .initVar | .uuid => true
  | .exception _ => true
  | _ => false

def isGeneric : StandardClass → Bool
  | .type | .list | .tuple | .set | .frozenset | .dict | .enumerate | .deque | .defaultdict
  | .orderedDict | .exception .rootGroup | .exception .group => true
  | .sized | .hashable => false
  | c => interfaces.contains c

def builtins : List StandardClass :=
  [.object, .type, .int, .float, .complex, .str, .bytes, .bool, .list, .tuple, .set, .frozenset,
    .dict, .bytearray, .memoryview, .range, .slice, .enumerate, .filter, .map, .reversed, .zip,
    .classmethod, .staticmethod, .property, .super] ++ ExceptionClass.all.map .exception

end StandardClass

def Data.standardClass : Data → StandardClass
  | .none => .noneType
  | .bool _ => .bool
  | .int _ => .int
  | .float _ => .float
  | .str _ => .str
  | .list _ => .list
  | .tuple _ => .tuple
  | .set _ => .set
  | .bytes => .bytes
  | .dict _ => .dict
  | .document _ => .object

end Specimen
