import Specimen.Reflection.World

/-!
The standard modules: the names they bind.
-/
namespace Specimen.Library

def bound (name : Text) (referent : Referent) : Text × Referent := (name, referent)

def bindClasses (classes : List StandardClass) : Bindings :=
  classes.map fun c => (c.name, .standard c)

def builtinFunctions : List Text :=
  Text.words ("__build_class__ __import__ abs aiter all anext any ascii bin breakpoint callable chr " ++
    "compile copyright credits delattr dir divmod eval exec exit format getattr globals hasattr hash " ++
    "help hex id input isinstance issubclass iter len license locals max min next oct open ord pow " ++
    "print quit repr round setattr sorted sum vars")

def builtinNames : Bindings :=
  bindClasses StandardClass.builtins ++
    [bound "EnvironmentError" (.standard (.exception .operatingSystem)),
      bound "IOError" (.standard (.exception .operatingSystem)),
      bound "None" .none, bound "True" (.data (.bool true)), bound "False" (.data (.bool false)),
      bound "__debug__" (.data (.bool true)), bound "Ellipsis" .ellipsis,
      bound "NotImplemented" (.object (.standard .notImplementedType))] ++
    builtinFunctions.map fun name => bound name (.object (.standard .builtinFunction))

def aliases : List TypingForm :=
  [.alias "List" .list (some 1), .alias "Dict" .dict (some 2), .alias "Set" .set (some 1),
    .alias "FrozenSet" .frozenset (some 1), .alias "Tuple" .tuple none, .alias "Type" .type (some 1),
    .alias "Deque" .deque (some 1), .alias "DefaultDict" .defaultdict (some 2),
    .alias "OrderedDict" .orderedDict (some 2), .alias "Sequence" .sequence (some 1),
    .alias "MutableSequence" .mutableSequence (some 1), .alias "AbstractSet" .abstractSet (some 1),
    .alias "MutableSet" .mutableSet (some 1), .alias "Iterable" .iterable (some 1),
    .alias "Iterator" .iterator (some 1), .alias "Collection" .collection (some 1),
    .alias "Container" .container (some 1), .alias "Reversible" .reversible (some 1),
    .alias "Mapping" .mapping (some 2), .alias "MutableMapping" .mutableMapping (some 2),
    .alias "Hashable" .hashable (some 0), .alias "Sized" .sized (some 0),
    .alias "ByteString" .byteString (some 0), .alias "Callable" .callable (some 2),
    .alias "Generator" .generator (some 3), .alias "MappingView" .mappingView (some 1),
    .alias "KeysView" .keysView (some 1), .alias "ItemsView" .itemsView (some 2),
    .alias "ValuesView" .valuesView (some 1), .alias "Awaitable" .awaitable (some 1),
    .alias "Coroutine" .coroutine (some 3), .alias "AsyncIterable" .asyncIterable (some 1),
    .alias "AsyncIterator" .asyncIterator (some 1),
    .alias "AsyncGenerator" .asyncGenerator (some 2), .alias "Counter" .counter (some 1),
    .alias "ChainMap" .chainMap (some 2)]

def plainForms : List TypingForm := [.classVar, .final, .optional, .union, .annotated, .literal]

def formName : TypingForm → Text
  | .alias name _ _ => name
  | .classVar => "ClassVar"
  | .final => "Final"
  | .optional => "Optional"
  | .union => "Union"
  | .annotated => "Annotated"
  | .literal => "Literal"

def typingNames : Bindings :=
  bindClasses [.any, .generic] ++ [bound "Text" (.standard .str)] ++
    (aliases ++ plainForms).map fun form => bound (formName form) (.form form)

def interfaces : Text := "collections.abc"

def complete (name : Text) (names : Bindings) : LoadedModule := ⟨name, names, true⟩

def ownPackage : Text := "json_butler"

/-- Modules that are loaded from the start, but of which hardly any name is told. -/
def silentModules : List Text :=
  Text.words ("ast atexit codecs contextlib copy copyreg dis encodings errno fnmatch functools " ++
    "genericpath hashlib importlib importlib.machinery importlib.util inspect io ipaddress itertools " ++
    "json json.decoder json.encoder json.scanner keyword linecache logging marshal math ntpath " ++
    "numbers opcode operator os os.path pathlib platform posix posixpath re reprlib stat string sys textwrap " ++
    "threading time token tokenize traceback types urllib urllib.parse warnings weakref zipimport")

def modules : List LoadedModule :=
  [complete StandardClass.builtinModule builtinNames,
    complete "typing" typingNames,
    complete "datetime" (bindClasses [.date, .datetime, .time, .timedelta, .tzinfo, .timezone] ++
        [bound "MINYEAR" (.data (.int 1)), bound "MAXYEAR" (.data (.int 9999)),
          bound "UTC" (.object (.standard .timezone))]),
    complete "decimal" (bindClasses [.decimal]),
    complete "uuid" (bindClasses [.uuid]),
    complete "enum"
      (bindClasses [.enum, .reprEnum, .intEnum, .strEnum, .flag, .intFlag, .enumType] ++
        [bound "EnumMeta" (.standard .enumType)]),
    complete "collections"
      (bindClasses [.deque, .defaultdict, .orderedDict, .counter, .chainMap, .userDict, .userList,
        .userString] ++
        [bound "abc" (.module interfaces), bound "namedtuple" (.object (.standard .function))]),
    complete interfaces
      (bindClasses StandardClass.interfaces),
    complete "dataclasses"
      (bindClasses [.fieldSpec, .initVar] ++
        [bound "KW_ONLY" (.object (.standard .keywordMark)), bound "dataclass" (.object (.standard .function)),
          bound "field" (.object (.standard .function))]),
    complete "abc" (bindClasses [.abstractBase, .abstractType]),
    complete ownPackage (bindClasses [.nonSerialized])] ++
  silentModules.map fun name => complete name []

def packages : List Text :=
  Text.words "collections encodings importlib json logging re urllib"

def isPackage (name : Text) : Bool := packages.contains name || name = ownPackage

def imported : Bindings :=
  ((["collections", "dataclasses", "datetime", "decimal", "enum", "typing", "uuid",
    ownPackage] : List Text).map fun name => bound name (.module name)) ++
    [bound "ClassVar" (.form .classVar), bound "NonSerialized" (.standard .nonSerialized)]

def world : World := ⟨[], modules, Memory.empty⟩

end Specimen.Library
