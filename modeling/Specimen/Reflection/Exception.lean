import Specimen.Text.Basic

/-!
The exception classes that have names without an import, and how they descend from one another.
-/
namespace Specimen

inductive ExceptionClass where
  | root | rootGroup | general | group | generatorExit | interruption | systemExit
  | arithmetic | floatingPoint | overflow | zeroDivision
  | assertion | attribute | buffer | endOfFile | importing | moduleNotFound
  | lookup | index | key | memory | name | unboundLocal
  | operatingSystem | blocking | childProcess | connection | brokenPipe | connectionAborted
  | connectionRefused | connectionReset | fileExists | fileNotFound | interruptedCall | directory
  | notDirectory | permission | processLookup | timeout
  | reference | runtime | notImplemented | recursion | stopAsyncIteration | stopIteration
  | source | indentation | tab | system | type
  | value | unicode | unicodeDecode | unicodeEncode | unicodeTranslate
  | warning | bytesWarning | deprecation | encodingWarning | futureWarning | importWarning
  | pendingDeprecation | resourceWarning | runtimeWarning | sourceWarning | unicodeWarning
  | userWarning
  deriving DecidableEq, Repr, Inhabited

namespace ExceptionClass

def text : ExceptionClass → Text
  | .root => "BaseException" | .rootGroup => "BaseExceptionGroup"
  | .general => "Exception" | .group => "ExceptionGroup"
  | .generatorExit => "GeneratorExit" | .interruption => "KeyboardInterrupt"
  | .systemExit => "SystemExit"
  | .arithmetic => "ArithmeticError" | .floatingPoint => "FloatingPointError"
  | .overflow => "OverflowError" | .zeroDivision => "ZeroDivisionError"
  | .assertion => "AssertionError" | .attribute => "AttributeError"
  | .buffer => "BufferError" | .endOfFile => "EOFError"
  | .importing => "ImportError" | .moduleNotFound => "ModuleNotFoundError"
  | .lookup => "LookupError" | .index => "IndexError" | .key => "KeyError"
  | .memory => "MemoryError" | .name => "NameError" | .unboundLocal => "UnboundLocalError"
  | .operatingSystem => "OSError" | .blocking => "BlockingIOError"
  | .childProcess => "ChildProcessError" | .connection => "ConnectionError"
  | .brokenPipe => "BrokenPipeError" | .connectionAborted => "ConnectionAbortedError"
  | .connectionRefused => "ConnectionRefusedError" | .connectionReset => "ConnectionResetError"
  | .fileExists => "FileExistsError" | .fileNotFound => "FileNotFoundError"
  | .interruptedCall => "InterruptedError" | .directory => "IsADirectoryError"
  | .notDirectory => "NotADirectoryError" | .permission => "PermissionError"
  | .processLookup => "ProcessLookupError" | .timeout => "TimeoutError"
  | .reference => "ReferenceError" | .runtime => "RuntimeError"
  | .notImplemented => "NotImplementedError" | .recursion => "RecursionError"
  | .stopAsyncIteration => "StopAsyncIteration" | .stopIteration => "StopIteration"
  | .source => "SyntaxError" | .indentation => "IndentationError" | .tab => "TabError"
  | .system => "SystemError" | .type => "TypeError"
  | .value => "ValueError" | .unicode => "UnicodeError"
  | .unicodeDecode => "UnicodeDecodeError" | .unicodeEncode => "UnicodeEncodeError"
  | .unicodeTranslate => "UnicodeTranslateError"
  | .warning => "Warning" | .bytesWarning => "BytesWarning"
  | .deprecation => "DeprecationWarning" | .encodingWarning => "EncodingWarning"
  | .futureWarning => "FutureWarning" | .importWarning => "ImportWarning"
  | .pendingDeprecation => "PendingDeprecationWarning" | .resourceWarning => "ResourceWarning"
  | .runtimeWarning => "RuntimeWarning" | .sourceWarning => "SyntaxWarning"
  | .unicodeWarning => "UnicodeWarning" | .userWarning => "UserWarning"

def ancestors : ExceptionClass → List ExceptionClass
  | .root => []
  | .rootGroup | .general | .generatorExit | .interruption | .systemExit => [.root]
  | .group => [.rootGroup, .general, .root]
  | .floatingPoint | .overflow | .zeroDivision => [.arithmetic, .general, .root]
  | .moduleNotFound => [.importing, .general, .root]
  | .index | .key => [.lookup, .general, .root]
  | .unboundLocal => [.name, .general, .root]
  | .blocking | .childProcess | .connection | .fileExists | .fileNotFound | .interruptedCall
  | .directory | .notDirectory | .permission | .processLookup | .timeout =>
    [.operatingSystem, .general, .root]
  | .brokenPipe | .connectionAborted | .connectionRefused | .connectionReset =>
    [.connection, .operatingSystem, .general, .root]
  | .notImplemented | .recursion => [.runtime, .general, .root]
  | .indentation => [.source, .general, .root]
  | .tab => [.indentation, .source, .general, .root]
  | .unicode => [.value, .general, .root]
  | .unicodeDecode | .unicodeEncode | .unicodeTranslate => [.unicode, .value, .general, .root]
  | .bytesWarning | .deprecation | .encodingWarning | .futureWarning | .importWarning
  | .pendingDeprecation | .resourceWarning | .runtimeWarning | .sourceWarning | .unicodeWarning
  | .userWarning => [.warning, .general, .root]
  | _ => [.general, .root]

def order (e : ExceptionClass) : List ExceptionClass := e :: e.ancestors

def makesObjects : ExceptionClass → Bool
  | .group | .systemExit | .attribute | .importing | .moduleNotFound | .key | .name | .unboundLocal
  | .blocking | .childProcess | .connection | .brokenPipe | .connectionAborted
  | .connectionRefused | .connectionReset | .fileExists | .fileNotFound | .interruptedCall
  | .directory | .notDirectory | .permission | .processLookup | .timeout
  | .stopIteration | .source | .indentation | .tab => false
  | _ => true

/-- The exception classes whose objects hold more than those of the classes above. -/
def enlarged : List ExceptionClass :=
  [.root, .rootGroup, .systemExit, .attribute, .importing, .name, .operatingSystem, .stopIteration,
    .source, .unicodeDecode, .unicodeEncode, .unicodeTranslate]

/-- The exception class that last added something of its own to the objects. -/
def core (e : ExceptionClass) : ExceptionClass := (e.order.find? enlarged.contains).getD .root

/-- The public names of the objects of an exception class, those of the classes above left out. -/
def memberWords : ExceptionClass → Text
  | .root => "add_note args with_traceback"
  | .rootGroup => "derive exceptions message split subgroup"
  | .systemExit => "code"
  | .attribute => "name obj"
  | .importing => "msg name path"
  | .name => "name"
  | .operatingSystem => "characters_written errno filename filename2 strerror"
  | .stopIteration => "value"
  | .source => "end_lineno end_offset filename lineno msg offset print_file_and_line text"
  | .unicodeDecode | .unicodeEncode | .unicodeTranslate => "encoding end object reason start"
  | _ => ""

def all : List ExceptionClass :=
  [.root, .rootGroup, .general, .group, .generatorExit, .interruption, .systemExit,
    .arithmetic, .floatingPoint, .overflow, .zeroDivision,
    .assertion, .attribute, .buffer, .endOfFile, .importing, .moduleNotFound,
    .lookup, .index, .key, .memory, .name, .unboundLocal,
    .operatingSystem, .blocking, .childProcess, .connection, .brokenPipe, .connectionAborted,
    .connectionRefused, .connectionReset, .fileExists, .fileNotFound, .interruptedCall, .directory,
    .notDirectory, .permission, .processLookup, .timeout,
    .reference, .runtime, .notImplemented, .recursion, .stopAsyncIteration, .stopIteration,
    .source, .indentation, .tab, .system, .type,
    .value, .unicode, .unicodeDecode, .unicodeEncode, .unicodeTranslate,
    .warning, .bytesWarning, .deprecation, .encodingWarning, .futureWarning, .importWarning,
    .pendingDeprecation, .resourceWarning, .runtimeWarning, .sourceWarning, .unicodeWarning,
    .userWarning]

end ExceptionClass

end Specimen
