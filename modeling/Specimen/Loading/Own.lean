import Specimen.Loading.Module

/-!
The types of the package itself, which can be reflected like those of any other module. They are loaded
from the start.
-/
namespace Specimen.Own

def typesModule : Text := Library.ownPackage ++ ".types"

private def plain (name type : Text) : Member := .field name (.name type) .absent

private def optional (name type : Text) : Member :=
  .field name (.subscript "typing.Optional" [.name type]) (.value .none)

private def record (name : Text) (members : List Member) : ClassSource := ⟨name, true, [], members⟩

private def choice (name : Text) (choices : List (Text × Text)) : ClassSource :=
  ⟨name, false, ["enum.Enum"], choices.map fun entry => .constant entry.1 (.str entry.2)⟩

private def fault (name : Text) (base : Text) : ClassSource := ⟨name, false, [base], [.method "__init__"]⟩

private def capability (name method : Text) : ClassSource := ⟨name, false, [], [.method method]⟩

def choices : List ClassSource :=
  [choice "CodeStyle" [("DATACLASS", "dataclass"), ("CSHARP", "csharp")],
    choice "SerializationMode"
      [("DECLARED_ONLY", "declared-only"), ("RESOLVED_DYNAMIC", "resolved-dynamic")],
    choice "ReferenceLoopHandling" [("IGNORE", "ignore"), ("ERROR", "error")],
    choice "Formatting" [("COMPACT", "compact"), ("INDENTED", "indented")],
    choice "Provenance" [("GENERATED", "generated"), ("EXTERNAL", "external")],
    choice "ErrorType" [("SYNTAX", "syntax"), ("STRUCTURE", "structure"),
      ("RESOLUTION", "resolution"), ("CIRCULAR", "circular")]]

def records : List ClassSource :=
  [record "TypeHandle" [plain "qualified_name" "str",
      .field "type" (.subscript "typing.Optional" [.name "type"]) .absent,
      .field "is_built" (.name "bool") (.value (.bool true)), optional "source_path" "str"],
    record "ContractResolverSettings" [plain "serialization_mode" "SerializationMode",
      plain "reference_loop_handling" "ReferenceLoopHandling", plain "formatting" "Formatting",
      .method "for_handle"],
    record "TypeNameRequest" [plain "namespace" "str", plain "type_name" "str"],
    record "SchemaConflict" [plain "path" "str", plain "message" "str",
      .field "observed" (.name "tuple") (.value (.tuple []))],
    record "ValidationError" [plain "type" "ErrorType", plain "message" "str",
      optional "location" "str"],
    record "ValidationResult" [plain "is_valid" "bool",
      .field "errors" (.subscript "typing.List" [.name "ValidationError"]) .absent,
      .field "warnings" (.subscript "typing.List" [.name "str"]) .absent],
    record "ErrorResponse" [plain "message" "str", plain "suggested_action" "str"],
    record "GenerateResult" [plain "source" "str", plain "type_count" "int",
      .field "diagnostics" (.subscript "typing.List" [.name "SchemaConflict"]) .absent,
      .property "has_conflicts" (some (.name "bool")) true],
    record "SerializeResult" [plain "json_string" "str", plain "qualified_name" "str",
      plain "member_count" "int", plain "settings" "ContractResolverSettings"]]

def faults : List ClassSource :=
  [fault "ButlerError" "Exception", fault "ParseError" "ButlerError",
    fault "TypeResolutionError" "ButlerError", fault "CyclicReferenceError" "ButlerError",
    fault "SchemaGraphError" "ButlerError"]

def capabilities : List ClassSource :=
  [capability "EditorSurface" "get_selected_text", capability "TypeResolver" "resolve_type",
    capability "NamePrompt" "prompt_for_namespace_and_name",
    capability "Clipboard" "copy_to_clipboard", capability "MessageSink" "show_message"]

def source : ModuleSource :=
  { ModuleSource.blank typesModule with
    classes := choices ++ records ++ faults ++ capabilities
    values := [("JSON_NAME_METADATA", .str jsonKey), ("SERIALIZE_METADATA", .str serializeKey)] }

def offered : List Text :=
  ["CodeStyle", "ContractResolverSettings", "CyclicReferenceError", "Formatting", "GenerateResult",
    "ParseError", "ReferenceLoopHandling", "SchemaConflict", "SerializationMode", "SerializeResult",
    "TypeHandle", "TypeResolutionError"]

/-- The world after the package offers an own type under its own name too. -/
def offer (world : World) (name : Text) : World :=
  match List.lookup name (world.namesOf typesModule) with
  | some d => Loading.bindName Library.ownPackage name d world
  | none => world

/-- The world in which nothing but the standard modules and the package itself is loaded. -/
def world : World :=
  let loaded := ((Loading.enterModule (fun _ => return ()) source).run.run Library.world).2
  offered.foldl offer (Loading.bindName Library.ownPackage "types" (.module typesModule) loaded)

end Specimen.Own
