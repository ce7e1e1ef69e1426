import Specimen.Emission.Csharp
import Specimen.Proofs.Emission.Decoding

/-! Encoding emitted source. The names that it writes are identifiers, and identifiers have no surrogates; keys are
encodable wherever a graph was built from them. So source can be encoded, but for the namespace: classes of the one
style write it as an identifier, the header of the other writes it as it is. -/
namespace Specimen
namespace Emission
open Naming (IsNameOf Scope)

/-- A record type whose texts can be encoded. -/
structure IsEncodable (record : RecordType) : Prop where
  plain : IsPlain record
  keys : ∀ field ∈ record.fields, Text.Encodable field.key
  names : ∀ field ∈ record.fields, ∃ text, IsNameOf text field.name

private theorem encodable_nameOf {text name : Text} (h : IsNameOf text name) : Text.Encodable name :=
  Text.encodable_iff.mpr (h.misses Text.gap_surrogates (by decide))

private theorem encodable_unlines {lines : List Text} :
    Text.Encodable (unlines lines) ↔ ∀ line ∈ lines, Text.Encodable line := by
  have feed : Text.Encodable [0x0A] := by decide
  rw [unlines, Text.encodable_append, Text.encodable_intercalate feed, and_iff_left feed]

private theorem encodable_indent : Text.Encodable indent := Text.encodable_ofString "    "

/-- What no name has inside, no name has that is claimed for one. -/
theorem claim_misses {low high : Nat} (gap : Text.Gap low high) (apart : 0x39 < low ∨ high < 0x30)
    {text name : Text} (named : IsNameOf text name) (scope : Scope) :
    ∀ c ∈ (scope.claim name).1, Text.Misses low high c := by
  intro c hc
  rcases scope.claim_eq name with h | ⟨number, h⟩
  · exact named.misses gap apart c (h ▸ hc)
  · rw [h] at hc
    rcases List.mem_append.mp hc with hc | hc
    · exact named.misses gap apart c hc
    · exact Naming.decimal_misses apart (Text.isDecimal_of_mem_ofNat hc)

private theorem encodable_claim {text name : Text} (named : IsNameOf text name) (scope : Scope) :
    Text.Encodable (scope.claim name).1 :=
  Text.encodable_iff.mpr (claim_misses Text.gap_surrogates (by decide) named scope)

/-- The lines of record types as classes. -/
def csharpLines (records : List RecordType) (nameSpace : Text) : List Text :=
  (["using System.Collections.Generic;", "using Newtonsoft.Json;", []] : List Text) ++
    if nameSpace.isEmpty then csharpClasses [] records
    else csharpNested nameSpace (csharpClasses indent records)

section Characters
variable {p : CodePoint → Prop} {outer claimed nameSpace : Text} {field : Field} {fields : List Field}
  {record : RecordType} {records : List RecordType}

/-- The texts that stand around names in types of C#. -/
def csharpTypeParts : List Text := ["object", "bool", "long", "double", "string", "List<", ">", "?"]

/-- The texts that stand around names and keys in classes. -/
def csharpParts : List Text :=
  csharpTypeParts ++ (["\\", indent, "[JsonProperty(\"", "\")]", "public ", " ", " \x7b get; set; \x7d",
    "public class ", "\x7b", "\x7d", "namespace ", "using System.Collections.Generic;", "using Newtonsoft.Json;"] :
    List Text)

/-- Something holds of the characters that a record type is written with. -/
structure IsMadeOf (p : CodePoint → Prop) (record : RecordType) : Prop where
  name : ∀ c ∈ record.name, p c
  targets : ∀ field ∈ record.fields, ∀ name, field.type.target? = some name → ∀ c ∈ name, p c
  keys : ∀ field ∈ record.fields, ∀ c ∈ field.key, p c
  members : ∀ field ∈ record.fields, ∀ scope : Scope, ∀ c ∈ (scope.claim field.name).1, p c

private theorem forall_mem_csharpTypeRef (parts : ∀ part ∈ csharpTypeParts, ∀ c ∈ part, p c) {type : TypeRef}
    (named : ∀ name, type.target? = some name → ∀ c ∈ name, p c) : ∀ c ∈ csharpTypeRef type, p c := by
  induction type with
  | null | any => exact parts "object" (by decide)
  | scalar kind => cases kind <;> exact parts _ (by decide)
  | object name => exact named name rfl
  | array element ih =>
    simp only [csharpTypeRef, List.forall_mem_append]
    exact ⟨⟨parts "List<" (by decide), ih named⟩, parts ">" (by decide)⟩

theorem forall_mem_csharpType (parts : ∀ part ∈ csharpTypeParts, ∀ c ∈ part, p c)
    (named : ∀ name, field.type.target? = some name → ∀ c ∈ name, p c) : ∀ c ∈ csharpType field, p c := by
  refine List.forall_mem_append.mpr ⟨forall_mem_csharpTypeRef parts named, ?_⟩
  split
  · exact parts "?" (by decide)
  · exact nofun

section Parts
variable (parts : ∀ part ∈ csharpParts, ∀ c ∈ part, p c)
include parts

theorem forall_mem_csharpEscaped {key : Text} (h : ∀ c ∈ key, p c) : ∀ c ∈ csharpEscaped key, p c := by
  intro c hc
  obtain ⟨d, hd, hc⟩ := List.mem_flatMap.mp hc
  split at hc
  · rcases List.mem_cons.mp hc with rfl | hc
    · exact parts "\\" (by decide) _ (by decide)
    · exact h c (List.mem_singleton.mp hc ▸ hd)
  · exact h c (List.mem_singleton.mp hc ▸ hd)

private theorem forall_mem_propertyLines (outside : ∀ c ∈ outer, p c) (key : ∀ c ∈ field.key, p c)
    (named : ∀ name, field.type.target? = some name → ∀ c ∈ name, p c) (member : ∀ c ∈ claimed, p c) :
    ∀ line ∈ propertyLines outer claimed field, ∀ c ∈ line, p c := by
  have typeParts := (List.forall_mem_append.mp parts).1
  have keyLine : ∀ c ∈ outer ++ indent ++ "[JsonProperty(\"" ++ csharpEscaped field.key ++ "\")]", p c := by
    simp only [List.forall_mem_append]
    exact ⟨⟨⟨⟨outside, parts indent (by decide)⟩, parts "[JsonProperty(\"" (by decide)⟩,
      forall_mem_csharpEscaped parts key⟩, parts "\")]" (by decide)⟩
  have ownLine : ∀ c ∈ outer ++ indent ++ "public " ++ csharpType field ++ " " ++ claimed ++
      " \x7b get; set; \x7d", p c := by
    simp only [List.forall_mem_append]
    exact ⟨⟨⟨⟨⟨⟨outside, parts indent (by decide)⟩, parts "public " (by decide)⟩,
      forall_mem_csharpType typeParts named⟩, parts " " (by decide)⟩, member⟩, parts " \x7b get; set; \x7d" (by decide)⟩
  exact List.forall_mem_cons.mpr ⟨keyLine, List.forall_mem_singleton.mpr ownLine⟩

/-- The lines of properties, whatever names are in use before them. -/
private theorem forall_mem_propertiesFrom (outside : ∀ c ∈ outer, p c) (scope : Scope)
    (keys : ∀ field ∈ fields, ∀ c ∈ field.key, p c)
    (targets : ∀ field ∈ fields, ∀ name, field.type.target? = some name → ∀ c ∈ name, p c)
    (members : ∀ field ∈ fields, ∀ scope : Scope, ∀ c ∈ (scope.claim field.name).1, p c) :
    ∀ line ∈ propertiesFrom outer scope fields, ∀ c ∈ line, p c := by
  induction fields generalizing scope with
  | nil => exact nofun
  | cons field rest ih =>
    obtain ⟨key, moreKeys⟩ := List.forall_mem_cons.mp keys
    obtain ⟨target, moreTargets⟩ := List.forall_mem_cons.mp targets
    obtain ⟨member, moreMembers⟩ := List.forall_mem_cons.mp members
    refine List.forall_mem_append.mpr ⟨forall_mem_propertyLines parts outside key target (member scope), ?_⟩
    split
    · exact nofun
    · exact List.forall_mem_cons.mpr ⟨nofun, ih _ moreKeys moreTargets moreMembers⟩

private theorem forall_mem_csharpClass (outside : ∀ c ∈ outer, p c) (h : IsMadeOf p record) :
    ∀ line ∈ csharpClass outer record, ∀ c ∈ line, p c := by
  have properties := forall_mem_propertiesFrom parts outside (Scope.empty.reserve record.name) h.keys h.targets
    h.members
  simp only [csharpClass, List.forall_mem_append, List.forall_mem_cons]
  exact ⟨⟨⟨⟨⟨outside, parts "public class " (by decide)⟩, h.name⟩, ⟨outside, parts "\x7b" (by decide)⟩, nofun⟩,
    properties⟩, ⟨outside, parts "\x7d" (by decide)⟩, nofun⟩

private theorem forall_mem_csharpClasses (outside : ∀ c ∈ outer, p c) (h : ∀ record ∈ records, IsMadeOf p record) :
    ∀ line ∈ csharpClasses outer records, ∀ c ∈ line, p c := by
  induction records with
  | nil => exact nofun
  | cons record rest ih =>
    obtain ⟨first, others⟩ := List.forall_mem_cons.mp h
    refine List.forall_mem_append.mpr ⟨forall_mem_csharpClass parts outside first, ?_⟩
    split
    · exact nofun
    · exact List.forall_mem_cons.mpr ⟨nofun, ih others⟩

/-- What holds of the characters of names and keys and of the parts around them holds of those of a source. -/
theorem forall_mem_csharpLines (space : ∀ c ∈ csharpNamespace nameSpace, p c)
    (h : ∀ record ∈ records, IsMadeOf p record) : ∀ line ∈ csharpLines records nameSpace, ∀ c ∈ line, p c := by
  rw [csharpLines]
  refine List.forall_mem_append.mpr ⟨?_, ?_⟩
  · simp only [List.forall_mem_cons]
    exact ⟨parts "using System.Collections.Generic;" (by decide), parts "using Newtonsoft.Json;" (by decide), nofun,
      nofun⟩
  · split
    · exact forall_mem_csharpClasses parts nofun h
    · simp only [csharpNested, List.forall_mem_append, List.forall_mem_cons]
      exact ⟨⟨⟨⟨parts "namespace " (by decide), space⟩, parts "\x7b" (by decide), nofun⟩,
        forall_mem_csharpClasses parts (parts indent (by decide)) h⟩, parts "\x7d" (by decide), nofun⟩

end Parts

theorem forall_mem_csharpNamespace (point : p 0x2E) (normal : ∀ text, ∀ c ∈ Naming.normalize text, p c)
    (nameSpace : Text) : ∀ c ∈ csharpNamespace nameSpace, p c := by
  have separator : ∀ c ∈ Text.ofString ".", p c := List.forall_mem_singleton.mpr point
  rw [csharpNamespace, Text.forall_mem_intercalate separator]
  intro part hp
  obtain ⟨piece, -, rfl⟩ := List.mem_map.mp hp
  exact normal piece

/-- Classes can be encoded in every namespace. -/
private theorem encodable_csharpSource (h : ∀ record ∈ records, IsEncodable record) (nameSpace : Text) :
    Text.Encodable (csharpSource records nameSpace) := by
  have parts : ∀ part ∈ csharpParts, Text.Encodable part := by decide
  have space : Text.Encodable (csharpNamespace nameSpace) := forall_mem_csharpNamespace (by decide)
    (fun text => Text.encodable_iff.mpr (Naming.normalize_misses Text.gap_surrogates text)) nameSpace
  have made : ∀ record ∈ records, IsMadeOf (Text.isSurrogate · = false) record := by
    intro record hr
    obtain ⟨⟨⟨_, named⟩, written⟩, keys, names⟩ := h record hr
    refine ⟨encodable_nameOf named, fun field hf name hn => ?_, keys, fun field hf => ?_⟩
    · obtain ⟨_, target⟩ := (written field hf).named name hn
      exact encodable_nameOf target
    · obtain ⟨_, member⟩ := names field hf
      exact encodable_claim member
  exact encodable_unlines.mpr (show ∀ line ∈ csharpLines records nameSpace, Text.Encodable line from
    forall_mem_csharpLines parts space made)

end Characters

section Attributes
variable {record : RecordType} {claimed : Text} {field : Field}

theorem encodable_escaped {c : CodePoint} (h : Text.isSurrogate c = false) : Text.Encodable (Json.escaped c) := by
  rw [Json.escaped]
  repeat' split
  · simpa using ⟨by decide, h⟩
  iterate 5 exact Text.encodable_ofString _
  · rename_i low
    have digits : ∀ c < 0x20, Text.Encodable (Text.hexadecimal 4 c) := by decide
    simp [digits c low]
  · simpa using h

private theorem encodable_attribute (name : Text.Encodable claimed) (written : IsWritten field.type)
    (key : Text.Encodable field.key) : Text.Encodable (attributeOf claimed field).line := by
  have escaped : Text.Encodable (field.key.flatMap Json.escaped) :=
    Text.encodable_flatMap.mpr fun c hc => encodable_escaped (key c hc)
  have type : Text.Encodable (typeExpr field.type).text := by
    refine forall_mem_text (by decide) fun name hn => ?_
    obtain ⟨_, named⟩ := written.named name hn
    exact encodable_nameOf named
  have annotation : Text.Encodable (annotationOf field) := by
    rw [annotationOf]
    split
    · simpa using type
    · exact type
  have default : Text.Encodable (if field.optional then ("default=None, " : Text) else []) := by
    split <;> simp
  have marks : ∀ c ∈ [0x20, 0x22, 0x3A], Text.isSurrogate c = false := by decide
  rw [line_attributeOf]
  simp [encodable_indent, name, escaped, annotation, default, marks]

private theorem encodable_class (h : IsEncodable record) :
    ∀ line ∈ (dataclassOf record).lines, Text.Encodable line := by
  obtain ⟨_, named⟩ := h.plain.named
  have attributes : ∀ line ∈ (dataclassOf record).attributes.map Attribute.line, Text.Encodable line := by
    rw [attributes_eq]
    simp only [List.forall_mem_map]
    intro pair hp
    obtain ⟨claimed, hf⟩ := List.of_mem_zip hp
    exact encodable_attribute (Text.encodable_iff.mpr
      (attributeNames_misses Text.gap_surrogates (by decide) (by decide) record.fields pair.1 claimed))
      (h.plain.written pair.2 hf) (h.keys pair.2 hf)
  have name : (dataclassOf record).name = record.name := rfl
  rw [Dataclass.lines]
  refine List.forall_mem_append.mpr ⟨by simp [name, encodable_nameOf named], ?_⟩
  split
  · simp [encodable_indent]
  · exact attributes

/-- A header can be encoded just where its namespace can. -/
private theorem encodable_header {nameSpace rootName : Text} (root : Text.Encodable rootName) (rootIsArray : Bool) :
    (∀ line ∈ headerLines nameSpace rootName rootIsArray, Text.Encodable line) ↔ Text.Encodable nameSpace := by
  rw [headerLines]
  cases nameSpace with
  | nil => cases rootIsArray <;> simp [root]
  | cons c rest => cases rootIsArray <;> simp [root]

/-- Dataclasses can be encoded just where the namespace in their header can. -/
private theorem encodable_textOf {graph : TypeGraph} {nameSpace rootName : Text} {records : List RecordType}
    (root : Text.Encodable rootName) (filled : rootName ≠ []) (h : ∀ record ∈ records, IsEncodable record) :
    Text.Encodable (textOf graph (some nameSpace) (some rootName) (records.map dataclassOf)) ↔
      Text.Encodable nameSpace := by
  have classes : ∀ line ∈ (records.map dataclassOf).flatMap Dataclass.lines, Text.Encodable line := by
    intro line hl
    obtain ⟨declared, hd, hl⟩ := List.mem_flatMap.mp hl
    obtain ⟨record, hr, rfl⟩ := List.mem_map.mp hd
    exact encodable_class (h record hr) line hl
  have shown : ((some rootName).filter fun name => !name.isEmpty) = some rootName := by simp [filled]
  rw [textOf, encodable_unlines, List.forall_mem_append, and_iff_left classes, shown]
  exact encodable_header root graph.rootIsArray

end Attributes

theorem emit_csharp {graph : TypeGraph} (wellFormed : graph.WellFormed) {records : List RecordType}
    (order : graph.dependencyOrder = .ok records) (nameSpace rootName : Option Text) :
    emit graph .csharp nameSpace rootName = .ok (csharpSource records (nameSpace.getD graph.nameSpace)) := by
  rw [emit.eq_def, valid_of_wellFormed wellFormed]
  simp only [bind, Except.bind, order, pure, Except.pure]

end Emission

namespace Inference.GraphRun
open Emission (IsEncodable emit)
variable {digest : Fingerprint.Digest} {nameSpace rootName : Text} {shape : Shape} {fields : List Field}
  {builder : Builder} {print : Text} {graph : TypeGraph}
  (run : GraphRun digest nameSpace rootName shape fields builder print graph) (hex : digest.IsHexadecimal)
include run hex

theorem isEncodable : ∀ record ∈ graph.records, IsEncodable record := by
  intro record hr
  obtain ⟨shapes, _, -, fits, keys⟩ := run.exists_fits hr
  refine ⟨run.isPlain hex record hr, fun field hf => keys.encodable _ ?_, fun field hf => ⟨_, fits.named field hf⟩⟩
  exact fits.keys ▸ List.mem_map_of_mem hf

/-- A graph is emitted in both styles. Its source can be encoded, except where dataclasses show a namespace that
cannot. -/
theorem emits (style : CodeStyle) (shown : Text) : ∃ source,
    emit graph style (some shown) (some graph.rootName) = .ok source ∧
      (Text.Encodable source ↔ (style = .dataclass → Text.Encodable shown)) := by
  have wellFormed := run.wellFormed hex
  obtain ⟨records, order, hperm, -⟩ := run.exists_order hex
  have encodable : ∀ record ∈ records, IsEncodable record := fun record hr =>
    run.isEncodable hex record (hperm.mem_iff.mp hr)
  cases style with
  | csharp =>
    exact ⟨_, Emission.emit_csharp wellFormed order (some shown) _,
      iff_of_true (Emission.encodable_csharpSource encodable shown) nofun⟩
  | dataclass =>
    obtain ⟨c, rest, filled, -⟩ := run.isNameOf_root.isHeaded
    refine ⟨_, Emission.emit_dataclass wellFormed order _ _, ?_⟩
    rw [Emission.encodable_textOf (Emission.encodable_nameOf run.isNameOf_root) (by simp [filled]) encodable]
    simp

end Inference.GraphRun

end Specimen
