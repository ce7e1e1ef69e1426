import Specimen.Proofs.Emission.Reading

/-! Reading emitted source back. Its lines tell each record type in turn, so that one source is emitted for
one list of names, keys, types and optional flags only. -/
namespace Specimen

namespace Emission
open Naming (IsNameOf Scope)

/-- What the line of a field tells. -/
def entryOf (field : Field) : Entry := ⟨field.key, field.type, field.optional⟩

/-- What a dataclass tells of a record type. -/
structure Outline where
  name : Text
  entries : List Entry
  deriving DecidableEq, Repr

/-- What the dataclass of a record type tells. -/
def outlineOf (record : RecordType) : Outline := ⟨record.name, record.fields.map entryOf⟩

/-- The line that stands before a class. -/
def decorator : Text := "@dataclasses.dataclass(kw_only=True)"

/-- The line of a class without fields. -/
def emptyBody : Text := "    pass"

/-- The line that opens and closes a header. -/
def quotes : Text := "\"\"\""

/-- The entries of the class that is being read, and the classes behind it, with one more line before them. -/
def readLine (line : Text) (read : List Entry × List Outline) : Option (List Entry × List Outline) :=
  if line.isEmpty || line = decorator || line = emptyBody then some read
  else match between? "class " ":" line with
    | some name => some ([], ⟨name, read.1⟩ :: read.2)
    | none => (readField line).map fun entry => (entry :: read.1, read.2)

/-- What lines without a header tell, read from the last one on. -/
def readLines : List Text → Option (List Entry × List Outline)
  | [] => some ([], [])
  | line :: rest => (readLines rest).bind (readLine line)

/-- The lines behind a header, which is closed by the second line of three quotes. -/
def bodyLines (lines : List Text) : List Text := ((lines.drop 1).dropWhile (· ≠ quotes)).drop 4

/-- What a source tells of record types. -/
def readSource (source : Text) : Option (List Outline) :=
  (readLines (bodyLines (List.splitOn 0x0A source))).map (·.2)

section Classes
variable {record : RecordType} {lines : List Text} {entries : List Entry} {classes : List Outline}

/-- A record type that is written by names that can be told apart. -/
structure IsPlain (record : RecordType) : Prop where
  named : ∃ text, IsNameOf text record.name
  written : ∀ field ∈ record.fields, IsWritten field.type

theorem attributeNames_misses {low high : Nat} (gap : Text.Gap low high) (bar : Text.Misses low high 0x5F)
    (apart : 0x39 < low ∨ high < 0x30) (fields : List Field) :
    ∀ name ∈ attributeNames fields, ∀ c ∈ name, Text.Misses low high c := by
  have bases : fields.map (fun field => Naming.snakeCase field.name) =
      (fields.map (·.name)).map Naming.snakeCase := by
    rw [List.map_map]
    rfl
  rw [attributeNames, bases]
  exact Scope.claimAll_misses gap bar apart

private theorem attributeNames_colon (fields : List Field) : ∀ name ∈ attributeNames fields, 0x3A ∉ name :=
  fun name hn hin =>
    absurd (attributeNames_misses Text.gap_delimiters (by decide) (by decide) fields name hn _ hin) (by decide)

private theorem attributeNames_feed (fields : List Field) : ∀ name ∈ attributeNames fields, 0x0A ∉ name :=
  fun name hn hin =>
    absurd (attributeNames_misses Text.gap_controls (by decide) (by decide) fields name hn _ hin) (by decide)

/-- The lines of attributes tell the fields, each in its turn. -/
private theorem forall₂_attributes (written : ∀ field ∈ record.fields, IsWritten field.type) :
    List.Forall₂ (fun line field => readField line = some (entryOf field))
      ((dataclassOf record).attributes.map Attribute.line) record.fields := by
  rw [attributes_eq, List.map_map]
  have colon := attributeNames_colon record.fields
  have length := length_attributeNames record.fields
  generalize attributeNames record.fields = names at colon length
  generalize record.fields = fields at written length
  induction fields generalizing names with
  | nil => simp
  | cons field rest ih =>
    obtain ⟨name, more, rfl⟩ := List.exists_cons_of_length_eq_add_one length
    obtain ⟨first, others⟩ := List.forall_mem_cons.mp written
    obtain ⟨plain, plains⟩ := List.forall_mem_cons.mp colon
    exact .cons (readField_line plain first) (ih more plains others (by simpa using length))

/-- A line that tells a field is read as one of the class that is being read. -/
private theorem readLine_of_readField {line : Text} {entry : Entry} (h : readField line = some entry)
    (read : List Entry × List Outline) : readLine line read = some (entry :: read.1, read.2) := by
  have other (text : Text) (ht : readField text = none) : line ≠ text := by
    rintro rfl
    rw [ht] at h
    cases h
  have marks : (line.isEmpty || line = decorator || line = emptyBody) = false := by
    simp [other [] rfl, other decorator rfl, other emptyBody rfl]
  obtain ⟨rest, hrest, -⟩ := Option.bind_eq_some_iff.mp h
  have plain : between? "class " ":" line = none := by
    rw [eq_of_behind? hrest]
    rfl
  rw [readLine, marks, plain, h]
  rfl

private theorem readLines_fields {fields : List Field}
    (told : List.Forall₂ (fun line field => readField line = some (entryOf field)) lines fields)
    {rest : List Text} (hrest : readLines rest = some (entries, classes)) :
    readLines (lines ++ rest) = some (fields.map entryOf ++ entries, classes) := by
  induction told with
  | nil => exact hrest
  | cons first _ ih =>
    rw [List.cons_append, readLines, ih, Option.bind_some, readLine_of_readField first]
    rfl

private theorem readLine_class (name : Text) (read : List Entry × List Outline) :
    readLine ("class " ++ name ++ ":") read = some ([], ⟨name, read.1⟩ :: read.2) := by
  have marks : (("class " ++ name ++ ":" : Text).isEmpty || ("class " ++ name ++ ":" : Text) = decorator ||
      ("class " ++ name ++ ":" : Text) = emptyBody) = false := by
    simp [decorator, emptyBody, Text.ofString]
  rw [readLine, marks, between?_append]
  rfl

/-- The lines of a class: two blank ones, the decorator, its head, and a line for each field, which tells it. -/
inductive IsClass (record : RecordType) : List Text → Prop
  | empty (h : record.fields = []) :
      IsClass record ([[], [], decorator, "class " ++ record.name ++ ":"] ++ [emptyBody])
  | filled {body : List Text} (h : record.fields ≠ [])
      (told : List.Forall₂ (fun line field => readField line = some (entryOf field)) body record.fields) :
      IsClass record ([[], [], decorator, "class " ++ record.name ++ ":"] ++ body)

private theorem isClass_dataclassOf (plain : IsPlain record) : IsClass record (dataclassOf record).lines := by
  have told := forall₂_attributes plain.written
  rw [Dataclass.lines]
  split
  · rename_i h
    rw [List.isEmpty_iff.mp h] at told
    exact .empty (List.forall₂_nil_left_iff.mp told)
  · rename_i h
    refine .filled (fun none => h ?_) told
    rw [none, List.forall₂_nil_right_iff, List.map_eq_nil_iff] at told
    exact List.isEmpty_iff.mpr told

private theorem IsClass.readLines (h : IsClass record lines) {rest : List Text}
    (hrest : Emission.readLines rest = some ([], classes)) :
    Emission.readLines (lines ++ rest) = some ([], outlineOf record :: classes) := by
  have head {body : List Text}
      (hbody : Emission.readLines (body ++ rest) = some (record.fields.map entryOf, classes)) :
      Emission.readLines ([[], [], decorator, "class " ++ record.name ++ ":"] ++ body ++ rest) =
        some ([], outlineOf record :: classes) := by
    simp only [List.cons_append, List.nil_append, Emission.readLines, hbody, Option.bind_some, readLine_class]
    rfl
  cases h with
  | empty none =>
    refine head ?_
    rw [none, List.singleton_append, Emission.readLines, hrest]
    rfl
  | filled _ told => exact head (by simpa using readLines_fields told hrest)

private theorem readLines_classes {records : List RecordType} {groups : List (List Text)}
    (h : List.Forall₂ IsClass records groups) {rest : List Text} (hrest : readLines rest = some ([], [])) :
    readLines (groups.flatten ++ rest) = some ([], records.map outlineOf) := by
  induction h with
  | nil => exact hrest
  | cons first _ ih =>
    rw [List.flatten_cons, List.append_assoc]
    exact first.readLines ih

end Classes

section Feeds
variable {record : RecordType}

private theorem feed_escaped (c : CodePoint) : 0x0A ∉ Json.escaped c := by
  rw [Json.escaped]
  repeat' split
  · rename_i h
    rcases (by simpa using h : c = 0x22 ∨ c = 0x5C) with rfl | rfl <;> decide
  iterate 5 decide
  · rename_i low
    have small : ∀ c < 0x20, 0x0A ∉ ("\\u" ++ Text.hexadecimal 4 c : Text) := by decide
    exact small c low
  · rename_i feed _ _ _
    exact fun h => feed (List.mem_singleton.mp h).symm

private theorem feed_attribute {claimed : Text} {field : Field} (plain : 0x0A ∉ claimed)
    (written : IsWritten field.type) : 0x0A ∉ (attributeOf claimed field).line := by
  have annotation : 0x0A ∉ annotationOf field := fun h => (plain_annotationOf written _ h).2 rfl
  have key : 0x0A ∉ field.key.flatMap Json.escaped := fun h =>
    let ⟨c, _, hc⟩ := List.mem_flatMap.mp h
    feed_escaped c hc
  have default : 0x0A ∉ (if field.optional then ("default=None, " : Text) else []) := by
    split <;> decide
  have parts : ∀ part ∈ ([indent, "= dataclasses.field(", "metadata=\x7b\"json\": \"", "\x7d)"] : List Text),
      0x0A ∉ part := by decide
  simp only [List.forall_mem_cons, List.not_mem_nil, false_implies, implies_true, and_true] at parts
  obtain ⟨first, call, metadata, last⟩ := parts
  rw [line_attributeOf]
  simp [first, plain, annotation, call, default, metadata, key, last]

private theorem feed_class (plain : IsPlain record) : ∀ line ∈ (dataclassOf record).lines, 0x0A ∉ line := by
  obtain ⟨text, named⟩ := plain.named
  have name : 0x0A ∉ record.name := fun hin =>
    absurd (named.misses Text.gap_controls (by decide) _ hin) (by decide)
  have head : 0x0A ∉ ("class " ++ record.name ++ ":" : Text) := by
    have parts : 0x0A ∉ ("class " : Text) ∧ 0x0A ∉ (":" : Text) := by decide
    simp [parts, name]
  have marks : ∀ line ∈ ([[], [], decorator, indent ++ Text.ofString "pass"] : List Text), 0x0A ∉ line := by
    decide
  have attributes : ∀ line ∈ (dataclassOf record).attributes.map Attribute.line, 0x0A ∉ line := by
    rw [attributes_eq]
    simp only [List.forall_mem_map]
    intro pair hp
    exact feed_attribute (attributeNames_feed record.fields pair.1 (List.of_mem_zip hp).1)
      (plain.written pair.2 (List.of_mem_zip hp).2)
  intro line hl
  rw [Dataclass.lines] at hl
  simp only [List.forall_mem_cons] at marks
  obtain ⟨blank, -, before, pass, -⟩ := marks
  rcases List.mem_append.mp hl with hl | hl
  · simp only [List.mem_cons, List.not_mem_nil, or_false] at hl
    rcases hl with rfl | rfl | rfl | rfl
    exacts [blank, blank, before, head]
  · split at hl
    · exact List.mem_singleton.mp hl ▸ pass
    · exact attributes line hl

private theorem feed_header {nameSpace rootName : Text} (space : 0x0A ∉ nameSpace) (root : 0x0A ∉ rootName)
    (rootIsArray : Bool) : ∀ line ∈ headerLines nameSpace rootName rootIsArray, 0x0A ∉ line := by
  have parts : ∀ part ∈ (["Types generated from the ", " JSON sample.", "Namespace: ",
      "The sample's root is a JSON array of ", ".", "import dataclasses", "import typing", quotes] :
      List Text), 0x0A ∉ part := by decide
  simp only [List.forall_mem_cons, quotes] at parts
  obtain ⟨sample, sampleEnd, space', array, arrayEnd, dataclasses, typing, quotes, -⟩ := parts
  rw [headerLines]
  cases nameSpace.isEmpty <;> cases rootIsArray <;>
    simp [space, root, sample, sampleEnd, space', array, arrayEnd, dataclasses, typing, quotes]

private theorem bodyLines_quoted {inner : List Text} (plain : quotes ∉ inner) (a b c : Text) (rest : List Text) :
    bodyLines (quotes :: (inner ++ quotes :: a :: b :: c :: rest)) = rest := by
  rw [bodyLines, List.drop_one, List.tail_cons, dropWhile_ne plain]
  rfl

/-- The lines behind the header of a source. -/
private theorem bodyLines_header (nameSpace rootName : Text) (rootIsArray : Bool) (rest : List Text) :
    bodyLines (headerLines nameSpace rootName rootIsArray ++ rest) = rest := by
  have plain : quotes ∉ (("Types generated from the " : Text) ++ rootName ++ " JSON sample.") ::
      ((if nameSpace.isEmpty then [] else [[], ("Namespace: " : Text) ++ nameSpace]) ++
        if rootIsArray then ([[], "The sample's root is a JSON array of " ++ rootName ++ "."] : List Text)
        else []) := by
    cases nameSpace.isEmpty <;> cases rootIsArray <;> simp [quotes, Text.ofString]
  simpa [headerLines, quotes] using bodyLines_quoted plain [] "import dataclasses" "import typing" rest

end Feeds

/-- The header of a graph. A namespace or a root name left out is the graph's own. -/
def headerOf (graph : TypeGraph) (nameSpace rootName : Option Text) : List Text :=
  headerLines (nameSpace.getD graph.nameSpace)
    ((rootName.filter fun name => !name.isEmpty).getD graph.rootName) graph.rootIsArray

/-- A source whose lines are a header, the lines of a class for each record type, and nothing behind the last
line end; so that it tells the record types. -/
structure Decodes (source : Text) (header : List Text) (records : List RecordType) : Prop where
  lines : ∃ classes, List.splitOn 0x0A source = header ++ classes.flatten ++ [[]] ∧
    List.Forall₂ IsClass records classes
  told : readSource source = some (records.map outlineOf)

private theorem decodes_textOf {graph : TypeGraph} {nameSpace rootName : Option Text} {records : List RecordType}
    (header : ∀ line ∈ headerOf graph nameSpace rootName, 0x0A ∉ line)
    (plain : ∀ record ∈ records, IsPlain record) :
    Decodes (textOf graph nameSpace rootName (records.map dataclassOf)) (headerOf graph nameSpace rootName)
      records := by
  have classes : List.Forall₂ IsClass records (records.map fun record => (dataclassOf record).lines) := by
    rw [List.forall₂_map_right_iff, List.forall₂_same]
    exact fun record hr => isClass_dataclassOf (plain record hr)
  have filled : headerOf graph nameSpace rootName ≠ [] := by simp [headerOf, headerLines]
  have lines : List.splitOn 0x0A (textOf graph nameSpace rootName (records.map dataclassOf)) =
      headerOf graph nameSpace rootName ++ (records.map fun record => (dataclassOf record).lines).flatten ++
        [[]] := by
    rw [textOf, ← headerOf, splitOn_unlines (by simp [filled]), List.flatMap_map, List.flatMap_def]
    intro line hl
    rcases List.mem_append.mp hl with hl | hl
    · exact header line hl
    · obtain ⟨declared, hd, hl⟩ := List.mem_flatMap.mp hl
      obtain ⟨record, hr, rfl⟩ := List.mem_map.mp hd
      exact feed_class (plain record hr) line hl
  refine ⟨⟨_, lines, classes⟩, ?_⟩
  rw [readSource, lines, List.append_assoc, headerOf, bodyLines_header, readLines_classes classes rfl]
  rfl

end Emission

namespace Inference.GraphRun
open Emission (IsPlain)
variable {digest : Fingerprint.Digest} {nameSpace rootName : Text} {shape : Shape} {fields : List Field}
  {builder : Builder} {print : Text} {graph : TypeGraph}

/-- The records of a sample are written by names that can be told apart. -/
theorem isPlain (run : GraphRun digest nameSpace rootName shape fields builder print graph)
    (hex : digest.IsHexadecimal) : ∀ record ∈ graph.records, IsPlain record := by
  intro record hr
  refine ⟨run.named hex record hr, fun field hf => ⟨run.typed hr field hf, fun name hn => ?_⟩⟩
  obtain ⟨target, found⟩ := (run.wellFormed hex).resolved record hr field hf name hn
  obtain ⟨hin, rfl⟩ := TypeGraph.mem_of_find? found
  exact run.named hex target hin

end Inference.GraphRun

namespace Emission
open Inference (infer)

/-- A source that is emitted for the graph of some sample, and the record types of the graph. -/
inductive IsEmitted : Text → List RecordType → Prop
  | intro {sample : Json.Document} {widen : Bool} {nameSpace rootName : Text} {result : Inference.Result}
      {records : List RecordType} {shownSpace shownRoot : Option Text} {source : Text}
      (parsed : Json.IsSample sample) (inferred : infer widen nameSpace rootName sample = .ok result)
      (order : result.graph.dependencyOrder = .ok records)
      (space : 0x0A ∉ shownSpace.getD result.graph.nameSpace) (root : ∀ name ∈ shownRoot, 0x0A ∉ name)
      (emitted : emit result.graph .dataclass shownSpace shownRoot = .ok source) : IsEmitted source records

private theorem exists_decodes {sample : Json.Document} (h : Json.IsSample sample) (widen : Bool)
    (nameSpace rootName : Text) :
    ∃ result records, infer widen nameSpace rootName sample = .ok result ∧
      result.graph.dependencyOrder = .ok records ∧
      ∀ shownSpace shownRoot, 0x0A ∉ shownSpace.getD result.graph.nameSpace →
        (∀ name ∈ shownRoot, 0x0A ∉ name) →
        ∃ source, emit result.graph .dataclass shownSpace shownRoot = .ok source ∧
          Decodes source (headerOf result.graph shownSpace shownRoot) records := by
  have hex := Fingerprint.sha256_isHexadecimal
  obtain ⟨result, _, _, _, hresult, run⟩ := Inference.inferWith_run hex h widen nameSpace rootName
  obtain ⟨records, order, hperm, -⟩ := run.exists_order hex
  refine ⟨result, records, hresult, order, fun shownSpace shownRoot space root =>
    ⟨_, emit_dataclass (run.wellFormed hex) order shownSpace shownRoot, decodes_textOf (feed_header space ?_ _)
      fun record hr => run.isPlain hex record (hperm.mem_iff.mp hr)⟩⟩
  cases hshown : shownRoot.filter fun name => !name.isEmpty with
  | some name => exact root name (Option.mem_filter_iff.mp hshown).1
  | none =>
    rw [Option.getD_none]
    exact fun hin => absurd (run.isNameOf_root.misses Text.gap_controls (by decide) _ hin) (by decide)

theorem IsEmitted.told {source : Text} {records : List RecordType} (h : IsEmitted source records) :
    readSource source = some (records.map outlineOf) := by
  obtain ⟨parsed, inferred, order, space, root, emitted⟩ := h
  obtain ⟨result, records, inferred', order', decodes⟩ := exists_decodes parsed _ _ _
  cases inferred.symm.trans inferred'
  cases order.symm.trans order'
  obtain ⟨source, emitted', decodes⟩ := decodes _ _ space root
  cases emitted.symm.trans emitted'
  exact decodes.told

/-- Every sample's graph is emitted as a source whose lines tell its record types, so that the same source is
emitted for record types of the same names, keys, types and optional flags only. -/
theorem infer_decodes {sample : Json.Document} (h : Json.IsSample sample) (widen : Bool)
    (nameSpace rootName : Text) :
    ∃ result records, infer widen nameSpace rootName sample = .ok result ∧
      result.graph.dependencyOrder = .ok records ∧
      ∀ shownSpace shownRoot, 0x0A ∉ shownSpace.getD result.graph.nameSpace →
        (∀ name ∈ shownRoot, 0x0A ∉ name) →
        ∃ source, emit result.graph .dataclass shownSpace shownRoot = .ok source ∧
          Decodes source (headerOf result.graph shownSpace shownRoot) records ∧
          ∀ others, IsEmitted source others → others.map outlineOf = records.map outlineOf := by
  obtain ⟨result, records, inferred, order, decodes⟩ := exists_decodes h widen nameSpace rootName
  refine ⟨result, records, inferred, order, fun shownSpace shownRoot space root => ?_⟩
  obtain ⟨source, emitted, decodes⟩ := decodes shownSpace shownRoot space root
  refine ⟨source, emitted, decodes, fun others h => ?_⟩
  exact Option.some.inj (h.told.symm.trans decodes.told)

/-- A key with quotes, a backslash and a line end, of an array of records with an optional field. -/
theorem infer_decodes_quoted :
    let key : Text := "say \"hi\" \\\n"
    let sample : Json.Document := .object [(key, .array [.object [("\x7d)", .number "1")], .object []])]
    let outlines : List Outline := [⟨"SayHi", [⟨"\x7d)", .scalar .integer, true⟩]⟩,
      ⟨"Root", [⟨key, .array (.object "SayHi"), false⟩]⟩]
    Json.IsSample sample ∧ ∃ result records source, infer true "" "Root" sample = .ok result ∧
      result.graph.dependencyOrder = .ok records ∧ records.map outlineOf = outlines ∧
      emit result.graph .dataclass (some "Models") none = .ok source ∧
      Decodes source (headerOf result.graph (some "Models") none) records ∧
      ∀ others, IsEmitted source others → others.map outlineOf = outlines := by
  intro key sample outlines
  have h : Json.IsSample sample := ⟨by decide, by decide, by decide⟩
  obtain ⟨result, records, inferred, order, decodes⟩ := infer_decodes h true "" "Root"
  obtain ⟨source, emitted, decodes, determined⟩ :=
    decodes (some "Models") none (show 0x0A ∉ ("Models" : Text) by decide) nofun
  have runs : (((infer true "" "Root" sample).toOption.bind (·.graph.dependencyOrder.toOption)).map
      fun records => records.map outlineOf) = some outlines := by decide +kernel
  rw [inferred, Except.toOption, Option.bind_some, order] at runs
  have told : records.map outlineOf = outlines := Option.some.inj runs
  exact ⟨h, result, records, source, inferred, order, told, emitted, decodes, told ▸ determined⟩

end Emission

end Specimen
