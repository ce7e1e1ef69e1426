import Specimen.Proofs.Emission.Encoding
import Specimen.Proofs.Emission.Regular
import Specimen.Proofs.Inference.Unencodable
import Specimen.Proofs.Steps

/-! The properties of emitted classes as C# reads them: under each key, in a line of its own, one property with a
type and a name. They are read back where no key has a character that ends a line. -/
namespace Specimen.Emission
open Naming (IsNameOf Scope)
open Inference (infer)

/-- What a line of classes says. -/
inductive Line where
  | layout
  | opens (name : Text)
  | key (key : Text)
  | property (type name : Text)
  deriving DecidableEq

/-- The accessors of a property. -/
def accessors : List Text := ["\x7b", "get;", "set;", "\x7d"]

/-- What the words of a line without a key say. -/
def readWords : List Text → Option Line
  | [] => some .layout
  | first :: rest =>
    if first = "using" || first = "namespace" then some .layout
    else if first = "\x7b" || first = "\x7d" then if rest.isEmpty then some .layout else none
    else if first = "public" then
      match rest with
      | [second, name] => if second = "class" then some (.opens name) else none
      | type :: name :: more => if more = accessors then some (.property type name) else none
      | _ => none
    else none

/-- What a line says, blanks before it left out. -/
def readCsharp (line : Text) : Option Line :=
  match behind? "[JsonProperty(\"" (line.dropWhile (· = 0x20)) with
  | some rest => (readRegular 0 rest).bind fun (key, after) => if after = ")]" then some (.key key) else none
  | none => readWords (Text.words line)

/-- A property of a class, with the key that it is written under. -/
structure Property where
  key : Text
  type : Text
  name : Text
  deriving DecidableEq

/-- A class with its properties. -/
structure Listing where
  name : Text
  properties : List Property
  deriving DecidableEq

/-- The properties before the next class, and the classes from there on. The line behind a key's is its property's. -/
def readListings : List Text → Option (List Property × List Listing)
  | [] => some ([], [])
  | line :: rest => (readCsharp line).bind fun
    | .layout => readListings rest
    | .opens name => (readListings rest).map fun read => ([], ⟨name, read.1⟩ :: read.2)
    | .property _ _ => none
    | .key key => match rest with
      | [] => none
      | next :: rest => (readCsharp next).bind fun
        | .property type name =>
          (readListings rest).map fun read => (⟨key, type, name⟩ :: read.1, read.2)
        | _ => none

/-- The classes of a source, which holds no property outside of them. -/
def readClasses (source : Text) : Option (List Listing) :=
  (readListings (source.splitOnP endsLine)).bind fun (loose, classes) => if loose.isEmpty then some classes else none

/-- A class tells the fields of a record type: each key and type in its turn, under names that differ from each
other and from the name of the class. -/
structure Listing.Tells (listing : Listing) (record : RecordType) : Prop where
  name : listing.name = record.name
  keys : listing.properties.map (·.key) = record.fields.map (·.key)
  types : listing.properties.map (·.type) = record.fields.map csharpType
  distinct : (listing.properties.map (·.name)).Nodup
  apart : listing.name ∉ listing.properties.map (·.name)

section Listings

/-- The property of a field, under a name. -/
def propertyOf (name : Text) (field : Field) : Property := ⟨field.key, csharpType field, name⟩

/-- The properties of fields, each name claimed in turn. -/
def propertiesOf (scope : Scope) (fields : List Field) : List Property :=
  ((scope.claimAll (fields.map (·.name))).zip fields).map fun (name, field) => propertyOf name field

/-- The class of a record type. -/
def listingOf (record : RecordType) : Listing :=
  ⟨record.name, propertiesOf (Scope.empty.reserve record.name) record.fields⟩

private theorem length_claimed (scope : Scope) (fields : List Field) :
    (scope.claimAll (fields.map (·.name))).length = fields.length := by
  rw [Scope.length_claimAll, List.length_map]

private theorem names_propertiesOf (scope : Scope) (fields : List Field) :
    (propertiesOf scope fields).map (·.name) = scope.claimAll (fields.map (·.name)) := by
  rw [propertiesOf, List.map_map]
  exact List.map_fst_zip (length_claimed scope fields).le

private theorem map_propertiesOf {α : Type} (scope : Scope) (fields : List Field) (f : Field → α) {g : Property → α}
    (same : ∀ name field, g (propertyOf name field) = f field) : (propertiesOf scope fields).map g = fields.map f := by
  have second := List.map_snd_zip (length_claimed scope fields).ge
  rw [propertiesOf, List.map_map]
  conv_rhs => rw [← second, List.map_map]
  exact List.map_congr_left fun pair _ => same pair.1 pair.2

private theorem tells_listingOf (record : RecordType) : (listingOf record).Tells record := by
  refine ⟨rfl, map_propertiesOf _ _ _ fun _ _ => rfl, map_propertiesOf _ _ _ fun _ _ => rfl, ?_, ?_⟩
  · rw [listingOf, names_propertiesOf]
    exact Scope.nodup_claimAll _ _
  · rw [listingOf, names_propertiesOf]
    intro hn
    have free := Scope.claimAll_fresh record.name hn
    rw [Scope.isTaken_reserve.mpr (.inl rfl)] at free
    cases free

end Listings

section Words
variable {word : Text} {c : CodePoint}

/-- Whether a character separates neither words nor lines. -/
def isSolid (c : CodePoint) : Bool := c ≠ 0x20 && !endsLine c

private theorem isSolid_of_misses {c : Nat} (controls : Text.Misses 0x1 0x2F c) (latin : Text.Misses 0x80 0x9F c)
    (separators : Text.Misses 0x2028 0x2029 c) : isSolid c = true := by
  simp only [Text.Misses] at controls latin separators
  have apart : c ≠ 0x20 ∧ c ≠ 0x0A ∧ c ≠ 0x0D ∧ c ≠ 0x85 ∧ c ≠ 0x2028 ∧ c ≠ 0x2029 := by omega
  simpa [isSolid, endsLine, lineEnds] using apart

private theorem isSolid_claim {text name : Text} (named : IsNameOf text name) (scope : Scope) :
    ∀ c ∈ (scope.claim name).1, isSolid c = true := fun c hc =>
  isSolid_of_misses (claim_misses Text.gap_controls (by decide) named scope c hc)
    (claim_misses Text.gap_latinControls (by decide) named scope c hc)
    (claim_misses Text.gap_separators (by decide) named scope c hc)

private theorem isSolid_nameOf {text name : Text} (named : IsNameOf text name) :
    ∀ c ∈ name, isSolid c = true := fun c hc =>
  isSolid_of_misses (named.misses Text.gap_controls (by decide) c hc)
    (named.misses Text.gap_latinControls (by decide) c hc) (named.misses Text.gap_separators (by decide) c hc)

/-- A text of one word. -/
structure IsWord (word : Text) : Prop where
  filled : word ≠ []
  solid : ∀ c ∈ word, isSolid c = true

theorem IsWord.joined (h : IsWord word) : 0x20 ∉ word := fun hin => absurd (h.solid _ hin) (by decide)

private theorem isWord_nameOf {text name : Text} (named : IsNameOf text name) : IsWord name := by
  obtain ⟨c, rest, rfl, -⟩ := named.isHeaded
  exact ⟨List.cons_ne_nil c rest, isSolid_nameOf named⟩

private theorem isWord_claim {text name : Text} (named : IsNameOf text name) (scope : Scope) :
    IsWord (scope.claim name).1 := by
  refine ⟨?_, isSolid_claim named scope⟩
  have filled := (isWord_nameOf named).filled
  rcases scope.claim_eq name with h | ⟨number, h⟩
  · rwa [h]
  · rw [h]
    exact List.append_ne_nil_of_left_ne_nil filled _

private theorem isWord_csharpType {field : Field} (written : IsWritten field.type) : IsWord (csharpType field) := by
  have filled : csharpTypeRef field.type ≠ [] := by
    cases h : field.type with
    | null | any => decide
    | scalar kind => cases kind <;> decide
    | object name =>
      obtain ⟨_, named⟩ := written.named name (by rw [h]; rfl)
      exact (isWord_nameOf named).filled
    | array element => simp [csharpTypeRef, Text.ofString]
  refine ⟨List.append_ne_nil_of_left_ne_nil filled _, forall_mem_csharpType (by decide) fun name hn => ?_⟩
  obtain ⟨_, named⟩ := written.named name hn
  exact isSolid_nameOf named

private theorem words_cons (h : IsWord word) (rest : Text) :
    Text.words (word ++ 0x20 :: rest) = word :: Text.words rest := by
  rw [Text.words, List.splitOn_append_cons_self_of_not_mem h.joined]
  simp [h.filled, Text.words]

private theorem words_blank {outer : Text} (blank : ∀ c ∈ outer, c = 0x20) (rest : Text) :
    Text.words (outer ++ rest) = Text.words rest := by
  induction outer with
  | nil => rfl
  | cons c outer ih =>
    obtain ⟨rfl, others⟩ := List.forall_mem_cons.mp blank
    rw [← ih others]
    simp [Text.words, List.splitOn_cons_eq_if_modifyHead]

private theorem words_word (h : IsWord word) : Text.words word = [word] := by
  simp [Text.words, List.splitOn_eq_singleton h.joined, h.filled]

end Words

section Reading
variable {outer line next rest : Text} {lines : List Text} {properties : List Property} {classes : List Listing}

/-- Blanks before a line say nothing. -/
private theorem readCsharp_blank (blank : ∀ c ∈ outer, c = 0x20) (line : Text) :
    readCsharp (outer ++ line) = readCsharp line := by
  have dropped : (outer ++ line).dropWhile (· = 0x20) = line.dropWhile (· = 0x20) :=
    List.dropWhile_append_of_pos fun c hc => decide_eq_true (blank c hc)
  rw [readCsharp, dropped, words_blank blank, readCsharp]

private theorem readCsharp_key {key : Text} (plain : ∀ c ∈ key, endsLine c = false) :
    readCsharp ("[JsonProperty(\"" ++ csharpEscaped key ++ "\")]") = some (.key key) := by
  have start : ("[JsonProperty(\"" ++ csharpEscaped key ++ "\")]" : Text).dropWhile (· = 0x20) =
      "[JsonProperty(\"" ++ (csharpEscaped key ++ "\")]") := by
    rw [List.append_assoc]
    rfl
  rw [readCsharp, start, behind?_append]
  simp only [readRegular_csharpEscaped plain]
  simp [readRegular, Text.ofString]

/-- A line that a key breaks off says nothing. -/
private theorem readCsharp_broken {key : Text} (plain : ∀ c ∈ key, endsLine c = false) :
    readCsharp ("[JsonProperty(\"" ++ csharpEscaped key) = none := by
  have start : ("[JsonProperty(\"" ++ csharpEscaped key : Text).dropWhile (· = 0x20) =
      "[JsonProperty(\"" ++ csharpEscaped key := rfl
  have cut := readRegular_csharpEscaped plain []
  rw [List.append_nil] at cut
  rw [readCsharp, start, behind?_append]
  simp only [cut]
  rfl

private theorem readCsharp_opens {name : Text} (h : IsWord name) :
    readCsharp ("public class " ++ name) = some (.opens name) := by
  have none : behind? "[JsonProperty(\"" (("public class " ++ name : Text).dropWhile (· = 0x20)) = none := rfl
  have words : Text.words ("public class " ++ name) = (["public", "class", name] : List Text) := by
    have whole : ("public class " ++ name : Text) =
        Text.ofString "public" ++ 0x20 :: (Text.ofString "class" ++ 0x20 :: name) := rfl
    rw [whole, words_cons ⟨by decide, by decide⟩, words_cons ⟨by decide, by decide⟩, words_word h]
  rw [readCsharp, none, words]
  rfl

private theorem readCsharp_property {type name : Text} (typed : IsWord type) (named : IsWord name) :
    readCsharp ("public " ++ type ++ " " ++ name ++ " \x7b get; set; \x7d") = some (.property type name) := by
  have none : behind? "[JsonProperty(\"" (("public " ++ type ++ " " ++ name ++ " \x7b get; set; \x7d" : Text).dropWhile
      (· = 0x20)) = none := rfl
  have words : Text.words ("public " ++ type ++ " " ++ name ++ " \x7b get; set; \x7d") =
      Text.ofString "public" :: type :: name :: accessors := by
    have whole : ("public " ++ type ++ " " ++ name ++ " \x7b get; set; \x7d" : Text) =
        Text.ofString "public" ++ 0x20 :: (type ++ 0x20 :: (name ++ 0x20 :: "\x7b get; set; \x7d")) := by
      simp [Text.ofString]
    rw [whole, words_cons ⟨by decide, by decide⟩, words_cons typed, words_cons named]
    rfl
  rw [readCsharp, none, words]
  rfl

private theorem readListings_nil : readListings [] = some ([], []) := by
  rw [readListings]

private theorem readListings_layout (h : readCsharp line = some .layout) :
    readListings (line :: lines) = readListings lines := by
  rw [readListings, h]
  rfl

private theorem readListings_opens {name : Text} (h : readCsharp line = some (.opens name))
    (hlines : readListings lines = some (properties, classes)) :
    readListings (line :: lines) = some ([], ⟨name, properties⟩ :: classes) := by
  rw [readListings, h, Option.bind_some, hlines]
  rfl

private theorem readListings_property {key type name : Text} (h : readCsharp line = some (.key key))
    (hnext : readCsharp next = some (.property type name)) (hlines : readListings lines = some (properties, classes)) :
    readListings (line :: next :: lines) = some (⟨key, type, name⟩ :: properties, classes) := by
  rw [readListings, h, Option.bind_some]
  simp only [hnext, Option.bind_some, hlines]
  rfl

/-- Lines are not read if one of them is not. -/
private theorem readListings_none (h : line ∈ lines) (broken : readCsharp line = none) : readListings lines = none := by
  induction lines using List.twoStepInduction with
  | nil => cases h
  | singleton first =>
    rw [← List.mem_singleton.mp h, readListings, broken]
    rfl
  | cons_cons first second rest ih ihSecond =>
    rw [readListings]
    rcases List.mem_cons.mp h with rfl | h
    · rw [broken]
      rfl
    · cases readCsharp first with
      | none => rfl
      | some said =>
        cases said with
        | layout => exact ihSecond second h
        | opens name =>
          show Option.map _ (readListings (second :: rest)) = none
          rw [ihSecond second h]
          rfl
        | property type name => rfl
        | key key =>
          show (readCsharp second).bind _ = none
          rcases List.mem_cons.mp h with rfl | h
          · rw [broken]
            rfl
          · cases readCsharp second with
            | none => rfl
            | some said =>
              cases said with
              | layout | opens | key => rfl
              | property type name =>
                show Option.map _ (readListings rest) = none
                rw [ih h]
                rfl

end Reading

section Source
variable {outer nameSpace : Text} {rest : List Text} {field : Field} {fields : List Field} {record : RecordType}
  {records : List RecordType} {properties : List Property} {classes : List Listing}

/-- No key of a record type has a character that ends a line. -/
def KeysInline (record : RecordType) : Prop := ∀ field ∈ record.fields, ∀ c ∈ field.key, endsLine c = false

instance (record : RecordType) : Decidable (KeysInline record) :=
  inferInstanceAs (Decidable (∀ field ∈ record.fields, ∀ c ∈ field.key, endsLine c = false))

private theorem blank_indent : ∀ c ∈ indent, c = 0x20 := by decide

private theorem readCsharp_margin (blank : ∀ c ∈ outer, c = 0x20) (line : Text) :
    readCsharp (outer ++ indent ++ line) = readCsharp line :=
  readCsharp_blank (List.forall_mem_append.mpr ⟨blank, blank_indent⟩) line

/-- The lines of properties tell their fields, whatever names are in use before them. -/
private theorem readListings_propertiesFrom (blank : ∀ c ∈ outer, c = 0x20) (scope : Scope)
    (written : ∀ field ∈ fields, IsWritten field.type) (names : ∀ field ∈ fields, ∃ text, IsNameOf text field.name)
    (keys : ∀ field ∈ fields, ∀ c ∈ field.key, endsLine c = false) (hrest : readListings rest = some ([], classes)) :
    readListings (propertiesFrom outer scope fields ++ rest) = some (propertiesOf scope fields, classes) := by
  induction fields generalizing scope with
  | nil => exact hrest
  | cons field more ih =>
    obtain ⟨typed, others⟩ := List.forall_mem_cons.mp written
    obtain ⟨⟨text, named⟩, moreNames⟩ := List.forall_mem_cons.mp names
    obtain ⟨plain, moreKeys⟩ := List.forall_mem_cons.mp keys
    have behind : readListings ((if more.isEmpty then [] else
        [] :: propertiesFrom outer (scope.claim field.name).2 more) ++ rest) =
          some (propertiesOf (scope.claim field.name).2 more, classes) := by
      cases more with
      | nil => exact hrest
      | cons next more => exact (readListings_layout rfl).trans (ih _ others moreNames moreKeys)
    have key : readCsharp (outer ++ indent ++ "[JsonProperty(\"" ++ csharpEscaped field.key ++ "\")]") =
        some (.key field.key) := by
      simpa only [List.append_assoc] using (readCsharp_margin blank _).trans (readCsharp_key plain)
    have property : readCsharp (outer ++ indent ++ "public " ++ csharpType field ++ " " ++
        (scope.claim field.name).1 ++ " \x7b get; set; \x7d") =
          some (.property (csharpType field) (scope.claim field.name).1) := by
      simpa only [List.append_assoc] using (readCsharp_margin blank _).trans
        (readCsharp_property (isWord_csharpType typed) (isWord_claim named scope))
    exact readListings_property key property behind

private theorem readListings_csharpClass (blank : ∀ c ∈ outer, c = 0x20) (h : IsEncodable record)
    (keys : KeysInline record)
    (hrest : readListings rest = some ([], classes)) :
    readListings (csharpClass outer record ++ rest) = some ([], listingOf record :: classes) := by
  obtain ⟨_, named⟩ := h.plain.named
  have closing : readListings ((outer ++ ("\x7d" : Text)) :: rest) = some ([], classes) :=
    (readListings_layout (readCsharp_blank blank _)).trans hrest
  have body := readListings_propertiesFrom blank (Scope.empty.reserve record.name) h.plain.written h.names keys closing
  have opening : readCsharp (outer ++ "public class " ++ record.name) = some (.opens record.name) := by
    simpa only [List.append_assoc] using (readCsharp_blank blank _).trans (readCsharp_opens (isWord_nameOf named))
  simp only [csharpClass, List.append_assoc, List.cons_append, List.nil_append]
  exact readListings_opens (by simpa only [List.append_assoc] using opening)
    ((readListings_layout (readCsharp_blank blank _)).trans body)

private theorem readListings_csharpClasses (blank : ∀ c ∈ outer, c = 0x20) (h : ∀ record ∈ records, IsEncodable record)
    (keys : ∀ record ∈ records, KeysInline record) (hrest : readListings rest = some ([], [])) :
    readListings (csharpClasses outer records ++ rest) = some ([], records.map listingOf) := by
  induction records with
  | nil => exact hrest
  | cons record more ih =>
    obtain ⟨first, others⟩ := List.forall_mem_cons.mp h
    obtain ⟨plain, moreKeys⟩ := List.forall_mem_cons.mp keys
    have behind : readListings ((if more.isEmpty then [] else [] :: csharpClasses outer more) ++ rest) =
        some ([], more.map listingOf) := by
      cases more with
      | nil => exact hrest
      | cons next more => exact (readListings_layout rfl).trans (ih others moreKeys)
    rw [csharpClasses, List.append_assoc]
    exact readListings_csharpClass blank first plain behind

private theorem readCsharp_namespace (nameSpace : Text) :
    readCsharp ("namespace " ++ csharpNamespace nameSpace) = some .layout := by
  have none : behind? "[JsonProperty(\"" (("namespace " ++ csharpNamespace nameSpace : Text).dropWhile (· = 0x20)) =
      none := rfl
  have whole : ("namespace " ++ csharpNamespace nameSpace : Text) =
      Text.ofString "namespace" ++ 0x20 :: csharpNamespace nameSpace := rfl
  rw [readCsharp, none, whole, words_cons ⟨by decide, by decide⟩]
  rfl

/-- The lines of a source tell its record types. -/
private theorem readListings_csharpLines (h : ∀ record ∈ records, IsEncodable record)
    (keys : ∀ record ∈ records, KeysInline record) (nameSpace : Text) :
    readListings (csharpLines records nameSpace ++ [[]]) = some ([], records.map listingOf) := by
  have last : readListings [[]] = some ([], []) := (readListings_layout rfl).trans readListings_nil
  have body : readListings ((if nameSpace.isEmpty then csharpClasses [] records
      else csharpNested nameSpace (csharpClasses indent records)) ++ [[]]) = some ([], records.map listingOf) := by
    split
    · exact readListings_csharpClasses nofun h keys last
    · have classes : readListings (csharpClasses indent records ++ [("\x7d" : Text), []]) =
          some ([], records.map listingOf) :=
        readListings_csharpClasses blank_indent h keys ((readListings_layout rfl).trans last)
      rw [csharpNested, List.append_assoc, List.append_assoc]
      exact (readListings_layout (readCsharp_namespace nameSpace)).trans ((readListings_layout rfl).trans classes)
  rw [csharpLines, List.append_assoc]
  exact (readListings_layout rfl).trans ((readListings_layout rfl).trans ((readListings_layout rfl).trans body))

/-- Lines are told apart piece by piece, with nothing behind the last one. -/
private theorem splitOnP_unlines {lines : List Text} (filled : lines ≠ []) :
    (unlines lines).splitOnP endsLine = lines.flatMap (·.splitOnP endsLine) ++ [[]] := by
  have feed : endsLine 0x0A = true := by decide
  induction lines with
  | nil => exact absurd rfl filled
  | cons line rest ih =>
    by_cases more : rest = []
    · subst more
      simpa [unlines] using List.splitOnP_append_cons line [] feed
    · rw [unlines_cons line more, List.splitOnP_append_cons _ _ feed, ih more, List.flatMap_cons, List.append_assoc]

private theorem inline_of_isSolid {text : Text} (solid : ∀ c ∈ text, isSolid c = true) :
    ∀ c ∈ text, endsLine c = false :=
  fun c hc => by simpa using ((Bool.and_eq_true _ _).mp (solid c hc)).2

private theorem isSolid_normalize (text : Text) : ∀ c ∈ Naming.normalize text, isSolid c = true := fun c hc =>
  isSolid_of_misses (Naming.normalize_misses Text.gap_controls text c hc)
    (Naming.normalize_misses Text.gap_latinControls text c hc) (Naming.normalize_misses Text.gap_separators text c hc)

private theorem isMadeOf_endsLine (h : IsEncodable record) (keys : KeysInline record) :
    IsMadeOf (endsLine · = false) record := by
  obtain ⟨_, named⟩ := h.plain.named
  refine ⟨inline_of_isSolid (isSolid_nameOf named), fun field hf name hn => ?_, keys, fun field hf scope => ?_⟩
  · obtain ⟨_, target⟩ := (h.plain.written field hf).named name hn
    exact inline_of_isSolid (isSolid_nameOf target)
  · obtain ⟨_, member⟩ := h.names field hf
    exact inline_of_isSolid (isSolid_claim member scope)

/-- Where no key has a line end inside, the lines of a source are those that it was made of. -/
private theorem splitOnP_csharpSource (h : ∀ record ∈ records, IsEncodable record)
    (keys : ∀ record ∈ records, KeysInline record) (nameSpace : Text) :
    (csharpSource records nameSpace).splitOnP endsLine = csharpLines records nameSpace ++ [[]] := by
  have space : ∀ c ∈ csharpNamespace nameSpace, endsLine c = false :=
    forall_mem_csharpNamespace (by decide) (fun text => inline_of_isSolid (isSolid_normalize text)) nameSpace
  have inline : ∀ line ∈ csharpLines records nameSpace, ∀ c ∈ line, endsLine c = false :=
    forall_mem_csharpLines (by decide) space fun record hr => isMadeOf_endsLine (h record hr) (keys record hr)
  have single : (csharpLines records nameSpace).flatMap (·.splitOnP endsLine) =
      (csharpLines records nameSpace).flatMap fun line => [line] :=
    List.flatMap_congr fun line hl => List.splitOnP_eq_singleton (inline line hl)
  have filled : csharpLines records nameSpace ≠ [] := by simp [csharpLines]
  refine (splitOnP_unlines filled).trans ?_
  rw [single, List.flatMap_singleton']

end Source

section Broken
variable {outer nameSpace line : Text} {field : Field} {fields : List Field} {record : RecordType}
  {records : List RecordType}

/-- The line of a key. -/
def keyLine (outer key : Text) : Text := outer ++ indent ++ "[JsonProperty(\"" ++ csharpEscaped key ++ "\")]"

private theorem keyLine_mem_propertiesFrom (h : field ∈ fields) (scope : Scope) :
    keyLine outer field.key ∈ propertiesFrom outer scope fields := by
  induction fields generalizing scope with
  | nil => cases h
  | cons first rest ih =>
    rcases List.mem_cons.mp h with rfl | h
    · exact List.mem_append_left _ List.mem_cons_self
    · refine List.mem_append_right _ ?_
      rw [if_neg (by simp [List.ne_nil_of_mem h])]
      exact List.mem_cons_of_mem _ (ih h _)

private theorem mem_csharpClasses (hr : record ∈ records) (hl : line ∈ csharpClass outer record) :
    line ∈ csharpClasses outer records := by
  induction records with
  | nil => cases hr
  | cons first rest ih =>
    rcases List.mem_cons.mp hr with rfl | hr
    · exact List.mem_append_left _ hl
    · refine List.mem_append_right _ ?_
      rw [if_neg (by simp [List.ne_nil_of_mem hr])]
      exact List.mem_cons_of_mem _ (ih hr)

/-- The line of each key stands in a source, behind blanks. -/
private theorem exists_keyLine (hr : record ∈ records) (hf : field ∈ record.fields) (nameSpace : Text) :
    ∃ outer, (∀ c ∈ outer, c = 0x20) ∧ keyLine outer field.key ∈ csharpLines records nameSpace := by
  have own (outer : Text) : keyLine outer field.key ∈ csharpClasses outer records :=
    mem_csharpClasses hr (List.mem_append_left _ (List.mem_append_right _ (keyLine_mem_propertiesFrom hf _)))
  by_cases empty : nameSpace.isEmpty = true
  · refine ⟨[], nofun, List.mem_append_right _ ?_⟩
    rw [if_pos empty]
    exact own []
  · refine ⟨indent, blank_indent, List.mem_append_right _ ?_⟩
    rw [if_neg empty]
    exact List.mem_append_left _ (List.mem_append_right _ (own indent))

/-- A key with a line end breaks its line off. -/
private theorem exists_broken {key : Text} (blank : ∀ c ∈ outer, c = 0x20) {c : CodePoint} (hc : c ∈ key)
    (ends : endsLine c = true) :
    ∃ piece ∈ (keyLine outer key).splitOnP endsLine, readCsharp piece = none := by
  obtain ⟨first, found⟩ := Option.isSome_iff_exists.mp (List.find?_isSome.mpr ⟨c, hc, ends⟩)
  obtain ⟨stops, before, after, rfl, plain⟩ := List.find?_eq_some_iff_append.mp found
  have plain : ∀ c ∈ before, endsLine c = false := fun c hc => by simpa using plain c hc
  have bare : ¬ (first = 0x22 ∨ first = 0x5C) := by
    rintro (rfl | rfl) <;> cases stops
  have split : keyLine outer (before ++ first :: after) =
      outer ++ indent ++ ("[JsonProperty(\"" ++ csharpEscaped before) ++ first :: (csharpEscaped after ++ "\")]") := by
    simp [keyLine, csharpEscaped, bare]
  have inline : ∀ c ∈ outer ++ indent ++ ("[JsonProperty(\"" ++ csharpEscaped before), endsLine c = false := by
    have parts : ∀ part ∈ csharpParts, ∀ c ∈ part, endsLine c = false := by decide
    simp only [List.forall_mem_append]
    exact ⟨⟨fun c hc => blank c hc ▸ rfl, parts indent (by decide)⟩, parts "[JsonProperty(\"" (by decide),
      forall_mem_csharpEscaped parts plain⟩
  rw [split, List.splitOnP_append_cons_of_forall_mem inline _ stops]
  exact ⟨_, List.mem_cons_self, (readCsharp_margin blank _).trans (readCsharp_broken plain)⟩

/-- A source with a key that has a line end inside is not read. -/
private theorem readListings_csharpSource (hr : record ∈ records) (hf : field ∈ record.fields) {c : CodePoint}
    (hc : c ∈ field.key) (ends : endsLine c = true) (nameSpace : Text) :
    readListings ((csharpSource records nameSpace).splitOnP endsLine) = none := by
  obtain ⟨outer, blank, hline⟩ := exists_keyLine hr hf nameSpace
  obtain ⟨piece, hp, broken⟩ := exists_broken blank hc ends
  have split : (csharpSource records nameSpace).splitOnP endsLine =
      (csharpLines records nameSpace).flatMap (·.splitOnP endsLine) ++ [[]] :=
    splitOnP_unlines (List.ne_nil_of_mem hline)
  have held : piece ∈ (csharpSource records nameSpace).splitOnP endsLine := by
    rw [split]
    exact List.mem_append_left _ (List.mem_flatMap.mpr ⟨_, hline, hp⟩)
  exact readListings_none held broken

private theorem readClasses_iff (h : ∀ record ∈ records, IsEncodable record) (nameSpace : Text) :
    readClasses (csharpSource records nameSpace) = some (records.map listingOf) ↔
      ∀ record ∈ records, KeysInline record := by
  constructor
  · intro read record hr field hf c hc
    refine Bool.eq_false_iff.mpr fun ends => ?_
    rw [readClasses, readListings_csharpSource hr hf hc ends] at read
    cases read
  · intro keys
    rw [readClasses, splitOnP_csharpSource h keys, readListings_csharpLines h keys]
    rfl

end Broken

/-- Every graph is emitted as classes of which each tells its record type, each key being read from its literal as
it was in the sample, just where no key has a character that ends a line. -/
theorem infer_properties {sample : Json.Document} (distinct : sample.DistinctNames) {widen : Bool}
    {nameSpace rootName : Text} {result : Inference.Result}
    (inferred : infer widen nameSpace rootName sample = .ok result) :
    ∃ records listings, result.graph.dependencyOrder = .ok records ∧ records.Perm result.graph.records ∧
      List.Forall₂ Listing.Tells listings records ∧
      ∀ shownSpace shownRoot, ∃ source, emit result.graph .csharp shownSpace shownRoot = .ok source ∧
        (readClasses source = some listings ↔ ∀ record ∈ records, KeysInline record) := by
  have hex := Fingerprint.sha256_isHexadecimal
  obtain ⟨_, _, _, run⟩ := Inference.run_of_inferWith hex Fingerprint.sha256_isStrict distinct inferred
  have wellFormed := run.wellFormed hex
  obtain ⟨nested, root, hrecords, hname⟩ := wellFormed.rootLast
  have hroot : root ∈ result.graph.records := by simp [hrecords]
  obtain ⟨records, order, hperm, -⟩ :=
    TypeGraph.dependencyOrder_layered (run.layered hex) (hname ▸ List.mem_map_of_mem hroot)
  have encodable : ∀ record ∈ records, IsEncodable record := fun record hr =>
    run.isEncodable hex record (hperm.mem_iff.mp hr)
  have told : List.Forall₂ Listing.Tells (records.map listingOf) records :=
    List.forall₂_map_left_iff.mpr (List.forall₂_same.mpr fun record _ => tells_listingOf record)
  exact ⟨records, records.map listingOf, order, hperm, told, fun shownSpace shownRoot =>
    ⟨_, emit_csharp wellFormed order shownSpace shownRoot, readClasses_iff encodable _⟩⟩

/-- A key with quotes and a backslash, one that is named as its class is, and one of a nested class. -/
theorem infer_properties_quoted :
    let key : Text := "say \"hi\" \\"
    let sample : Json.Document := .object [("Root", .null), (key, .array [.object [("hi", .number "1")], .object []])]
    let listings : List Listing := [⟨"SayHi", [⟨"hi", "long?", "Hi"⟩]⟩,
      ⟨"Root", [⟨"Root", "object", "Root2"⟩, ⟨key, "List<SayHi>", "SayHi"⟩]⟩]
    sample.DistinctNames ∧ ∃ result records source, infer true "" "Root" sample = .ok result ∧
      result.graph.dependencyOrder = .ok records ∧ List.Forall₂ Listing.Tells listings records ∧
      emit result.graph .csharp (some "a.b") none = .ok source ∧ readClasses source = some listings := by
  intro key sample listings
  have distinct : sample.DistinctNames := by decide
  have runs : (infer true "" "Root" sample).toOption.map (fun result =>
      (result.graph.dependencyOrder.toOption.map fun records => decide (∀ record ∈ records, KeysInline record),
        (emit result.graph .csharp (some "a.b") none).toOption.map readClasses)) =
      some (some true, some (some listings)) := by decide +kernel
  obtain ⟨result, inferred, runs⟩ := exists_ok_of_map runs
  obtain ⟨ordered, read⟩ := Prod.mk.inj runs
  obtain ⟨records, order, inline⟩ := exists_ok_of_map ordered
  obtain ⟨source, emitted, read⟩ := exists_ok_of_map read
  obtain ⟨_, told, order', -, tells, sources⟩ := infer_properties distinct inferred
  cases order.symm.trans order'
  obtain ⟨_, emitted', whole⟩ := sources (some "a.b") none
  cases emitted.symm.trans emitted'
  cases read.symm.trans (whole.mpr (of_decide_eq_true inline))
  exact ⟨distinct, result, records, source, inferred, order, tells, emitted, read⟩

/-- A key with a line end inside breaks off the literal that it is written in, so that nothing is read. -/
theorem key_breaks_line :
    let sample : Json.Document := .object [("a\nb", .number "1")]
    let lines : List Text := ["using System.Collections.Generic;", "using Newtonsoft.Json;", "", "public class Root",
      "\x7b", "    [JsonProperty(\"a", "b\")]", "    public long AB \x7b get; set; \x7d", "\x7d", ""]
    sample.DistinctNames ∧ ∃ result, infer true "" "Root" sample = .ok result ∧
      ∃ source, emit result.graph .csharp (some "") none = .ok source ∧
        (source.splitOnP endsLine, readClasses source) = (lines, none) := by
  intro sample lines
  have runs : (infer true "" "Root" sample).toOption.map (fun result =>
      (emit result.graph .csharp (some "") none).toOption.map fun source =>
        (source.splitOnP endsLine, readClasses source)) = some (some (lines, none)) := by decide +kernel
  obtain ⟨result, inferred, runs⟩ := exists_ok_of_map runs
  exact ⟨by decide, result, inferred, exists_ok_of_map runs⟩

end Specimen.Emission
