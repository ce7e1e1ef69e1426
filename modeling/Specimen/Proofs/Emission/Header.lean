import Specimen.Proofs.Emission.Decoding
import Specimen.Proofs.Schema.Validity

/-! The header of emitted dataclasses as the source language reads it: a literal between three quotes, in which a
backslash begins an escape. The namespace and the root's name stand in it as they are, so it is read as the header
exactly where both can stand there as they are. -/
namespace Specimen

namespace Text
variable {c : CodePoint} {text rest : Text}

private theorem universalNewlines_cons (h : c ≠ 0x0D) :
    universalNewlines (c :: rest) = c :: universalNewlines rest := by
  cases rest with
  | nil => simp [universalNewlines, h]
  | cons d rest => rw [universalNewlines, if_neg h]

/-- Line ends are told apart piece by piece, if none of them ends in the next piece. -/
private theorem universalNewlines_append (h : c ≠ 0x0A) :
    universalNewlines (text ++ c :: rest) = universalNewlines text ++ universalNewlines (c :: rest) := by
  induction text using universalNewlines.induct with
  | case1 => rfl
  | case2 => simp [universalNewlines, h]
  | case3 first other => simp [universalNewlines, other]
  | case4 more ih => simpa [universalNewlines] using ih
  | case5 second more other ih => simpa [universalNewlines, other] using ih
  | case6 first second more other ih => simpa [universalNewlines_cons other] using ih

private theorem length_universalNewlines_le (text : Text) : (universalNewlines text).length ≤ text.length := by
  induction text using universalNewlines.induct with
  | case1 | case2 => rfl
  | case3 first other => simp [universalNewlines, other]
  | case4 more ih => simpa [universalNewlines] using Nat.le_succ_of_le ih
  | case5 second more other ih => simpa [universalNewlines, other] using ih
  | case6 first second more other ih => simpa [universalNewlines, other] using ih

private theorem universalNewlines_of_notMem (h : 0x0D ∉ text) : universalNewlines text = text := by
  induction text with
  | nil => rfl
  | cons c rest ih =>
    obtain ⟨hc, hrest⟩ := not_or.mp (mt List.mem_cons.mpr h)
    rw [universalNewlines_cons (Ne.symm hc), ih hrest]

end Text

namespace Emission

section Literal
variable {c : CodePoint} {skip : Nat} {text rest value : Text}

/-- What an escape with a meaning stands for, and the number of characters that it takes of a text. An escape without
one keeps its backslash, and so is the only kind that stands for more characters than it takes. -/
def meaning? (text : Text) : Option (Text × Nat) :=
  (escape? text).filter fun (value, width) => value.length ≤ width

/-- Whether a literal on several lines can hold a character as it is. -/
def standsAlone (c : CodePoint) : Bool := c ≠ 0x5C && c ≠ 0x0D && c ≠ 0 && !Text.isSurrogate c

/-- What a literal between three quotes holds, read behind its opening ones and after skipping some characters, and
the text behind its closing ones. -/
def readBlock : (skip : Nat) → Text → Option (Text × Text)
  | _, [] => none
  | skip + 1, _ :: rest => readBlock skip rest
  | 0, c :: rest =>
    if quotes.isPrefixOf (c :: rest) then some ([], rest.drop 2)
    else if c = 0x5C then do
      let (value, width) ← meaning? rest
      let (more, after) ← readBlock width rest
      return (value ++ more, after)
    else if standsAlone c then do
      let (more, after) ← readBlock 0 rest
      return (c :: more, after)
    else none

/-- What the literal holds that a source begins with, and the text behind it. Every line end is read as one. -/
def readDocstring (source : Text) : Option (Text × Text) :=
  (behind? quotes (Text.universalNewlines source)).bind (readBlock 0)

/-- A text that stands in a literal as it is: without escapes, and without the quotes that end it. -/
structure IsVerbatim (text : Text) : Prop where
  alone : ∀ c ∈ text, standsAlone c = true
  apart : ¬ quotes <:+: text

instance (text : Text) : Decidable (IsVerbatim text) :=
  decidable_of_iff ((∀ c ∈ text, standsAlone c = true) ∧ ¬ quotes <:+: text)
    ⟨fun ⟨alone, apart⟩ => ⟨alone, apart⟩, fun ⟨alone, apart⟩ => ⟨alone, apart⟩⟩

theorem IsVerbatim.tail (h : IsVerbatim (c :: text)) : IsVerbatim text :=
  ⟨fun d hd => h.alone d (List.mem_cons_of_mem c hd),
    fun inside => h.apart (inside.trans (List.suffix_cons c text).isInfix)⟩

/-- A text that does not end in a quote holds those that begin in it. -/
private theorem infix_of_begins (filled : text ≠ []) (last : text.getLast? ≠ some 0x22) (h : quotes <+: text ++ rest) :
    quotes <:+: text := by
  by_cases long : quotes.length ≤ text.length
  · exact (List.prefix_of_prefix_length_le h (List.prefix_append text rest) long).isInfix
  · have short := List.prefix_of_prefix_length_le (List.prefix_append text rest) h (Nat.le_of_not_le long)
    have same : ∀ c ∈ quotes, c = 0x22 := by decide
    exact absurd ((List.getLast?_eq_getLast_of_ne_nil filled).trans
      (congrArg some (same _ (short.subset (List.getLast_mem filled))))) last

/-- A text that stands in a literal as it is is read as itself, up to the quotes behind it. -/
private theorem readBlock_complete (h : IsVerbatim text) (last : text.getLast? ≠ some 0x22) :
    readBlock 0 (text ++ (quotes ++ rest)) = some (text, rest) := by
  induction text with
  | nil => simp [quotes, readBlock, Text.ofString]
  | cons c text ih =>
    have closed : ¬ quotes.isPrefixOf (c :: (text ++ (quotes ++ rest))) = true := fun early =>
      h.apart (infix_of_begins (List.cons_ne_nil c text) last (List.isPrefixOf_iff_prefix.mp early))
    have plain := h.alone c List.mem_cons_self
    have slash : c ≠ 0x5C := by
      rintro rfl
      cases plain
    have others := ih h.tail fun quote => last (by
      cases text with
      | nil => cases quote
      | cons d text => simpa using quote)
    rw [List.cons_append, readBlock, if_neg closed, if_neg slash, if_pos plain, others]
    rfl

/-- What a literal holds is not longer than it is written, and as long only where it stands there as it is. -/
private theorem readBlock_sound (h : readBlock skip text = some (value, rest)) :
    ∃ written, text = written ++ (quotes ++ rest) ∧ value.length + skip ≤ written.length ∧
      (skip = 0 → value.length = written.length → value = written ∧ IsVerbatim written) := by
  induction text generalizing skip value with
  | nil => cases skip <;> cases h
  | cons c text ih =>
    cases skip with
    | succ skip =>
      obtain ⟨written, rfl, shorter, -⟩ := ih h
      exact ⟨c :: written, rfl, Nat.succ_le_succ shorter, nofun⟩
    | zero =>
      rw [readBlock] at h
      split at h
      · rename_i closed
        obtain ⟨behind, begins⟩ := List.isPrefixOf_iff_prefix.mp closed
        have split : 0x22 :: 0x22 :: 0x22 :: behind = c :: text := begins
        cases split
        cases h
        exact ⟨[], rfl, le_rfl, fun _ _ => ⟨rfl, by decide⟩⟩
      · rename_i goes
        split at h
        · obtain ⟨⟨first, width⟩, hfirst, h⟩ := Option.bind_eq_some_iff.mp h
          obtain ⟨⟨more, after⟩, hmore, h⟩ := Option.bind_eq_some_iff.mp h
          cases h
          obtain ⟨written, rfl, shorter, -⟩ := ih hmore
          have meant : first.length ≤ width := by simpa using (Option.filter_eq_some_iff.mp hfirst).2
          have strict : (first ++ more).length < (c :: written).length := by
            rw [List.length_append, List.length_cons]
            omega
          exact ⟨c :: written, rfl, strict.le, fun _ same => absurd same strict.ne⟩
        · split at h
          · rename_i plain
            obtain ⟨⟨more, after⟩, hmore, h⟩ := Option.bind_eq_some_iff.mp h
            cases h
            obtain ⟨written, rfl, shorter, verbatim⟩ := ih hmore
            refine ⟨c :: written, rfl, Nat.succ_le_succ shorter, fun _ same => ?_⟩
            obtain ⟨rfl, held⟩ := verbatim rfl (Nat.succ.inj same)
            refine ⟨rfl, List.forall_mem_cons.mpr ⟨plain, held.alone⟩, fun inside => ?_⟩
            rcases List.infix_cons_iff.mp inside with early | inside
            · exact goes (List.isPrefixOf_iff_prefix.mpr (early.trans (by simp)))
            · exact held.apart inside
          · cases h

end Literal

section Header
variable {part nameSpace rootName : Text}

/-- Whether a text stands in a literal as it is and has no quote that could be one of three. -/
def isFixed (part : Text) : Bool := !part.isEmpty && part.all fun c => standsAlone c && c ≠ 0x22

private theorem isVerbatim_nil : IsVerbatim [] := ⟨nofun, by decide⟩

/-- Three quotes in a row do not reach across a part without quotes. -/
private theorem isVerbatim_around (fixed : isFixed part = true) (before after : Text) :
    IsVerbatim (before ++ (part ++ after)) ↔ IsVerbatim before ∧ IsVerbatim after := by
  obtain ⟨filled, plain⟩ : part ≠ [] ∧ ∀ c ∈ part, standsAlone c = true ∧ c ≠ 0x22 := by
    simpa [isFixed] using fixed
  have same : ∀ c ∈ quotes, c = 0x22 := by decide
  refine ⟨fun h => ⟨⟨fun c hc => h.alone c (by simp [hc]), fun inside => h.apart (inside.trans ?_)⟩,
    ⟨fun c hc => h.alone c (by simp [hc]), fun inside => h.apart (inside.trans ?_)⟩⟩,
    fun ⟨first, last⟩ => ⟨?_, fun inside => ?_⟩⟩
  · exact (List.prefix_append before _).isInfix
  · exact ((List.suffix_append part after).trans (List.suffix_append before _)).isInfix
  · simp only [List.forall_mem_append]
    exact ⟨first.alone, fun c hc => (plain c hc).1, last.alone⟩
  · rcases List.infix_append_iff.mp inside with inside | inside | ⟨left, right, split, ends, begins⟩
    · exact first.apart inside
    · rcases List.infix_append_iff.mp inside with inside | inside | ⟨left, right, split, ends, begins⟩
      · exact (plain 0x22 (inside.subset (by decide))).2 rfl
      · exact last.apart inside
      · cases left with
        | nil => exact last.apart (split ▸ begins.isInfix)
        | cons c left => exact (plain c (ends.subset List.mem_cons_self)).2 (same c (by simp [split]))
    · cases right with
      | nil =>
        rw [List.append_nil] at split
        exact first.apart (split ▸ ends.isInfix)
      | cons c right =>
        obtain ⟨d, more, rfl⟩ := List.exists_cons_of_ne_nil filled
        obtain rfl := (List.cons_prefix_cons.mp begins).1
        exact (plain c List.mem_cons_self).2 (same c (by simp [split]))

private theorem isVerbatim_within {closing : Text} (fixed : isFixed part = true) (fixed' : isFixed closing = true)
    (inner : Text) : IsVerbatim (part ++ inner ++ closing) ↔ IsVerbatim inner := by
  have around := isVerbatim_around fixed' (part ++ inner) []
  have lead := isVerbatim_around fixed [] inner
  rw [List.append_nil] at around
  rw [around, and_iff_left isVerbatim_nil, ← List.nil_append (part ++ inner), lead, and_iff_right isVerbatim_nil]

private theorem unlines_append {lines more : List Text} (filled : lines ≠ []) (filled' : more ≠ []) :
    unlines (lines ++ more) = unlines lines ++ unlines more := by
  induction lines with
  | nil => exact absurd rfl filled
  | cons line rest ih =>
    cases rest with
    | nil =>
      rw [List.singleton_append, unlines_cons line filled']
      simp [unlines]
    | cons next rest =>
      rw [List.cons_append, unlines_cons line (by simp), unlines_cons line (by simp), ih (by simp)]
      simp

/-- Lines stand in a literal as they are where each of them does. -/
private theorem isVerbatim_unlines (lines : List Text) :
    IsVerbatim (unlines lines) ↔ ∀ line ∈ lines, IsVerbatim line := by
  have feed : isFixed [0x0A] = true := by decide
  induction lines with
  | nil => exact iff_of_true (show IsVerbatim [0x0A] by decide) nofun
  | cons line rest ih =>
    rw [List.forall_mem_cons]
    by_cases filled : rest = []
    · subst filled
      have last := isVerbatim_around feed line []
      simpa [isVerbatim_nil, unlines] using last
    · rw [unlines_cons line filled]
      exact (isVerbatim_around feed line (unlines rest)).trans (and_congr_right fun _ => ih)

/-- What the lines between the quotes of a header say. -/
def saidLines (nameSpace rootName : Text) (rootIsArray : Bool) : List Text :=
  (("Types generated from the " : Text) ++ rootName ++ " JSON sample.") ::
    ((if nameSpace.isEmpty then [] else [[], ("Namespace: " : Text) ++ nameSpace]) ++
      if rootIsArray then ([[], "The sample's root is a JSON array of " ++ rootName ++ "."] : List Text) else [])

/-- The text that the literal of a header is meant to hold. -/
def saidText (nameSpace rootName : Text) (rootIsArray : Bool) : Text :=
  0x0A :: unlines (saidLines nameSpace rootName rootIsArray)

private theorem headerLines_eq (nameSpace rootName : Text) (rootIsArray : Bool) :
    headerLines nameSpace rootName rootIsArray = quotes :: (saidLines nameSpace rootName rootIsArray ++
      [quotes, [], "import dataclasses", "import typing"]) := by
  simp [headerLines, saidLines, quotes]

/-- A header says what it is meant to where the root's name and the namespace can stand in it. -/
private theorem isVerbatim_saidText (nameSpace rootName : Text) (rootIsArray : Bool) :
    IsVerbatim (saidText nameSpace rootName rootIsArray) ↔ IsVerbatim rootName ∧ IsVerbatim nameSpace := by
  have feed := isVerbatim_around (show isFixed [0x0A] = true by decide) []
    (unlines (saidLines nameSpace rootName rootIsArray))
  have sample := isVerbatim_within (show isFixed "Types generated from the " = true by decide)
    (show isFixed " JSON sample." = true by decide) rootName
  have array := isVerbatim_within (show isFixed "The sample's root is a JSON array of " = true by decide)
    (show isFixed "." = true by decide) rootName
  have space := isVerbatim_around (show isFixed "Namespace: " = true by decide) [] nameSpace
  rw [and_iff_right isVerbatim_nil] at feed space
  have lines : (∀ line ∈ saidLines nameSpace rootName rootIsArray, IsVerbatim line) ↔
      IsVerbatim rootName ∧ IsVerbatim nameSpace := by
    rw [saidLines, List.forall_mem_cons, sample]
    refine and_congr_right fun root => ?_
    rw [List.forall_mem_append]
    have arrayLines : ∀ line ∈ (if rootIsArray then ([[], "The sample's root is a JSON array of " ++ rootName ++ "."] :
        List Text) else []), IsVerbatim line := by
      cases rootIsArray
      · exact nofun
      · simpa [isVerbatim_nil] using array.mpr root
    rw [and_iff_left arrayLines]
    cases nameSpace with
    | nil => simp [isVerbatim_nil]
    | cons c rest => simpa [isVerbatim_nil] using space
  exact feed.trans ((isVerbatim_unlines _).trans lines)

/-- The text behind the header's literal. -/
def codeOf (classes : List Dataclass) : Text :=
  0x0A :: unlines ([[], "import dataclasses", "import typing"] ++ classes.flatMap Dataclass.lines)

/-- What a header is meant to say that is emitted for a graph. -/
def saidOf (graph : TypeGraph) (nameSpace rootName : Option Text) : Text :=
  saidText (nameSpace.getD graph.nameSpace) ((rootName.filter fun name => !name.isEmpty).getD graph.rootName)
    graph.rootIsArray

private theorem textOf_eq (graph : TypeGraph) (nameSpace rootName : Option Text) (classes : List Dataclass) :
    textOf graph nameSpace rootName classes =
      quotes ++ (saidOf graph nameSpace rootName ++ (quotes ++ codeOf classes)) := by
  have said : ∀ nameSpace rootName rootIsArray, saidLines nameSpace rootName rootIsArray ≠ [] := fun _ _ _ => by
    simp [saidLines]
  rw [textOf, headerLines_eq, List.cons_append, List.append_assoc, unlines_cons _ (by simp),
    unlines_append (said _ _ _) (by simp), List.cons_append, unlines_cons _ (by simp)]
  simp [saidOf, saidText, codeOf]

end Header

section Reading
variable {said code : Text}

private theorem universalNewlines_quotes (said code : Text) :
    Text.universalNewlines (quotes ++ (said ++ (quotes ++ code))) =
      quotes ++ (Text.universalNewlines said ++ (quotes ++ Text.universalNewlines code)) := by
  have start (rest : Text) : Text.universalNewlines (quotes ++ rest) = quotes ++ Text.universalNewlines rest := by
    simp [quotes, Text.ofString, Text.universalNewlines_cons]
  rw [start, show quotes ++ code = 0x22 :: (0x22 :: 0x22 :: code) from rfl, Text.universalNewlines_append (by decide),
    ← start]
  rfl

/-- A literal is read as the text between its quotes exactly where that text can stand there as it is. -/
private theorem readDocstring_iff (last : said.getLast? ≠ some 0x22) :
    readDocstring (quotes ++ (said ++ (quotes ++ code))) = some (said, Text.universalNewlines code) ↔
      IsVerbatim said := by
  rw [readDocstring, universalNewlines_quotes, behind?, if_pos (by simp), List.drop_left, Option.bind_some]
  constructor
  · intro read
    obtain ⟨written, split, shorter, verbatim⟩ := readBlock_sound read
    rw [← List.append_assoc, ← List.append_assoc] at split
    obtain rfl := List.append_cancel_right (List.append_cancel_right split)
    exact (verbatim rfl (le_antisymm (by simpa using shorter) (Text.length_universalNewlines_le said))).elim
      fun (same : said = _) held => same ▸ held
  · intro held
    rw [Text.universalNewlines_of_notMem fun turn => absurd (held.alone _ turn) (by decide)]
    exact readBlock_complete held last

end Reading

private theorem getLast?_saidOf (graph : TypeGraph) (nameSpace rootName : Option Text) :
    (saidOf graph nameSpace rootName).getLast? ≠ some 0x22 := by
  rw [saidOf, saidText, unlines, ← List.cons_append, List.getLast?_append]
  simp

/-- A valid graph is emitted as a literal and the same code behind it, whatever the names in the literal are. It is
read as the header's lines exactly where the namespace and the root's name stand in it as they are. -/
theorem emit_header {graph : TypeGraph} (valid : graph.validate = .ok ()) :
    ∃ records, graph.dependencyOrder = .ok records ∧
      ∀ nameSpace rootName, ∃ source, emit graph .dataclass nameSpace rootName = .ok source ∧
        source = quotes ++ (saidOf graph nameSpace rootName ++ (quotes ++ codeOf (records.map dataclassOf))) ∧
        (readDocstring source =
            some (saidOf graph nameSpace rootName, Text.universalNewlines (codeOf (records.map dataclassOf))) ↔
          IsVerbatim ((rootName.filter fun name => !name.isEmpty).getD graph.rootName) ∧
            IsVerbatim (nameSpace.getD graph.nameSpace)) := by
  obtain ⟨records, order⟩ := (TypeGraph.isClosed_of_validate valid).exists_dependencyOrder
  refine ⟨records, order, fun nameSpace rootName =>
    ⟨_, emit_valid valid order nameSpace rootName, textOf_eq graph nameSpace rootName _, ?_⟩⟩
  rw [textOf_eq]
  exact (readDocstring_iff (getLast?_saidOf graph nameSpace rootName)).trans (isVerbatim_saidText _ _ _)

/-- A type that leads to itself, under a namespace with two quotes and in an array. -/
theorem emit_header_recursive :
    let graph : TypeGraph := ⟨"Node", "", true, [⟨"Node", "", [⟨"next", "Next", .object "Node", true⟩], ""⟩]⟩
    let said : Text := 0x0A :: unlines ["Types generated from the Node JSON sample.", "", "Namespace: a\"\".b", "",
      "The sample's root is a JSON array of Node."]
    graph.validate = .ok () ∧ ∃ source behind, emit graph .dataclass (some "a\"\".b") none = .ok source ∧
      source = quotes ++ (said ++ (quotes ++ behind)) ∧
      readDocstring source = some (said, Text.universalNewlines behind) := by
  intro graph said
  have valid : graph.validate = .ok () := by decide
  obtain ⟨records, _, header⟩ := emit_header valid
  obtain ⟨source, emitted, split, read⟩ := header (some "a\"\".b") none
  have told : saidOf graph (some "a\"\".b") none = said := by decide
  rw [told] at split read
  exact ⟨valid, source, _, emitted, split, read.mpr ⟨by decide, by decide⟩⟩

/-- A namespace of three quotes closes the header's literal, so that the rest of the header is read as code. -/
theorem docstring_closed_early :
    let graph : TypeGraph := ⟨"Root", "", false, [⟨"Root", "", [], ""⟩]⟩
    let held : Text := "\nTypes generated from the Root JSON sample.\n\nNamespace: "
    let behind : Text := unlines ["", quotes, "", "import dataclasses", "import typing", "", "", decorator,
      "class Root:", emptyBody]
    graph.validate = .ok () ∧ ∃ source, emit graph .dataclass (some "\"\"\"") none = .ok source ∧
      readDocstring source = some (held, behind) := by
  intro graph held behind
  have read : (emit graph .dataclass (some "\"\"\"") none).toOption.map readDocstring = some (some (held, behind)) := by
    decide +kernel
  exact ⟨by decide, exists_ok_of_map read⟩

end Emission

end Specimen
