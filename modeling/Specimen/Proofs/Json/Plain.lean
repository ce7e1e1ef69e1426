import Specimen.Proofs.Json.Decoder
import Specimen.Proofs.Json.Rendering
import Mathlib.Data.List.Forall2
import Mathlib.Data.List.Induction

/-! Parsing and plain decoding. The data of a parsed document is what a decoder makes that knows nothing of
documents: numbers as they are read, and dictionaries in which the last value of a name counts. -/
namespace Specimen.Json

section Collapse
variable {κ α β : Type} [BEq κ] [LawfulBEq κ]

omit [LawfulBEq κ] in
private theorem lookup_entry (entry : κ × α) (rest : List (κ × α)) (name : κ) :
    (entry :: rest).lookup name = if name == entry.1 then some entry.2 else rest.lookup name := by
  rw [List.lookup_cons]
  cases name == entry.1 <;> rfl

private theorem lookup_put (key name : κ) (value : α) (entries : List (κ × α)) :
    (put key value entries).lookup name = if name == key then some value else entries.lookup name := by
  induction entries with
  | nil => exact lookup_entry (key, value) [] name
  | cons entry rest ih =>
    rw [put]
    split
    · rename_i same
      cases eq_of_beq same
      simp only [lookup_entry]
      split <;> rfl
    · rename_i other
      simp only [lookup_entry, ih]
      split
      · rename_i hname
        cases eq_of_beq hname
        simp_all
      · rfl

omit [LawfulBEq κ] in
private theorem collapse_append (entries : List (κ × α)) (entry : κ × α) :
    collapse (entries ++ [entry]) = put entry.1 entry.2 (collapse entries) := by simp [collapse]

/-- Each name is kept once, at its first place. -/
private theorem names_collapse (entries : List (κ × α)) :
    (collapse entries).map (·.1) = (entries.map (·.1)).eraseDups := by
  induction entries using List.reverseRecOn with
  | nil => rfl
  | append_singleton entries entry ih =>
    rw [collapse_append, names_put, ih, List.map_append, List.eraseDups_append]
    by_cases h : entry.1 ∈ entries.map (·.1)
    · rw [if_pos (List.mem_eraseDups.mpr h)]
      simp [List.removeAll, h]
    · rw [if_neg (mt List.mem_eraseDups.mp h)]
      simp [List.removeAll, h, List.eraseDups_cons]

/-- Each name is kept with its last value. -/
private theorem lookup_collapse (entries : List (κ × α)) (name : κ) :
    (collapse entries).lookup name = entries.reverse.lookup name := by
  induction entries using List.reverseRecOn with
  | nil => rfl
  | append_singleton entries entry ih =>
    rw [collapse_append, lookup_put, ih, List.reverse_append, List.reverse_singleton, List.singleton_append]
    rw [lookup_entry]

/-- Entries with distinct names are those that the names lead to. -/
private theorem eq_filterMap_lookup {entries : List (κ × α)} (distinct : (entries.map (·.1)).Nodup) :
    entries = (entries.map (·.1)).filterMap fun name => (entries.lookup name).map (name, ·) := by
  induction entries with
  | nil => rfl
  | cons entry rest ih =>
    have new : entry.1 ∉ rest.map (·.1) := (List.nodup_cons.mp distinct).1
    have others : (rest.map (·.1)).filterMap (fun name => ((entry :: rest).lookup name).map (name, ·)) =
        (rest.map (·.1)).filterMap fun name => (rest.lookup name).map (name, ·) := by
      refine List.filterMap_congr fun name hname => ?_
      have other : (name == entry.1) = false := beq_eq_false_iff_ne.mpr fun same => new (same ▸ hname)
      rw [lookup_entry, other]
      rfl
    rw [List.map_cons, List.filterMap_cons, others, ← ih (List.nodup_cons.mp distinct).2]
    simp [lookup_entry]

/-- What is kept of entries is each name with its last value. -/
private theorem collapse_eq (entries : List (κ × α)) :
    collapse entries =
      (entries.map (·.1)).eraseDups.filterMap fun name => (entries.reverse.lookup name).map (name, ·) := by
  rw [eq_filterMap_lookup (nodup_collapse entries), names_collapse]
  exact List.filterMap_congr fun name _ => by rw [lookup_collapse]

private theorem mem_iff_lookup {entries : List (κ × α)} (distinct : (entries.map (·.1)).Nodup) {name : κ} {value : α} :
    (name, value) ∈ entries ↔ entries.lookup name = some value := by
  induction entries with
  | nil => simp
  | cons entry rest ih =>
    have new : entry.1 ∉ rest.map (·.1) := (List.nodup_cons.mp distinct).1
    have behind : (name, value) ∈ rest → name ≠ entry.1 := fun hin same =>
      new (same ▸ List.mem_map_of_mem hin)
    rw [List.mem_cons, lookup_entry]
    split
    · rename_i same
      cases eq_of_beq same
      simpa [Prod.ext_iff, eq_comm] using fun hin => absurd rfl (behind hin)
    · rename_i other
      have other : name ≠ entry.1 := fun same => other (beq_iff_eq.mpr same)
      simp [Prod.ext_iff, other, ih (List.nodup_cons.mp distinct).2]

section Alike
variable {made : α → β → Prop} {key : κ} {here : α} {there : β} {entries : List (κ × α)} {others : List (κ × β)}

omit [LawfulBEq κ]

private theorem forall₂_put (related : made here there) (h : List.Forall₂ (Named made) entries others) :
    List.Forall₂ (Named made) (put key here entries) (put key there others) := by
  induction h with
  | nil => exact .cons ⟨rfl, related⟩ .nil
  | cons first rest ih =>
    rw [put, put, first.name]
    split
    · exact .cons ⟨rfl, related⟩ rest
    · exact .cons ⟨rfl, first.value⟩ ih

/-- Entries that are alike are kept alike. -/
private theorem forall₂_collapse (h : List.Forall₂ (Named made) entries others) :
    List.Forall₂ (Named made) (collapse entries) (collapse others) := by
  have keep : ∀ kept kept', List.Forall₂ (Named made) kept kept' →
      List.Forall₂ (Named made) (entries.foldl (fun kept entry => put entry.1 entry.2 kept) kept)
        (others.foldl (fun kept entry => put entry.1 entry.2 kept) kept') := by
    induction h with
    | nil => exact fun _ _ kept => kept
    | @cons entry other _ _ first _ ih =>
      intro kept kept' h
      rw [List.foldl_cons, List.foldl_cons, first.name]
      exact ih _ _ (forall₂_put first.value h)
  exact keep [] [] .nil

omit [BEq κ] in
private theorem names_forall₂ (h : List.Forall₂ (Named made) entries others) :
    entries.map (·.1) = others.map (·.1) := by
  induction h with
  | nil => rfl
  | cons first _ ih => rw [List.map_cons, List.map_cons, first.name, ih]

private theorem lookup_forall₂ (h : List.Forall₂ (Named made) entries others)
    (hhere : entries.lookup key = some here) (hthere : others.lookup key = some there) : made here there := by
  induction h with
  | nil => cases hhere
  | @cons _ other _ _ first _ ih =>
    rw [lookup_entry, first.name] at hhere
    rw [lookup_entry] at hthere
    split at hhere
    · rename_i same
      rw [if_pos same] at hthere
      cases hhere
      cases hthere
      exact first.value
    · rename_i differs
      rw [if_neg differs] at hthere
      exact ih hhere hthere

end Alike

end Collapse

section Plain
open Value

/-- The constants that stand for numbers. -/
def constantValues : List (Text × Binary64) :=
  [("NaN", .nan), ("Infinity", .infinite false), ("-Infinity", .infinite true)]

/-- The decoder that makes plain data: an integer of a literal with neither fraction nor exponent, and of the
values of a repeated name the last, at the place of the first. -/
def Hooks.plain : Hooks Data where
  null := .none
  bool := .bool
  number literal plain :=
    if plain then (Numeral.readInteger literal).toOption.map .int
    else ((constantValues.lookup literal).or (Numeral.readFloat literal)).map .float
  string := .str
  array := .list
  object members :=
    .dict ((members.map (·.1)).eraseDups.filterMap fun name =>
      (members.reverse.lookup name).map (.str name, ·))

/-- The integer literals of a text, with neither fraction nor exponent. -/
def integerLiterals (text : Text) : List Text :=
  (Token.scan text).filterMap fun located =>
    match located.token with
    | .number literal true => some literal
    | _ => none

/-- A document and the data that it stands for with each name once. -/
def StandsFor (document : Document) (data : Data) : Prop := document.dedupe.toData .str = .ok data

theorem StandsFor.array {items : List Document} {data : List Data} (h : List.Forall₂ StandsFor items data) :
    StandsFor (.array items) (.list data) := by
  have made : toDataItems .str (dedupeItems items) = .ok data := by
    induction h with
    | nil => rfl
    | @cons item first items rest here _ ih =>
      rw [dedupeItems, toDataItems, ih, show (item.dedupe).toData .str = .ok first from here]
      rfl
  rw [StandsFor, dedupe, toData, made]
  rfl

theorem StandsFor.object {members : List (Text × Document)} {data : List (Text × Data)}
    (h : List.Forall₂ (Named StandsFor) members data) :
    StandsFor (.object members) (Hooks.plain.object data) := by
  have deduped : List.Forall₂ (Named fun value data => value.toData .str = .ok data)
      (dedupeMembers members) data := by
    induction h with
    | nil => exact .nil
    | cons first _ ih => exact .cons ⟨first.name, first.value⟩ ih
  have entries {kept : List (Text × Document)} {data : List (Text × Data)}
      (h : List.Forall₂ (Named fun value data => value.toData .str = .ok data) kept data) :
      toDataEntries .str kept = .ok (data.map fun entry => (.str entry.1, entry.2)) := by
    induction h with
    | nil => rfl
    | @cons member entry _ _ first _ ih =>
      rw [toDataEntries, first.value, ih, first.name]
      rfl
  have distinct : ((collapse data).map (·.1)).Nodup := nodup_collapse data
  rw [StandsFor, dedupe, toData, entries (forall₂_collapse deduped)]
  refine congrArg Except.ok ((ofEntries_of_nodup (by simp) distinct).trans ?_)
  rw [Hooks.plain, collapse_eq, List.map_filterMap]
  simp [Function.comp_def]

/-- A plain literal that is not too long denotes an integer. -/
private theorem Literal.exists_readInteger {literal : Literal} (plain : literal.isPlain = true)
    (short : Reader.digitsOf literal.text ≤ Numeral.digitLimit) :
    ∃ value, Numeral.readInteger literal.text = .ok value := by
  simp only [isPlain, Bool.and_eq_true, List.isEmpty_iff] at plain
  have sign : literal.sign.filter Numeral.isDigit = [] := by
    rcases literal.isSign with h | h <;> rw [h] <;> rfl
  have all : literal.whole.all Numeral.isDigit = true := List.all_eq_true.mpr literal.isWhole.digit
  have length : literal.whole.length ≤ Numeral.digitLimit := by
    rwa [Reader.digitsOf, text, plain.1, plain.2, List.append_nil, List.append_nil, List.filter_append, sign,
      List.nil_append, List.filter_eq_self.mpr literal.isWhole.digit] at short
  rw [Numeral.readInteger, withoutUnderscores_numeric literal.isNumeric]
  simp only [takeSign_text, plain.1, plain.2, List.append_nil, all, Bool.not_true, Bool.or_false]
  rw [if_neg (by simpa using literal.isWhole.nonempty), if_neg (Nat.not_lt.mpr length)]
  exact ⟨_, rfl⟩

/-- No constant is a literal. -/
private theorem Literal.lookup_constantValues (literal : Literal) : constantValues.lookup literal.text = none := by
  have letter {c : CodePoint} (h : 0x46 ≤ c ∧ c ≤ 0x4F) : ¬ IsNumeric c := by
    rintro (digit | mark)
    · simp only [Numeral.isDigit, Bool.and_eq_true, decide_eq_true_eq, CodePoint] at digit h
      omega
    · simp only [List.mem_cons, List.not_mem_nil, or_false, CodePoint] at mark h
      omega
  have other {name : Text} (h : ∃ c ∈ name, 0x46 ≤ c ∧ c ≤ 0x4F) : (literal.text == name) = false := by
    refine beq_eq_false_iff_ne.mpr ?_
    rintro rfl
    obtain ⟨c, hc, range⟩ := h
    exact letter range (literal.isNumeric c hc)
  simp [constantValues, List.lookup_cons, other (show ∃ c ∈ ("NaN" : Text), 0x46 ≤ c ∧ c ≤ 0x4F by decide),
    other (show ∃ c ∈ ("Infinity" : Text), 0x46 ≤ c ∧ c ≤ 0x4F by decide),
    other (show ∃ c ∈ ("-Infinity" : Text), 0x46 ≤ c ∧ c ≤ 0x4F by decide)]

/-- A number stands for what it is read as, an integer within signed 64 bits. -/
private theorem exists_number {literal : Text} {plain : Bool} (h : IsNumberToken literal plain)
    (narrow : plain = true → ∃ value, Numeral.readInteger literal = .ok value ∧
      integralMin ≤ value ∧ value ≤ integralMax) :
    ∃ data, Hooks.plain.number literal plain = some data ∧ StandsFor (.number literal) data := by
  have stands {number : Number} (h : Number.ofLiteral literal = some number) :
      StandsFor (.number literal) number.toData := by rw [StandsFor, dedupe, toData, h]
  rcases h with ⟨rfl, constant⟩ | ⟨parts, rfl, rfl⟩
  · simp only [constants, List.mem_cons, List.not_mem_nil, or_false] at constant
    rcases constant with rfl | rfl | rfl
    · exact ⟨_, rfl, stands (show Number.ofLiteral "NaN" = some (.float .nan) by decide)⟩
    · exact ⟨_, rfl, stands (show Number.ofLiteral "Infinity" = some (.float (.infinite false)) by decide)⟩
    · exact ⟨_, rfl, stands (show Number.ofLiteral "-Infinity" = some (.float (.infinite true)) by decide)⟩
  · cases plain : parts.isPlain with
    | true =>
      obtain ⟨value, hvalue, low, high⟩ := narrow plain
      have integral : integral? parts.text = some value := by
        rw [integral?, parts.any_text, plain, hvalue]
        simp [low, high]
      exact ⟨.int value, by simp [Hooks.plain, hvalue, Except.toOption],
        stands (show _ = some (.int value) by rw [Number.ofLiteral, integral])⟩
    | false =>
      obtain ⟨value, hvalue⟩ := parts.exists_readFloat
      exact ⟨.float value, by simp [Hooks.plain, parts.lookup_constantValues, hvalue],
        stands (show _ = some (.float value) by simp [Number.ofLiteral, integral?_of_not_plain plain, hvalue])⟩

/-- What a permitted number token is. -/
def IsNarrow (token : Token) : Prop :=
  ∀ literal plain, token = .number literal plain → IsNumberToken literal plain ∧
    (plain = true → ∃ value, Numeral.readInteger literal = .ok value ∧
      integralMin ≤ value ∧ value ≤ integralMax)

private theorem relates_plain : Hooks.document.Relates StandsFor IsNarrow Hooks.plain where
  null := rfl
  bool _ := rfl
  number narrow found := by
    cases found
    obtain ⟨number, narrow⟩ := narrow _ _ rfl
    exact exists_number number narrow
  string _ := rfl
  array := .array
  object := .object

end Plain

section Digits
open Reader
variable {limits : ReadLimits} {most : Nat}

/-- A plain integer that is read is not too long. -/
private theorem short_of_step {state next : State} {token : Located} {literal : Text}
    (bound : limits.digits = some most)
    (h : step limits state token = .ok next) (ht : token.token = .number literal true) :
    digitsOf literal ≤ most := by
  have value {stack : List Frame} (h : beginValue limits stack token = .ok next) : digitsOf literal ≤ most := by
    rw [beginValue, ht, bound] at h
    simp only [Bool.true_and, decide_eq_true_eq] at h
    split at h
    · cases h
    · rename_i short
      exact Nat.le_of_not_lt short
  obtain ⟨stack, expected⟩ := state
  cases expected <;> simp [step, ht, beginName, separate] at h <;> exact value h

private theorem short_of_run {state : State} {stop : Nat} {tokens : List Located} {document : Document}
    (bound : limits.digits = some most) (h : run limits stop state tokens = .ok document) :
    ∀ located ∈ tokens, ∀ literal, located.token = .number literal true → digitsOf literal ≤ most := by
  induction tokens generalizing state with
  | nil => simp
  | cons token rest ih =>
    obtain ⟨next, hstep, hrest⟩ := ok_of_bind h
    exact List.forall_mem_cons.mpr ⟨fun literal ht => short_of_step bound hstep ht, ih hrest⟩

private theorem mem_integerLiterals {text literal : Text} :
    literal ∈ integerLiterals text ↔ ∃ located ∈ Token.scan text, located.token = .number literal true := by
  simp only [integerLiterals, List.mem_filterMap]
  refine exists_congr fun located => and_congr_right fun _ => ?_
  split
  · rename_i found ht
    rw [ht]
    simp
  · rename_i other
    simpa using other literal

private theorem exists_validated_of_parse {text : Text} {document : Document} (h : parse text = .ok document) :
    ∃ validated, read validationLimits text = .ok validated := by
  have valid : validate text = .ok none := by
    rw [parse] at h
    split at h
    · cases h
    · cases h
    · assumption
  rw [validate] at valid
  split at valid
  · cases valid
  · split at valid
    · exact ⟨_, ‹_›⟩
    all_goals cases valid

/-- The integer literals of a text that is parsed denote integers. -/
private theorem exists_readInteger_of_parse {text : Text} {document : Document} (h : parse text = .ok document) :
    ∀ literal ∈ integerLiterals text, ∃ value, Numeral.readInteger literal = .ok value := by
  intro literal hl
  obtain ⟨located, hlocated, ht⟩ := mem_integerLiterals.mp hl
  obtain ⟨validated, hread⟩ := exists_validated_of_parse h
  rw [read] at hread
  split at hread
  · cases hread
  · have short := short_of_run rfl hread located hlocated literal ht
    rcases Token.isNumberToken_of_mem_scanFrom located hlocated ht with ⟨⟨⟩, -⟩ | ⟨parts, rfl, plain⟩
    exact parts.exists_readInteger plain.symm short

end Digits

section Objects
open Value

/-- A document stands in another one, at any depth, or is the other one. -/
inductive Holds : Document → Document → Prop
  | self (document : Document) : Holds document document
  | item {items : List Document} {item inner : Document} (mem : item ∈ items) (h : Holds item inner) :
    Holds (.array items) inner
  | member {members : List (Text × Document)} {member : Text × Document} {inner : Document}
    (mem : member ∈ members) (h : Holds member.2 inner) : Holds (.object members) inner

/-- A document is another one without its repeated names, at any depth: each name stands once, at its first place,
with its last value. -/
inductive Collapses : Document → Document → Prop
  | null : Collapses .null .null
  | bool (value : Bool) : Collapses (.bool value) (.bool value)
  | number (literal : Text) : Collapses (.number literal) (.number literal)
  | string (value : Text) : Collapses (.string value) (.string value)
  | array {items kept : List Document} (each : List.Forall₂ Collapses items kept) :
    Collapses (.array items) (.array kept)
  | object {members kept : List (Text × Document)} (order : names kept = (names members).eraseDups)
    (values : ∀ name last value, members.reverse.lookup name = some last → (name, value) ∈ kept →
      Collapses last value) : Collapses (.object members) (.object kept)

theorem Holds.distinctNames {document inner : Document} (h : Holds document inner)
    (distinct : document.DistinctNames) : inner.DistinctNames := by
  induction h with
  | self => exact distinct
  | item mem _ ih => exact ih ((everyObject_array _ _).mp distinct _ mem)
  | member mem _ ih => exact ih (((everyObject_object _ _).mp distinct).2 _ mem)

theorem Holds.literals {document inner : Document} (h : Holds document inner) :
    inner.literals ⊆ document.literals := by
  induction h with
  | self => exact fun _ hl => hl
  | item mem _ ih => exact fun _ hl => mem_literalsOfItems.mpr ⟨_, mem, ih hl⟩
  | member mem _ ih => exact fun _ hl => mem_literalsOfMembers.mpr ⟨_, mem, ih hl⟩

/-- The entries made of members are their names with what their values stand for. -/
private theorem mem_toDataEntries {members : List (Text × Document)} {entries : List (Data × Data)}
    (h : toDataEntries .str members = .ok entries) {name : Text} {data : Data} :
    (.str name, data) ∈ entries ↔ ∃ value, (name, value) ∈ members ∧ value.toData .str = .ok data := by
  induction members generalizing entries with
  | nil =>
    cases h
    simp
  | cons member rest ih =>
    rw [toDataEntries] at h
    obtain ⟨first, hfirst, h⟩ := ok_of_bind h
    obtain ⟨more, hmore, h⟩ := ok_of_bind h
    cases h
    have here : (Data.str name, data) = (.str member.1, first) ↔
        name = member.1 ∧ member.2.toData .str = .ok data := by
      rw [hfirst]
      simp [Prod.ext_iff, eq_comm]
    rw [List.mem_cons, ih hmore, here]
    simp only [List.mem_cons, or_and_right, exists_or, Prod.ext_iff]
    simp

mutual

private theorem collapses_dedupe : ∀ document : Document, Collapses document document.dedupe
  | .array items => .array (collapses_dedupeItems items)
  | .object members => by
    have each := collapses_dedupeMembers members
    refine .object ((names_collapse _).trans (congrArg List.eraseDups (names_forall₂ each).symm)) ?_
    intro name last value hlast mem
    rw [mem_iff_lookup (nodup_collapse _), lookup_collapse] at mem
    exact lookup_forall₂ (List.rel_reverse each) hlast mem
  | .null => .null
  | .bool value => .bool value
  | .number literal => .number literal
  | .string value => .string value

private theorem collapses_dedupeItems : ∀ items : List Document,
    List.Forall₂ Collapses items (dedupeItems items)
  | [] => .nil
  | item :: rest => .cons (collapses_dedupe item) (collapses_dedupeItems rest)

private theorem collapses_dedupeMembers : ∀ members : List (Text × Document),
    List.Forall₂ (Named Collapses) members (dedupeMembers members)
  | [] => .nil
  | (_, value) :: rest => .cons ⟨rfl, collapses_dedupe value⟩ (collapses_dedupeMembers rest)

end

/-- The data of a parsed document is what a plain decoder makes of the text, where no integer literal is outside
signed 64 bits. Of the document that a text denotes each object keeps every name once, at its first place and with
its last value; and what a name leads to in an object stands for what it leads to in the dictionary. -/
theorem parse_plain {text : Text} {document : Document} (h : parse text = .ok document) :
    ((∀ literal ∈ integerLiterals text, ∀ value, Numeral.readInteger literal = .ok value →
        integralMin ≤ value ∧ value ≤ integralMax) →
      ∃ data, Hooks.plain.decode text = some data ∧ document.toData .str = .ok data) ∧
    (∃ written, Hooks.document.decode text = some written ∧ Collapses written document) ∧
    document.DistinctNames ∧
    ∀ members, Holds document (.object members) → ∃ entries,
      (Value.object members).toData .str = .ok (.dict entries) ∧
      entries.map (·.1) = (names members).map .str ∧
      ∀ name data, (.str name, data) ∈ entries ↔
        ∃ value, get? members name = some value ∧ value.toData .str = .ok data := by
  obtain ⟨written, hread, -, rfl⟩ := exists_read_of_parse h
  have decoded := decode_of_read hread
  have distinct := (parse_ok h).1
  refine ⟨fun narrow => ?_, ⟨written, decoded, collapses_dedupe written⟩, distinct, fun members holds => ?_⟩
  · refine relates_decode relates_plain (fun located hlocated literal plain ht => ?_) decoded
    refine ⟨Token.isNumberToken_of_mem_scanFrom located hlocated ht, ?_⟩
    rintro rfl
    have mem := mem_integerLiterals.mpr ⟨located, hlocated, ht⟩
    obtain ⟨value, hvalue⟩ := exists_readInteger_of_parse h literal mem
    exact ⟨value, hvalue, narrow literal mem value hvalue⟩
  · have distinct : (names members).Nodup := (holds.distinctNames distinct).1
    obtain ⟨data, hdata, -⟩ := exists_toData id (.object members) fun literal hl => by
      obtain ⟨number, hnumber⟩ := (parse_literals h literal (holds.literals hl)).exists_ofLiteral
      exact ⟨number, hnumber, hnumber⟩
    obtain ⟨entries, hentries, rfl⟩ := ok_of_map hdata
    have keys := keys_toDataEntries hentries
    refine ⟨entries, ?_, keys, fun name data => ?_⟩
    · rw [hdata, ofEntries_of_nodup keys distinct]
    · rw [mem_toDataEntries hentries]
      simp only [get?_eq_some_iff distinct]

private def repeatedText : Text :=
  "\x7b\"a\": 1, \"b\": \x7b\"x\": 1, \"x\": [-0], \"y\": \x7b\x7d\x7d, \"a\": \x7b\"k\": 1.5, \"k\": NaN\x7d," ++
    " \"c\": -9223372036854775808\x7d"

private def repeatedDocument : Document :=
  .object [("a", .object [("k", .number "NaN")]),
    ("b", .object [("x", .array [.number "-0"]), ("y", .object [])]),
    ("c", .number "-9223372036854775808")]

private def repeatedData : Data :=
  .dict [(.str "a", .dict [(.str "k", .float .nan)]),
    (.str "b", .dict [(.str "x", .list [.int 0]), (.str "y", .dict [])]),
    (.str "c", .int (-9223372036854775808))]

/-- Names that are repeated inside a repeated name, and the least integer. -/
theorem parse_plain_repeated : parse repeatedText = .ok repeatedDocument ∧
    (∀ literal ∈ integerLiterals repeatedText, ∀ value, Numeral.readInteger literal = .ok value →
      integralMin ≤ value ∧ value ≤ integralMax) ∧
    Hooks.plain.decode repeatedText = some repeatedData := by
  have parsed : parse repeatedText = .ok repeatedDocument := by cbv
  have literals : integerLiterals repeatedText = ["1", "1", "-0", "-9223372036854775808"] := by decide +kernel
  have narrow : ∀ literal ∈ integerLiterals repeatedText, ∀ value, Numeral.readInteger literal = .ok value →
      integralMin ≤ value ∧ value ≤ integralMax := by
    have one : Numeral.readInteger "1" = .ok 1 := by decide
    have zero : Numeral.readInteger "-0" = .ok 0 := by decide
    have least : Numeral.readInteger "-9223372036854775808" = .ok (-9223372036854775808) := by decide
    simp [literals, one, zero, least, integralMin, integralMax]
  obtain ⟨data, decoded, stands⟩ := (parse_plain parsed).1 narrow
  have found : repeatedDocument.toData .str = .ok repeatedData := by
    have absent : Number.ofLiteral "NaN" = some (.float .nan) := by decide
    have zero : Number.ofLiteral "-0" = some (.int 0) := by decide
    have least : Number.ofLiteral "-9223372036854775808" = some (.int (-9223372036854775808)) := by decide
    simp only [repeatedDocument, repeatedData, toData, toDataEntries, toDataItems, absent, zero, least]
    rfl
  rw [found] at stands
  cases stands
  exact ⟨parsed, narrow, decoded⟩

end Objects

end Specimen.Json
