import Specimen.Proofs.Json.Reading

/-! Reading part by part. A text is read as a document wherever it stands; arrays and objects are read from the
texts of their parts by one argument. -/
namespace Specimen.Json
open Reader (Frame Expected run step finish)

/-- Whether a value may begin where something is expected. -/
def Reader.Expected.isBeginning : Expected → Bool
  | .value | .itemOrClose => true
  | _ => false

variable {limits : ReadLimits}

/-- A text is read as a document wherever a value may begin and there is room for it, before a rest that could
not belong to it. -/
def Reads (limits : ReadLimits) (text : Text) (document : Document) : Prop :=
  ∀ stack expected stop position rest, Expected.isBeginning expected = true →
    stack.length + document.depth ≤ limits.nesting → Ends rest →
    ∃ after, run limits stop ⟨stack, expected⟩ (Token.scanFrom position 0 (text ++ rest)) =
      run limits stop (finish document stack) (Token.scanFrom after 0 rest)

private theorem run_step {stop : Nat} {state next : Reader.State} {token : Located} {tokens : List Located}
    (h : step limits state token = .ok next) :
    run limits stop state (token :: tokens) = run limits stop next tokens := by
  rw [run, h]
  rfl

private theorem step_beginning {stack : List Frame} {expected : Expected} {token : Located}
    (beginning : Expected.isBeginning expected = true) (other : token.token ≠ .closeArray) :
    step limits ⟨stack, expected⟩ token = Reader.beginValue limits stack token := by
  cases expected with
  | value => rfl
  | itemOrClose => exact if_neg other
  | _ => cases beginning

/-- A text of one token is read as the document that the token is. -/
private theorem reads_token {text : Text} {token : Token} {document : Document} (other : token ≠ .closeArray)
    (scans : ∀ rest, Ends rest → Token.Scans text token rest)
    (h : ∀ stack position, Reader.beginValue limits stack ⟨token, position⟩ = .ok (finish document stack)) :
    Reads limits text document := by
  intro stack expected stop position rest beginning _ ends
  refine ⟨position + text.length, ?_⟩
  rw [scans rest ends position]
  exact run_step ((step_beginning beginning other).trans (h stack position))

section Containers
variable {α : Type}

/-- How a container with parts of a type is read. -/
structure Container (α : Type) where
  opening : CodePoint
  closing : CodePoint
  opened : Token
  closed : Token
  frame : List α → Frame
  first : Expected
  next : Expected
  whole : List α → Document
  depth : α → Nat
  isOpening : Token.punctuation? opening = some opened
  isClosing : Token.punctuation? closing = some closed
  other : opened ≠ .closeArray
  opens : ∀ limits stack position, stack.length < limits.nesting →
    Reader.beginValue limits stack ⟨opened, position⟩ = .ok ⟨frame [] :: stack, first⟩
  separates : ∀ limits done stack position,
    step limits ⟨frame done :: stack, .separator⟩ ⟨.comma, position⟩ = .ok ⟨frame done :: stack, next⟩
  closes : ∀ limits done stack position,
    step limits ⟨frame done :: stack, .separator⟩ ⟨closed, position⟩ = .ok (finish (whole done.reverse) stack)
  closesEmpty : ∀ limits stack position,
    step limits ⟨frame [] :: stack, first⟩ ⟨closed, position⟩ = .ok (finish (whole []) stack)
  depth_lt : ∀ parts, ∀ part ∈ parts, depth part < (whole parts).depth
  nested : ∀ parts, 0 < (whole parts).depth

/-- Arrays. -/
def Container.array : Container Document where
  opening := 0x5B
  closing := 0x5D
  opened := .openArray
  closed := .closeArray
  frame := .array
  first := .itemOrClose
  next := .value
  whole := .array
  depth := Value.depth
  isOpening := rfl
  isClosing := rfl
  other := by decide
  opens _ _ _ room := if_neg (Nat.not_le.mpr room)
  separates _ _ _ _ := rfl
  closes _ _ _ _ := rfl
  closesEmpty _ _ _ := rfl
  depth_lt _ part h := by
    rw [Value.depth, Nat.add_comm]
    exact Nat.lt_succ_of_le (Value.depthOfItems_le.mp le_rfl part h)
  nested _ := by
    rw [Value.depth]
    omega

/-- Objects. -/
def Container.object : Container (Text × Document) where
  opening := 0x7B
  closing := 0x7D
  opened := .openObject
  closed := .closeObject
  frame := .object
  first := .nameOrClose
  next := .name
  whole := .object
  depth member := member.2.depth
  isOpening := rfl
  isClosing := rfl
  other := by decide
  opens _ _ _ room := if_neg (Nat.not_le.mpr room)
  separates _ _ _ _ := rfl
  closes _ _ _ _ := rfl
  closesEmpty _ _ _ := rfl
  depth_lt _ part h := by
    rw [Value.depth, Nat.add_comm]
    exact Nat.lt_succ_of_le (Value.depthOfMembers_le.mp le_rfl part h)
  nested _ := by
    rw [Value.depth]
    omega

variable {container : Container α} {formatting : Formatting} {parts : List α} {texts : List Text}

/-- A text is read as a part of a container. -/
def Container.ReadsPart (container : Container α) (limits : ReadLimits) (text : Text) (part : α) : Prop :=
  ∀ done stack expected stop position rest, expected = container.first ∨ expected = container.next →
    stack.length + 1 + container.depth part ≤ limits.nesting → Ends rest →
    ∃ after, run limits stop ⟨container.frame done :: stack, expected⟩
        (Token.scanFrom position 0 (text ++ rest)) =
      run limits stop ⟨container.frame (part :: done) :: stack, .separator⟩ (Token.scanFrom after 0 rest)

private theorem isSpace_lineBreak (formatting : Formatting) (level : Nat) :
    ∀ c ∈ lineBreak formatting level, Token.isSpace c = true := by
  intro c h
  cases formatting with
  | compact => cases h
  | indented =>
    rcases List.mem_cons.mp h with rfl | h
    · rfl
    · rw [List.eq_of_mem_replicate h]
      rfl

/-- Nothing of a number stands at the start of a line or at a container's end. -/
private theorem ends_lineBreak {formatting : Formatting} {level : Nat} {c : CodePoint} {rest : Text}
    (h : Ends (c :: rest)) : Ends (lineBreak formatting level ++ c :: rest) := by
  cases formatting with
  | compact => exact h
  | indented =>
    rintro d ⟨⟩
    decide

/-- Parts with commas between them are read one after the other. -/
private theorem run_parts (h : List.Forall₂ (container.ReadsPart limits) texts parts) (filled : texts ≠ [])
    (stop level : Nat) {stack : List Frame} {rest : Text} (done : List α) {expected : Expected} (position : Nat)
    (hexpected : expected = container.first ∨ expected = container.next)
    (room : ∀ part ∈ parts, stack.length + 1 + container.depth part ≤ limits.nesting) (ends : Ends rest) :
    ∃ after, run limits stop ⟨container.frame done :: stack, expected⟩
        (Token.scanFrom position 0 (List.intercalate (0x2C :: lineBreak formatting level) texts ++ rest)) =
      run limits stop ⟨container.frame (parts.reverse ++ done) :: stack, .separator⟩
        (Token.scanFrom after 0 rest) := by
  induction h generalizing done expected position with
  | nil => exact absurd rfl filled
  | @cons text part texts parts first others ih =>
    obtain ⟨roomFirst, roomOthers⟩ := List.forall_mem_cons.mp room
    cases others with
    | nil =>
      rw [List.intercalate_singleton]
      exact first done stack expected stop position rest hexpected roomFirst ends
    | @cons next _ texts parts second others =>
      have comma : Ends (0x2C :: (lineBreak formatting level ++
          (List.intercalate (0x2C :: lineBreak formatting level) (next :: texts) ++ rest))) := by
        rintro d ⟨⟩
        decide
      obtain ⟨after, hfirst⟩ := first done stack expected stop position _ hexpected roomFirst comma
      obtain ⟨last, hothers⟩ := ih (List.cons_ne_nil _ _) (part :: done)
        (after + 1 + (lineBreak formatting level).length) (.inr rfl) roomOthers
      refine ⟨last, ?_⟩
      rw [List.intercalate_cons_cons, List.append_assoc, List.append_assoc, List.cons_append, hfirst,
        Token.scanFrom_punctuation (show Token.punctuation? 0x2C = some .comma from rfl),
        run_step (container.separates ..), Token.scanFrom_spaces (isSpace_lineBreak formatting level), hothers]
      simp

/-- The parts of a container between its brackets are read as the container. -/
theorem reads_bracketed (h : List.Forall₂ (container.ReadsPart limits) texts parts) (level : Nat) :
    Reads limits (bracketed formatting level container.opening container.closing texts)
      (container.whole parts) := by
  intro stack expected stop position rest beginning room ends
  have opens : Reader.beginValue limits stack ⟨container.opened, position⟩ =
      .ok ⟨container.frame [] :: stack, container.first⟩ :=
    container.opens _ _ _ (Nat.lt_of_lt_of_le (Nat.lt_add_of_pos_right (container.nested parts)) room)
  have opened (tokens : List Located) :
      run limits stop ⟨stack, expected⟩ (⟨container.opened, position⟩ :: tokens) =
        run limits stop ⟨container.frame [] :: stack, container.first⟩ tokens :=
    run_step ((step_beginning beginning container.other).trans opens)
  rw [bracketed]
  cases h with
  | nil =>
    refine ⟨position + 1 + 1, ?_⟩
    rw [if_pos (by rfl), List.cons_append, List.cons_append, List.nil_append,
      Token.scanFrom_punctuation container.isOpening, opened, Token.scanFrom_punctuation container.isClosing,
      run_step (container.closesEmpty ..)]
  | @cons text part texts parts first others =>
    have inside : ∀ inner ∈ part :: parts, stack.length + 1 + container.depth inner ≤ limits.nesting := by
      intro inner hin
      have := container.depth_lt _ inner hin
      omega
    have close : Ends (lineBreak formatting level ++ container.closing :: rest) :=
      ends_lineBreak (Token.ends_punctuation container.isClosing rest)
    obtain ⟨after, hparts⟩ := run_parts (.cons first others) (List.cons_ne_nil _ _) stop (level + 1) []
      (position + 1 + (lineBreak formatting (level + 1)).length) (.inl rfl) inside close
    refine ⟨after + (lineBreak formatting level).length + 1, ?_⟩
    rw [if_neg (by simp)]
    simp only [List.cons_append, List.append_assoc, List.nil_append]
    rw [Token.scanFrom_punctuation container.isOpening, opened,
      Token.scanFrom_spaces (isSpace_lineBreak formatting (level + 1)), hparts,
      Token.scanFrom_spaces (isSpace_lineBreak formatting level),
      Token.scanFrom_punctuation container.isClosing, run_step (container.closes ..)]
    simp

/-- A text that is read as a value is read as an item. -/
theorem Reads.item {text : Text} {document : Document} (h : Reads limits text document) :
    Container.array.ReadsPart limits text document := by
  intro done stack expected stop position rest hexpected room ends
  refine h (.array done :: stack) expected stop position rest ?_ room ends
  rcases hexpected with rfl | rfl <;> rfl

/-- A name and a text that is read as a value are read as a member. -/
theorem Reads.member {text : Text} {value : Document} (h : Reads limits text value) (formatting : Formatting)
    (name : Text) :
    Container.object.ReadsPart limits (stringLiteral name ++ colonText formatting ++ text) (name, value) := by
  intro done stack expected stop position rest hexpected room ends
  have named : step limits ⟨Container.object.frame done :: stack, expected⟩ ⟨.string name, position⟩ =
      .ok ⟨.member done name :: stack, .colon⟩ := by
    rcases hexpected with rfl | rfl <;> rfl
  have colon (position : Nat) : ∃ after, run limits stop ⟨.member done name :: stack, .colon⟩
      (Token.scanFrom position 0 (colonText formatting ++ (text ++ rest))) =
      run limits stop ⟨.member done name :: stack, .value⟩ (Token.scanFrom after 0 (text ++ rest)) := by
    have colon : step limits ⟨.member done name :: stack, .colon⟩ ⟨.colon, position⟩ =
        .ok ⟨.member done name :: stack, .value⟩ := rfl
    have scans := Token.scanFrom_punctuation (show Token.punctuation? 0x3A = some .colon from rfl) position
    cases formatting with
    | compact =>
      refine ⟨position + 1, ?_⟩
      rw [show colonText .compact = [0x3A] from rfl, List.singleton_append, scans, run_step colon]
    | indented =>
      refine ⟨position + 1 + 1, ?_⟩
      rw [show colonText .indented = [0x3A, 0x20] from rfl, List.cons_append, List.cons_append,
        List.nil_append, scans, run_step colon, Token.scanFrom, if_pos (by rfl)]
  obtain ⟨after, hcolon⟩ := colon (position + (stringLiteral name).length)
  obtain ⟨last, hvalue⟩ := h (.member done name :: stack) .value stop after rest rfl room ends
  refine ⟨last, ?_⟩
  rw [List.append_assoc, List.append_assoc, Token.scans_string, run_step named, hcolon, hvalue]
  rfl

end Containers

section Scalars

private theorem reads_word {text : Text} {token : Token} {document : Document} (mem : (text, token) ∈ Token.words)
    (h : ∀ stack position, Reader.beginValue limits stack ⟨token, position⟩ = .ok (finish document stack)) :
    Reads limits text document :=
  reads_token (by rintro rfl; simp [Token.words] at mem) (fun _ _ => Token.scans_word mem) h

theorem reads_null : Reads limits "null" .null :=
  reads_word (show (("null" : Text), Token.null) ∈ Token.words by decide) fun _ _ => rfl

theorem reads_bool (value : Bool) : Reads limits (if value then "true" else "false") (.bool value) :=
  reads_word (show (_, Token.bool value) ∈ Token.words by cases value <;> decide) fun _ _ => rfl

theorem reads_string (value : Text) : Reads limits (stringLiteral value) (.string value) :=
  reads_token (by simp) (fun _ _ => Token.scans_string value) fun _ _ => rfl

/-- Whether a reader takes every plain integer up to the digits that numerals may have. -/
def ReadLimits.AdmitsNumerals (limits : ReadLimits) : Prop := ∀ most ∈ limits.digits, Numeral.digitLimit ≤ most

/-- A number is read as it is written. -/
theorem reads_number (admits : limits.AdmitsNumerals) (number : Number) (narrow : number.IsNarrow) :
    Reads limits number.text (.number number.text) := by
  have begins (text : Text) (plain : Bool) (short : plain = true → Reader.digitsOf text ≤ Numeral.digitLimit)
      (stack : List Frame) (position : Nat) :
      Reader.beginValue limits stack ⟨.number text plain, position⟩ = .ok (finish (.number text) stack) := by
    unfold Reader.beginValue
    simp only
    split
    · rename_i most hmost
      refine if_neg fun long => ?_
      simp only [Bool.and_eq_true, decide_eq_true_eq] at long
      exact absurd long.2 (Nat.not_lt.mpr ((short long.1).trans (admits most hmost)))
    · rfl
  rcases number.text_cases narrow with hconstant | ⟨parts, htext, short⟩
  · simp only [constants, List.mem_cons, List.not_mem_nil, or_false] at hconstant
    rcases hconstant with hw | hw | hw <;> rw [hw] <;>
      exact reads_word (by decide) (begins _ false fun h => by cases h)
  · rw [htext]
    exact reads_token (by simp) (fun _ ends => Token.scans_literal parts ends) (begins _ _ short)

end Scalars

end Specimen.Json
