import Specimen.Proofs.Json.Plain

/-! Validation and parsing come to one verdict. What is found wrong with a text is what it is refused for, at the
same place; and the place is that of a position in the text. -/
namespace Specimen

/-- A position in a text is in a line at a column: before it stand whole lines, and characters of its own line. -/
structure Text.IsPlace (text : Text) (position line column : Nat) : Prop where
  within : position ≤ text.length
  split : ∃ lines own : Text, text.take position = lines ++ own ∧ 0x0A ∉ own ∧
    (∀ c ∈ lines.getLast?, c = 0x0A) ∧ line = lines.count 0x0A + 1 ∧ column = own.length + 1

private theorem Text.isPlace_lineColumn {text : Text} {position : Nat} (within : position ≤ text.length) :
    text.IsPlace position (lineColumn text position).1 (lineColumn text position).2 := by
  have own : 0x0A ∉ (text.take position).reverse.takeWhile (· ≠ 0x0A) := fun h => by
    simpa using List.mem_takeWhile_imp h
  have parts : (text.take position).reverse.takeWhile (· ≠ 0x0A) ++
      (text.take position).reverse.dropWhile (· ≠ 0x0A) = _ := List.takeWhile_append_dropWhile
  refine ⟨within, ((text.take position).reverse.dropWhile (· ≠ 0x0A)).reverse,
    ((text.take position).reverse.takeWhile (· ≠ 0x0A)).reverse, ?_, ?_, ?_, ?_, ?_⟩
  · rw [← List.reverse_append, parts, List.reverse_reverse]
  · simpa only [List.mem_reverse] using own
  · intro c hc
    rw [List.getLast?_reverse] at hc
    have := List.head?_dropWhile_not (· ≠ 0x0A) (text.take position).reverse
    rw [hc] at this
    simpa using this
  · have count := congrArg (List.count 0x0A) parts
    rw [List.count_append, List.count_eq_zero.mpr own, Nat.zero_add, List.count_reverse] at count
    rw [List.count_reverse, count]
    rfl
  · rw [List.length_reverse]
    rfl

namespace Json

namespace Token
variable {start position skip : Nat} {text : Text} {fault : Fault} {place : Nat}

private theorem unicodeEscape_error {offset : Nat} (h : unicodeEscape text = .error offset) : offset ≤ text.length := by
  rw [unicodeEscape] at h
  simp only at h
  split at h
  · cases h
    exact Nat.zero_le _
  · split at h
    · cases h
      exact Nat.zero_le _
    · split at h
      · cases h
      · rename_i paired
        split at h
        · cases h
          simp at paired
          omega
        · split at h <;> cases h

/-- A string breaks off at its start or within the text. -/
private theorem scanString_error (h : scanString start position skip text = .error (fault, place)) :
    place = start ∨ place < position + text.length := by
  fun_induction scanString start position skip text with
  | case1 | case4 =>
    cases h
    exact .inl rfl
  | case2 _ _ _ _ ih =>
    have := ih h
    simp only [List.length_cons]
    omega
  | case3 => cases h
  | case5 _ after offset found =>
    cases h
    have := unicodeEscape_error found
    simp only [List.length_cons]
    omega
  | case6 _ _ _ _ _ _ ih | case8 _ _ _ _ _ _ _ ih | case10 _ _ _ _ _ _ ih =>
    have := ih (error_of_map h)
    simp only [List.length_cons] at this ⊢
    omega
  | case7 | case9 =>
    cases h
    simp only [List.length_cons]
    omega

private theorem brokenString_first {c : CodePoint} {rest : Text}
    (h : (first position c rest).1 = .brokenString fault place) : place < position + (c :: rest).length := by
  rw [first] at h
  split at h
  · rename_i token found
    unfold punctuation? at found
    repeat' split at found
    all_goals cases found
    all_goals cases h
  · split at h
    · split at h
      · cases h
      · rename_i broken
        cases h
        have := scanString_error broken
        simp only [List.length_cons]
        omega
    · split at h
      · rename_i word token found
        have mem := List.mem_of_find?_eq_some found
        simp only at h
        rw [h] at mem
        simp [words] at mem
      · split at h <;> cases h

/-- A token of a text is within the text, and so is the place where it breaks off. -/
private theorem within_scanFrom {located : Located} (h : located ∈ scanFrom position skip text) :
    located.position < position + text.length ∧
      ∀ fault place, located.token = .brokenString fault place → place < position + text.length := by
  fun_induction scanFrom position skip text with
  | case1 => cases h
  | case2 _ _ _ _ ih | case3 _ _ _ _ ih =>
    have := ih h
    simp only [List.length_cons]
    grind
  | case4 position c rest _ token width hfirst _ =>
    cases List.mem_singleton.mp h
    exact ⟨by simp, fun fault place ht => brokenString_first ((congrArg Prod.fst hfirst).trans ht)⟩
  | case5 position c rest _ token width hfirst _ ih =>
    rcases List.mem_cons.mp h with rfl | h
    · exact ⟨by simp, fun fault place ht => brokenString_first ((congrArg Prod.fst hfirst).trans ht)⟩
    · have := ih h
      simp only [List.length_cons]
      grind

end Token

section Reading
open Reader
variable {limits : ReadLimits} {fault : Fault} {place : Nat}

/-- A step fails at its token, or where the token breaks off. -/
private theorem place_of_step {state : State} {token : Located}
    (h : step limits state token = .error (.fault fault place)) :
    place = token.position ∨ token.token = .brokenString fault place := by
  have value {stack : List Frame} (h : beginValue limits stack token = .error (.fault fault place)) :
      place = token.position ∨ token.token = .brokenString fault place := by
    unfold beginValue at h
    split at h
    case h_1 | h_2 | h_3 => cases h
    case h_4 =>
      split at h
      · split at h <;> cases h
      · cases h
    case h_5 | h_6 => split at h <;> cases h
    case h_7 broken =>
      cases h
      exact .inr broken
    case h_8 =>
      cases h
      exact .inl rfl
  have name {stack : List Frame} (h : beginName stack token = .error (.fault fault place)) :
      place = token.position ∨ token.token = .brokenString fault place := by
    unfold beginName at h
    split at h <;> cases h
    · exact .inr ‹_›
    · exact .inl rfl
  unfold step at h
  split at h
  case h_1 => exact value h
  case h_2 =>
    split at h
    · cases h
    · exact value h
  case h_3 => exact name h
  case h_4 =>
    split at h
    · cases h
    · exact name h
  case h_5 =>
    split at h <;> cases h
    exact .inl rfl
  case h_6 =>
    unfold separate at h
    split at h <;> cases h
    exact .inl rfl
  case h_7 =>
    cases h
    exact .inl rfl

private theorem place_of_run {state : State} {stop : Nat} {tokens : List Located}
    (h : run limits stop state tokens = .error (.fault fault place)) :
    place = stop ∨ ∃ located ∈ tokens, place = located.position ∨ located.token = .brokenString fault place := by
  induction tokens generalizing state with
  | nil =>
    rw [run] at h
    split at h
    · cases h
    · cases h
      exact .inl rfl
  | cons token rest ih =>
    rw [run] at h
    cases hstep : step limits state token with
    | error failure =>
      rw [hstep] at h
      cases h
      exact .inr ⟨token, List.mem_cons_self, place_of_step hstep⟩
    | ok next =>
      rw [hstep] at h
      rcases ih h with here | ⟨located, mem, place⟩
      · exact .inl here
      · exact .inr ⟨located, List.mem_cons_of_mem _ mem, place⟩

/-- A text is faulted at a place within it. -/
private theorem place_of_read {text : Text} (h : read limits text = .error (.fault fault place)) :
    place ≤ text.length := by
  rw [read] at h
  split at h
  · cases h
    exact Nat.zero_le _
  · rcases place_of_run h with rfl | ⟨located, mem, rfl | broken⟩
    · exact Nat.le_refl _
    · have := (Token.within_scanFrom mem).1
      omega
    · have := (Token.within_scanFrom mem).2 fault place broken
      omega

/-- What a reader with a bound on digits reads, one without reads alike. -/
private theorem step_unbounded {state next : State} {token : Located} (h : step limits state token = .ok next) :
    step ⟨limits.nesting, none⟩ state token = .ok next := by
  have value {stack : List Frame} (h : beginValue limits stack token = .ok next) :
      beginValue ⟨limits.nesting, none⟩ stack token = .ok next := by
    unfold beginValue at h ⊢
    split at h
    case h_4 =>
      split at h
      · split at h
        · cases h
        · exact h
      · exact h
    all_goals exact h
  unfold step at h ⊢
  split at h
  case h_1 => exact value h
  case h_2 =>
    split at h
    · exact (if_pos ‹_›).trans h
    · exact (if_neg ‹_›).trans (value h)
  all_goals exact h

private theorem run_unbounded {state : State} {stop : Nat} {tokens : List Located} {document : Document}
    (h : run limits stop state tokens = .ok document) :
    run ⟨limits.nesting, none⟩ stop state tokens = .ok document := by
  induction tokens generalizing state with
  | nil => exact h
  | cons token rest ih =>
    obtain ⟨next, hstep, hrest⟩ := ok_of_bind h
    rw [run, step_unbounded hstep]
    exact ih hrest

private theorem read_unbounded {text : Text} {document : Document} (h : read limits text = .ok document) :
    read ⟨limits.nesting, none⟩ text = .ok document := by
  rw [read] at h ⊢
  split at h
  · cases h
  · rename_i mark
    exact (if_neg mark).trans (run_unbounded h)

end Reading

section Verdict

/-- What validation and parsing come to together. -/
inductive Verdict (text : Text) : Except Failure (Option Problem) → Except Failure Document → Prop
  | blank : Verdict text (.ok (some ⟨.malformed, emptyMessage, "input"⟩)) (.error (wholeRefusal emptyMessage))
  | fault (fault : Fault) {position : Nat} (within : position ≤ text.length) :
    Verdict text
      (.ok (some ⟨.malformed, "Invalid JSON syntax: " ++ fault.message,
        "line " ++ Text.ofNat (text.lineColumn position).1 ++
          ", column " ++ Text.ofNat (text.lineColumn position).2⟩))
      (.error (faultRefusal text fault position))
  | tooDeep : Verdict text (.ok (some ⟨.structural, tooDeepMessage, "input"⟩)) (.error (wholeRefusal tooDeepMessage))
  | longInteger (digits : Nat) : Verdict text (.error (.longInteger digits)) (.error (.longInteger digits))
  | parsed (document : Document) : Verdict text (.ok none) (.ok document)
  | nested : Verdict text (.ok none) (.error (wholeRefusal tooDeepMessage))

private theorem verdict (text : Text) : Verdict text (validate text) (parse text) := by
  rw [parse, validate]
  cases blank : isEmptyText text with
  | true =>
    simp only [if_pos, problemRefusal, blank]
    exact .blank
  | false =>
    cases reads : read validationLimits text with
    | ok document =>
      have parsed : read parseLimits text = .ok document := read_unbounded reads
      simp only [Bool.false_eq_true, if_false, parsed]
      split
      · exact .nested
      · exact .parsed document.dedupe
    | error failure =>
      cases failure with
      | fault fault position =>
        simp only [Bool.false_eq_true, if_false, problemRefusal, blank, reads]
        exact .fault fault (place_of_read reads)
      | tooDeep =>
        simp only [Bool.false_eq_true, if_false, problemRefusal, blank, reads]
        exact .tooDeep
      | longInteger digits => exact .longInteger digits

/-- Parsing fails with a refusal, or with an integer of too many digits. -/
theorem parse_error {text : Text} {failure : Failure} (h : parse text = .error failure) :
    (∃ cause, failure = .refusal cause) ∨ ∃ digits, failure = .longInteger digits := by
  have found := verdict text
  rw [h] at found
  generalize validate text = validated at found
  cases found with
  | longInteger digits => exact .inr ⟨digits, rfl⟩
  | blank | fault | tooDeep | nested => exact .inl ⟨_, rfl⟩

/-- A plain integer of too many digits is no document. -/
theorem parse_long {literal : Literal} (plain : literal.isPlain = true)
    (long : Numeral.digitLimit < Reader.digitsOf literal.text) :
    parse literal.text = .error (.longInteger (Reader.digitsOf literal.text)) := by
  have scanned := @Token.scans_literal [] literal (by simp [Ends]) 0
  rw [List.append_nil, plain] at scanned
  obtain ⟨c, rest, head, visible, -⟩ := Token.Literal.exists_head literal
  have range : ∀ c < 0x3A, 0x2D ≤ c → Text.isBlank c = false ∧ c ≠ 0xFEFF := by decide
  obtain ⟨blank, mark⟩ := range c visible.1 visible.2
  have reads : read validationLimits literal.text = .error (.longInteger (Reader.digitsOf literal.text)) := by
    rw [read, if_neg (by simp [head, mark]), Token.scan, scanned]
    simp only [Reader.run, Reader.step, Reader.start, Reader.beginValue, validationLimits, long, Bool.true_and,
      decide_true, if_true]
    rfl
  rw [parse, validate, head, isEmptyText_of_head blank, ← head, reads]
  rfl

/-- What a text is refused for is the problem that is found with it: the same message at the same place, or the
text is refused as a whole, at its start. -/
inductive Problem.Agrees (problem : Problem) (message : Text) (line column : Nat) : Prop
  | placed (wording : problem.message = "Invalid JSON syntax: " ++ message)
    (place : problem.location = "line " ++ Text.ofNat line ++ ", column " ++ Text.ofNat column)
  | whole (wording : problem.message = message) (known : message = emptyMessage ∨ message = tooDeepMessage)
    (place : problem.location = "input") (start : line = 1 ∧ column = 1)

/-- A text with a problem is refused for it; one without is parsed, or refused as nested too deeply; where
validation fails, so does parsing. Every refusal is at the place of its position in the text. -/
theorem parse_validate (text : Text) :
    (∀ failure, validate text = .error failure → parse text = .error failure) ∧
    (validate text = .ok none →
      (∃ document, parse text = .ok document) ∨ parse text = .error (wholeRefusal tooDeepMessage)) ∧
    (∀ problem, validate text = .ok (some problem) → ∃ message position line column,
      parse text = .error (.refusal (.document message position line column)) ∧
        problem.Agrees message line column) ∧
    ∀ message position line column, parse text = .error (.refusal (.document message position line column)) →
      text.IsPlace position line column := by
  have start : text.IsPlace 0 1 1 := ⟨Nat.zero_le _, [], [], by simp⟩
  have found := verdict text
  revert found
  generalize validate text = validated, parse text = parsed
  intro found
  cases found with
  | blank =>
    refine ⟨nofun, nofun, ?_, ?_⟩
    · rintro _ ⟨⟩
      exact ⟨_, _, _, _, rfl, .whole rfl (.inl rfl) rfl ⟨rfl, rfl⟩⟩
    · rintro _ _ _ _ ⟨⟩
      exact start
  | fault fault within =>
    refine ⟨nofun, nofun, ?_, ?_⟩
    · rintro _ ⟨⟩
      exact ⟨_, _, _, _, rfl, .placed rfl rfl⟩
    · rintro _ _ _ _ ⟨⟩
      exact Text.isPlace_lineColumn within
  | tooDeep =>
    refine ⟨nofun, nofun, ?_, ?_⟩
    · rintro _ ⟨⟩
      exact ⟨_, _, _, _, rfl, .whole rfl (.inr rfl) rfl ⟨rfl, rfl⟩⟩
    · rintro _ _ _ _ ⟨⟩
      exact start
  | longInteger digits => exact ⟨fun _ same => by cases same; rfl, nofun, nofun, nofun⟩
  | parsed document => exact ⟨nofun, fun _ => .inl ⟨document, rfl⟩, nofun, nofun⟩
  | nested =>
    refine ⟨nofun, fun _ => .inr rfl, nofun, ?_⟩
    rintro _ _ _ _ ⟨⟩
    exact start

end Verdict
end Json
end Specimen
