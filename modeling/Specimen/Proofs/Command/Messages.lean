import Specimen.Proofs.Command.Output
import Specimen.Proofs.Emission.Encoding
import Specimen.Proofs.Inference.Unencodable
import Specimen.Proofs.Json.Verdict

/-! The one message of a run that creates types. Refusals are worded for the user, and so are conflicts and success;
but an integer of too many digits and what cannot be encoded leave the command as other failures do. -/
namespace Specimen

/-- What generation fails with other than a refusal: a text that cannot be encoded, an integer of too many digits, a
key of some record that cannot be encoded, or a namespace, which dataclasses show as it is. -/
inductive Options.Breaks (options : Options) (nameSpace selected : Text) : Prop
  | text (surrogate : ¬ Text.Encodable selected)
  | number {digits : Nat} (long : Json.parse selected = .error (.longInteger digits))
  | key {sample : Json.Document} (parsed : Json.parse selected = .ok sample)
    (surrogate : ¬ (Shape.ofDocument options.widen "$" sample).1.KeysEncodable)
  | nameSpace {sample : Json.Document} (parsed : Json.parse selected = .ok sample)
    (shown : options.style = .dataclass) (surrogate : ¬ Text.Encodable nameSpace)

namespace Options

/-- Generation from a sample whose records have keys that can be encoded fails only for a shown namespace. -/
private theorem generate_sample {options : Options} {selected : Text} (encodable : Text.Encodable selected)
    {sample : Json.Document} (parsed : Json.parse selected = .ok sample)
    (keys : (Shape.ofDocument options.widen "$" sample).1.KeysEncodable) (nameSpace typeName : Text) :
    ((options.style = .dataclass ∧ ¬ Text.Encodable nameSpace) ∧
      ∃ cause, options.generate (some nameSpace) typeName none selected = .error (.unencodable cause)) ∨
    (options.style = .dataclass → Text.Encodable nameSpace) ∧
      ∃ generated, options.generate (some nameSpace) typeName none selected = .ok generated := by
  have hex := Fingerprint.sha256_isHexadecimal
  obtain ⟨distinct, shallow⟩ := Json.parse_ok parsed
  obtain ⟨result, _, _, _, inferred, run⟩ := (Inference.inferWith_cases hex Fingerprint.sha256_isStrict distinct
    shallow options.widen nameSpace typeName).1 keys
  obtain ⟨source, emitted, shown⟩ := run.emits hex options.style nameSpace
  have inferred : Inference.infer options.widen nameSpace typeName sample = .ok result := inferred
  have generates : options.generate (some nameSpace) typeName none selected = (do
      orUnencodable (Text.checkEncodable source)
      return ⟨source, result.graph.records.length, result.conflicts⟩) := by
    simp only [generate, check_ok encodable, inferText, parsed, Option.getD_some, Option.getD_none,
      inferred, emitted, Inference.orGraphFault, Except.mapError, bind, Except.bind]
  rw [generates]
  by_cases writable : Text.Encodable source
  · rw [check_ok writable]
    exact .inr ⟨shown.mp writable, _, rfl⟩
  · obtain ⟨cause, failed⟩ := exists_check_error writable
    rw [failed]
    exact .inl ⟨Classical.not_imp.mp (mt shown.mpr writable), cause, rfl⟩

/-- Generation breaks off, or it gives source or a refusal. -/
private theorem generate_cases (options : Options) (nameSpace typeName selected : Text) :
    (options.Breaks nameSpace selected ∧ ∃ failure, (∀ cause, failure ≠ .refusal cause) ∧
      options.generate (some nameSpace) typeName none selected = .error failure) ∨
    ¬ options.Breaks nameSpace selected ∧
      ((∃ generated, options.generate (some nameSpace) typeName none selected = .ok generated) ∨
        ∃ cause, options.generate (some nameSpace) typeName none selected = .error (.refusal cause)) := by
  by_cases encodable : Text.Encodable selected
  case neg =>
    obtain ⟨cause, failed⟩ := exists_check_error encodable
    refine .inl ⟨.text encodable, .unencodable cause, nofun, ?_⟩
    rw [generate, failed]
    rfl
  have checked := check_ok encodable
  cases parsed : Json.parse selected with
  | error failure =>
    have generates : options.generate (some nameSpace) typeName none selected = .error failure := by
      simp only [generate, checked, inferText, parsed, bind, Except.bind]
    rcases Json.parse_error parsed with ⟨cause, rfl⟩ | ⟨digits, rfl⟩
    · refine .inr ⟨fun broken => ?_, .inr ⟨cause, generates⟩⟩
      cases broken with
      | text surrogate => exact surrogate encodable
      | number long => cases parsed.symm.trans long
      | key other | nameSpace other => cases parsed.symm.trans other
    · exact .inl ⟨.number parsed, .longInteger digits, nofun, generates⟩
  | ok sample =>
    by_cases keys : (Shape.ofDocument options.widen "$" sample).1.KeysEncodable
    case neg =>
      obtain ⟨distinct, shallow⟩ := Json.parse_ok parsed
      obtain ⟨cause, failed⟩ := (Inference.inferWith_cases Fingerprint.sha256_isHexadecimal
        Fingerprint.sha256_isStrict distinct shallow options.widen nameSpace typeName).2 keys
      refine .inl ⟨.key parsed keys, .unencodable cause, nofun, ?_⟩
      have failed : Inference.infer options.widen nameSpace typeName sample = .error (.unencodable cause) := failed
      simp only [generate, checked, inferText, parsed, Option.getD_some, failed, bind, Except.bind]
    rcases generate_sample encodable parsed keys nameSpace typeName with
      ⟨⟨style, surrogate⟩, cause, failed⟩ | ⟨shown, generated⟩
    · exact .inl ⟨.nameSpace parsed style surrogate, .unencodable cause, nofun, failed⟩
    · refine .inr ⟨fun broken => ?_, .inl generated⟩
      cases broken with
      | text surrogate => exact surrogate encodable
      | number long => cases parsed.symm.trans long
      | key other surrogate =>
        cases parsed.symm.trans other
        exact surrogate keys
      | nameSpace _ style surrogate => exact surrogate (shown style)

end Options

namespace Command

section Runs
variable {options : Options} {names : NameRequest} {selected : Text} {before : Journal}

private theorem run_broken {failure : Failure} (other : ∀ cause, failure ≠ .refusal cause)
    (failed : options.generate (some names.nameSpace) names.typeName none selected = .error failure) :
    ((create options (some names)).execute Journal.host selected).run.run before = (.error failure, before) := by
  have body : ((create options (some names)).body Journal.host selected).run.run before =
      (.error failure, before) := run_bind_error (by rw [failed]; rfl)
  refine (run_tryCatch_error body).trans ?_
  cases failure with
  | refusal cause => exact absurd rfl (other cause)
  | _ => rfl

private theorem run_refused {cause : Refusal}
    (refused : options.generate (some names.nameSpace) names.typeName none selected = .error (.refusal cause)) :
    ((create options (some names)).execute Journal.host selected).run.run before =
      (.ok false, ⟨before.copied, before.shown ++ [cause.advice.message]⟩) := by
  have body : ((create options (some names)).body Journal.host selected).run.run before =
      (.error (.refusal cause), before) := run_bind_error (by rw [refused]; rfl)
  exact run_tryCatch_error body

private theorem run_generated {generated : Generated}
    (made : options.generate (some names.nameSpace) names.typeName none selected = .ok generated) :
    ∃ message,
      (∃ text, (create options (some names)).Copies selected text ∧
        ((create options (some names)).execute Journal.host selected).run.run before =
          (.ok true, ⟨before.copied ++ [text], before.shown ++ [message]⟩)) ∨
      (∀ text, ¬ (create options (some names)).Copies selected text) ∧
        ((create options (some names)).execute Journal.host selected).run.run before =
          (.ok false, ⟨before.copied, before.shown ++ [message]⟩) := by
  have body : ((create options (some names)).body Journal.host selected).run.run before =
      (Journal.host.perform (copyGenerated options.blockOnConflicts generated)).run.run before :=
    run_bind (gives_lift made before)
  rcases copyGenerated_cases made with ⟨message, done, copied⟩ | ⟨message, withheld, none⟩
  · rw [done] at body
    exact ⟨message, .inl ⟨generated.source, copied, run_tryCatch body⟩⟩
  · rw [withheld] at body
    exact ⟨message, .inr ⟨none, run_tryCatch body⟩⟩

end Runs

/-- What a run that creates types does to a journal. A cancelled one leaves it as it is. One that breaks off fails
with no message and nothing copied. Every other one shows one message, and says whether it copied a text with it. -/
theorem create_messages (options : Options) (request : Option NameRequest) (selected : Text) (before : Journal) :
    let ran := ((create options request).execute Journal.host selected).run.run before
    (request = none → ran = (.ok false, before)) ∧
    ∀ names, request = some names →
      (options.Breaks names.nameSpace selected →
        ∃ failure, (∀ cause, failure ≠ .refusal cause) ∧ ran = (.error failure, before)) ∧
      (¬ options.Breaks names.nameSpace selected → ∃ message,
        (∃ text, (create options request).Copies selected text ∧
          ran = (.ok true, ⟨before.copied ++ [text], before.shown ++ [message]⟩)) ∨
        (∀ text, ¬ (create options request).Copies selected text) ∧
          ran = (.ok false, ⟨before.copied, before.shown ++ [message]⟩)) := by
  refine ⟨fun cancelled => by subst cancelled; rfl, ?_⟩
  rintro names rfl
  rcases options.generate_cases names.nameSpace names.typeName selected with
    ⟨broken, failure, other, failed⟩ | ⟨whole, ⟨generated, made⟩ | ⟨cause, refused⟩⟩
  · exact ⟨fun _ => ⟨failure, other, run_broken other failed⟩, fun whole => absurd broken whole⟩
  · exact ⟨fun broken => absurd broken whole, fun _ => run_generated made⟩
  · exact ⟨fun broken => absurd broken whole, fun _ =>
      ⟨cause.advice.message, .inr ⟨not_copies_of_error refused, run_refused refused⟩⟩⟩

/-- Any number of ones, except none, is a plain literal. -/
private theorem exists_ones (more : Nat) :
    ∃ literal : Json.Literal, literal.isPlain = true ∧ literal.text = List.replicate (more + 1) 0x31 := by
  have whole : Json.IsDigits (List.replicate (more + 1) 0x31) :=
    ⟨by simp, fun c hc => by rw [List.eq_of_mem_replicate hc]; rfl⟩
  have leading : (List.replicate (more + 1) 0x31).head? ≠ some 0x30 := by simp [List.replicate_succ]
  refine ⟨⟨[], _, [], [], .inl rfl, whole, fun zero => absurd zero leading, .inl rfl, .inl rfl⟩, rfl, ?_⟩
  simp [Json.Literal.text]

private theorem run_ones {count : Nat} (long : Numeral.digitLimit < count) (before : Journal) :
    ((create .standard (some ⟨"N", "T"⟩)).execute Journal.host (List.replicate count 0x31)).run.run before =
      (.error (.longInteger count), before) := by
  obtain ⟨more, rfl⟩ := Nat.exists_eq_add_one_of_ne_zero (Nat.ne_of_gt (Nat.zero_lt_of_lt long))
  obtain ⟨literal, plain, text⟩ := exists_ones more
  have digits : Json.Reader.digitsOf (List.replicate (more + 1) 0x31) = more + 1 := by
    simp [Json.Reader.digitsOf, Numeral.isDigit]
  have parsed := Json.parse_long plain (by rwa [text, digits])
  rw [text, digits] at parsed
  have encodable : Text.Encodable (List.replicate (more + 1) 0x31) := fun c hc => by
    rw [List.eq_of_mem_replicate hc]
    rfl
  have generates : Options.generate .standard (some "N") "T" none (List.replicate (more + 1) 0x31) =
      .error (.longInteger (more + 1)) := by
    simp only [Options.generate, check_ok encodable, Options.inferText, parsed, bind, Except.bind]
  exact run_broken (fun _ same => by cases same) generates

/-- An integer of one digit more than are read: no message, nothing copied, and a failure that is no refusal. -/
theorem create_messages_long :
    ((create .standard (some ⟨"N", "T"⟩)).execute Journal.host (List.replicate 4301 0x31)).run.run .empty =
      (.error (.longInteger 4301), .empty) :=
  run_ones (by decide) .empty

end Command

end Specimen
