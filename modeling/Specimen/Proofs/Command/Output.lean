import Specimen.CommandLine.Report
import Specimen.Proofs.Naming.Identifier
import Specimen.Proofs.Steps

/-! All or nothing. A command gives its host one complete text and says that it did, or the host's output stays
as it was. -/
namespace Specimen

/-- The text that a command gives its host, whole: generated source unless conflicts withhold it, the document of
the class that was named, or an identifier. -/
inductive Command.Copies : Command → Text → Text → Prop
  | create {options : Options} {names : NameRequest} {selected : Text} {generated : Generated}
    (made : options.generate (some names.nameSpace) names.typeName none selected = .ok generated)
    (released : options.blockOnConflicts = true → generated.hasConflicts = false) :
    Copies (.create options (some names)) selected generated.source
  | serialize {workspace : Workspace} {file : Option Text} {settings : Settings} {selected : Text}
    {made : Serialized} (named : (Text.trim selected).isEmpty = false)
    (found : serializeNamed workspace file settings (Text.trim selected) = .ok made) :
    Copies (.serialize workspace file settings) selected made.text
  | pascal {selected : Text} (visible : (Text.trim selected).isEmpty = false) :
    Copies .pascal selected (Naming.normalize selected)

/-- A host whose output takes whole texts that can be encoded, or nothing at all; messages go elsewhere. -/
structure Host.IsWhole {σ ω : Type} (host : Host σ) (output : σ → ω) (put : Text → ω → ω) (accepts : Prop) :
    Prop where
  copies : accepts → ∀ text before, Text.Encodable text →
    ∃ after, Gives (host.copy text) before () after ∧ output after = put text (output before)
  refuses : ¬ accepts → ∀ text before,
    ∃ failure after, (host.copy text).run.run before = (.error failure, after) ∧ output after = output before
  tells : ∀ message before, ∃ after, Gives (host.tell message) before () after ∧ output after = output before

section Copies
variable {command : Command} {selected text : Text}

theorem check_ok (h : Text.Encodable text) : orUnencodable (Text.checkEncodable text) = .ok () := by
  rw [Text.checkEncodable_ok h]
  rfl

theorem exists_check_error (h : ¬ Text.Encodable text) :
    ∃ cause, orUnencodable (Text.checkEncodable text) = .error (.unencodable cause) := by
  obtain ⟨cause, hcause⟩ := Text.exists_checkEncodable_error h
  exact ⟨cause, by rw [hcause]; rfl⟩

private theorem encodable_of_check {found : Unit} (h : orUnencodable (Text.checkEncodable text) = .ok found) :
    Text.Encodable text := by
  by_contra surrogate
  obtain ⟨cause, failed⟩ := exists_check_error surrogate
  cases failed.symm.trans h

/-- What a command copies can be encoded. -/
theorem Command.Copies.encodable (h : command.Copies selected text) : Text.Encodable text := by
  cases h with
  | create made =>
    obtain ⟨_, -, made⟩ := ok_of_bind made
    obtain ⟨_, -, made⟩ := ok_of_bind made
    obtain ⟨source, -, made⟩ := ok_of_bind made
    obtain ⟨_, checked, made⟩ := ok_of_bind made
    cases made
    exact encodable_of_check checked
  | serialize _ found =>
    rw [serializeNamed] at found
    split at found
    · obtain ⟨_, -, found⟩ := ok_of_bind found
      obtain ⟨_, -, found⟩ := ok_of_bind found
      obtain ⟨rendered, -, found⟩ := ok_of_bind found
      obtain ⟨_, checked, found⟩ := ok_of_bind found
      cases found
      exact encodable_of_check checked
    · cases found
  | pascal => exact Text.encodable_iff.mpr (Naming.normalize_misses Text.gap_surrogates selected)

/-- Generated source is copied, or withheld where it is not a text that the command copies. -/
theorem Command.copyGenerated_cases {options : Options} {names : NameRequest} {generated : Generated}
    (made : options.generate (some names.nameSpace) names.typeName none selected = .ok generated) :
    (∃ message, copyGenerated options.blockOnConflicts generated = .done generated.source message ∧
      (Command.create options (some names)).Copies selected generated.source) ∨
    ∃ message, copyGenerated options.blockOnConflicts generated = .withheld message ∧
      ∀ text, ¬ (Command.create options (some names)).Copies selected text := by
  rw [copyGenerated]
  split
  · rename_i unconflicted
    exact .inl ⟨_, rfl, .create made fun _ => by simpa using unconflicted⟩
  · rename_i conflicted
    split
    · rename_i blocked
      refine .inr ⟨_, rfl, fun text copied => ?_⟩
      cases copied with
      | create other released =>
        cases made.symm.trans other
        exact conflicted (by rw [released blocked]; rfl)
    · rename_i unblocked
      exact .inl ⟨_, rfl, .create made fun blocked => absurd blocked unblocked⟩

/-- Where nothing is generated, nothing is copied. -/
theorem Command.not_copies_of_error {options : Options} {names : NameRequest} {failure : Failure}
    (failed : options.generate (some names.nameSpace) names.typeName none selected = .error failure) (text : Text) :
    ¬ (Command.create options (some names)).Copies selected text := by
  intro copied
  cases copied with
  | create made => cases failed.symm.trans made

end Copies

section Hosts
variable {σ ω : Type} {host : Host σ} {output : σ → ω} {put : Text → ω → ω} {accepts : Prop}

private theorem gives_forM_singleton {step : Text → Action σ Unit} {text : Text} {before after : σ}
    (h : Gives (step text) before () after) : Gives ([text].forM step) before () after :=
  (run_bind h).trans rfl

variable (whole : host.IsWhole output put accepts)
include whole

/-- A withheld outcome leaves the output as it is. -/
theorem Host.IsWhole.withheld (message : Text) (before : σ) : ∃ after,
    Gives (host.perform (.withheld message)) before false after ∧ output after = output before := by
  obtain ⟨after, told, same⟩ := whole.tells message before
  exact ⟨after, (run_bind (gives_forM_singleton told)).trans rfl, same⟩

/-- An outcome with a text gives it to an output that accepts it. -/
theorem Host.IsWhole.done (accepted : accepts) {text : Text} (encodable : Text.Encodable text) (message : Text)
    (before : σ) : ∃ after,
    Gives (host.perform (.done text message)) before true after ∧ output after = put text (output before) := by
  obtain ⟨middle, copied, given⟩ := whole.copies accepted text before encodable
  obtain ⟨after, told, same⟩ := whole.tells message middle
  refine ⟨after, ?_, same.trans given⟩
  exact (run_bind (gives_forM_singleton copied)).trans ((run_bind (gives_forM_singleton told)).trans rfl)

theorem Host.IsWhole.undone (refused : ¬ accepts) (text message : Text) (before : σ) : ∃ failure after,
    (host.perform (.done text message)).run.run before = (.error failure, after) ∧
      output after = output before := by
  obtain ⟨failure, after, failed, same⟩ := whole.refuses refused text before
  exact ⟨failure, after, run_bind_error (run_bind_error failed), same⟩

/-- What a run leaves of the output: one text more, and the run says so; or the output as it was. -/
def Host.Leaves (output : σ → ω) (put : Text → ω → ω) (accepts : Prop) (copies : Text → Prop)
    (step : Action σ Bool) : Prop :=
  ∀ before, ∃ outcome after, step.run.run before = (outcome, after) ∧
    ((∃ text, copies text ∧ outcome = .ok true ∧ output after = put text (output before)) ∨
      (accepts → ∀ text, ¬ copies text) ∧ outcome ≠ .ok true ∧ output after = output before)

section Leaving
variable {copies : Text → Prop}

private theorem Host.IsWhole.leaves_withheld (message : Text) (none : ∀ text, ¬ copies text) :
    Leaves output put accepts copies (host.perform (.withheld message)) := by
  intro before
  obtain ⟨after, ran, same⟩ := whole.withheld message before
  exact ⟨_, after, ran, .inr ⟨fun _ => none, nofun, same⟩⟩

private theorem Host.IsWhole.leaves_done {text : Text} (message : Text) (copied : copies text)
    (encodable : Text.Encodable text) : Leaves output put accepts copies (host.perform (.done text message)) := by
  intro before
  by_cases accepted : accepts
  · obtain ⟨after, ran, given⟩ := whole.done accepted encodable message before
    exact ⟨_, after, ran, .inl ⟨text, copied, rfl, given⟩⟩
  · obtain ⟨failure, after, ran, same⟩ := whole.undone accepted text message before
    exact ⟨_, after, ran, .inr ⟨fun h => absurd h accepted, nofun, same⟩⟩

omit whole in
theorem leaves_bind {α : Type} {outcome : Except Failure α} {next : α → Action σ Bool}
    (error : ∀ failure, outcome = .error failure → ∀ text, ¬ copies text)
    (ok : ∀ value, outcome = .ok value → Host.Leaves output put accepts copies (next value)) :
    Host.Leaves output put accepts copies (liftM outcome >>= next) := by
  intro before
  cases outcome with
  | error failure =>
    exact ⟨_, before, run_bind_error rfl, .inr ⟨fun _ => error failure rfl, nofun, rfl⟩⟩
  | ok value =>
    obtain ⟨outcome, after, ran, left⟩ := ok value rfl before
    exact ⟨outcome, after, (run_bind (gives_lift rfl before)).trans ran, left⟩

/-- A refusal is told of, and leaves the output as the refused step left it. -/
theorem Host.IsWhole.settle {step : Action σ Bool}
    (h : Leaves output put accepts copies step) : Leaves output put accepts copies (host.settle step) := by
  intro before
  obtain ⟨outcome, after, ran, left⟩ := h before
  cases outcome with
  | ok isDone => exact ⟨_, after, run_tryCatch ran, left⟩
  | error failure =>
    obtain ⟨none, same⟩ : (accepts → ∀ text, ¬ copies text) ∧ output after = output before := by
      rcases left with ⟨_, -, ⟨⟩, -⟩ | ⟨none, -, same⟩
      exact ⟨none, same⟩
    cases failure with
    | refusal cause =>
      obtain ⟨last, told, kept⟩ := whole.withheld cause.advice.message after
      exact ⟨_, last, (run_tryCatch_error ran).trans told, .inr ⟨none, nofun, kept.trans same⟩⟩
    | _ => exact ⟨_, after, (run_tryCatch_error ran).trans rfl, .inr ⟨none, nofun, same⟩⟩

end Leaving

/-- A command leaves the text that it copies, or nothing. -/
private theorem Command.body_leaves (command : Command) (selected : Text) :
    Host.Leaves output put accepts (command.Copies selected) (command.body host selected) := by
  match command with
  | .create options none =>
    exact fun before => ⟨.ok false, before, rfl, .inr ⟨fun _ _ copied => (nomatch copied), nofun, rfl⟩⟩
  | .create options (some names) =>
    refine leaves_bind (fun failure failed => not_copies_of_error failed) fun generated made => ?_
    rcases copyGenerated_cases made with ⟨message, done, copied⟩ | ⟨message, withheld, none⟩
    · rw [done]
      exact whole.leaves_done message copied copied.encodable
    · rw [withheld]
      exact whole.leaves_withheld message none
  | .serialize workspace file settings =>
    rw [body.eq_def]
    simp only
    split
    · rename_i blank
      refine whole.leaves_withheld _ fun text copied => ?_
      cases copied with
      | serialize named => cases blank.symm.trans named
    · rename_i named
      replace named := Bool.eq_false_iff.mpr named
      refine leaves_bind (fun failure failed text copied => ?_) fun made found => ?_
      · cases copied with
        | serialize _ found => cases failed.symm.trans found
      · have copied : Copies (.serialize workspace file settings) selected made.text := .serialize named found
        exact whole.leaves_done _ copied copied.encodable
  | .pascal =>
    rw [body.eq_def]
    simp only
    split
    · rename_i blank
      refine whole.leaves_withheld _ fun text copied => ?_
      cases copied with
      | pascal visible => cases blank.symm.trans visible
    · rename_i visible
      have copied : Copies .pascal selected (Naming.normalize selected) :=
        .pascal (Bool.eq_false_iff.mpr visible)
      exact whole.leaves_done _ copied copied.encodable

/-- A run of a command leaves the text that it copies, or nothing. -/
theorem Command.execute_leaves (command : Command) (selected : Text) :
    Host.Leaves output put accepts (command.Copies selected) (command.execute host selected) :=
  whole.settle (command.body_leaves whole selected)

end Hosts

end Specimen
