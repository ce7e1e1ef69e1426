import Specimen.Proofs.Command.Output

/-! What runs of the command line leave behind: a whole text in one place and success, or neither. -/
namespace Specimen

/-- A host that takes everything down has whole texts. -/
theorem Journal.isWhole :
    Journal.host.IsWhole (·.copied) (fun text copied => copied ++ [text]) True where
  copies _ _ _ _ := ⟨_, rfl, rfl⟩
  refuses refused := absurd trivial refused
  tells _ _ := ⟨_, rfl, rfl⟩

namespace CommandLine

/-- What the copied texts of a run go to: the files, and standard output. -/
def Console.copies (console : Console) : List (Text × List Nat) × Text := (console.files, console.output)

/-- The files and standard output with one text more. -/
def Console.put (output : Option Text) (text : Text) (copies : List (Text × List Nat) × Text) :
    List (Text × List Nat) × Text :=
  match output with
  | none => (copies.1, copies.2 ++ asLine text)
  | some path =>
    (Json.put (Workspace.pathText path) ((Text.encodeUtf8 text).toOption.getD []) copies.1, copies.2)

/-- Whether a file can be written, where there is one to write. -/
def IsWritable (workspace : Workspace) (output : Option Text) : Prop :=
  ∀ path ∈ output, workspace.checkWritable path = .ok ()

private theorem put_put {key : Text} {first second : List Nat} (files : List (Text × List Nat)) :
    Json.put key second (Json.put key first files) = Json.put key second files := by
  induction files with
  | nil => simp [Json.put]
  | cons file rest ih =>
    rw [Json.put, Json.put]
    split
    · rename_i same
      rw [Json.put, if_pos same]
    · rename_i other
      rw [Json.put, if_neg other, ih]

/-- The host of the command line has whole texts, where the file can be written. -/
theorem Console.isWhole (workspace : Workspace) (output : Option Text) :
    (Console.host workspace output).IsWhole Console.copies (Console.put output)
      (IsWritable workspace output) where
  copies writable text before encodable := by
    cases output with
    | none =>
      exact ⟨_, (run_bind (gives_lift (check_ok encodable) before)).trans rfl, rfl⟩
    | some path =>
      obtain ⟨bytes, hbytes⟩ := Text.encodeUtf8_ok encodable
      have opened : (workspace.checkWritable path).mapError
          (fun fault => Failure.file fault (Workspace.pathText path)) = .ok () := by
        rw [writable path rfl]
        rfl
      have encoded : orUnencodable (Text.encodeUtf8 text) = .ok bytes := by
        rw [hbytes]
        rfl
      refine ⟨_, (run_bind (gives_lift opened before)).trans ((run_bind rfl).trans
        ((run_bind (gives_lift encoded _)).trans rfl)), ?_⟩
      simp [Console.copies, Console.put, Console.hold, hbytes, put_put, Except.toOption]
  refuses refused text before := by
    cases output with
    | none => exact absurd (fun _ same => by cases same) refused
    | some path =>
      cases opened : workspace.checkWritable path with
      | ok found => exact absurd (fun _ same => by cases same; exact opened) refused
      | error fault =>
        have failed : (workspace.checkWritable path).mapError
            (fun fault => Failure.file fault (Workspace.pathText path)) =
              .error (.file fault (Workspace.pathText path)) := by
          rw [opened]
          rfl
        refine ⟨.file fault (Workspace.pathText path), before, run_bind_error ?_, rfl⟩
        rw [failed]
        rfl
  tells _ _ := ⟨_, rfl, rfl⟩

/-- The text that a request has to give: what its command copies of the text that it is for. -/
inductive Request.Copies (surroundings : Surroundings) : Request → Text → Prop
  | generate {input : Text} {names : NameRequest} {options : Options} {output : Option Text} {selected text : Text}
    (read : readInput surroundings input = .ok selected)
    (copied : (Command.create options (some names)).Copies selected text) :
    Copies surroundings (.generate input names options output) text
  | serialize {name : Text} {source : Option Text} {settings : Settings} {output : Option Text} {text : Text}
    (copied : (Command.serialize surroundings.workspace source settings).Copies name text) :
    Copies surroundings (.serialize name source settings output) text
  | pascal {selected text : Text} (copied : Command.pascal.Copies selected text) :
    Copies surroundings (.pascal selected) text

theorem Request.Copies.encodable {surroundings : Surroundings} {request : Request} {text : Text}
    (h : request.Copies surroundings text) : Text.Encodable text := by
  cases h with
  | generate _ copied | serialize copied | pascal copied => exact copied.encodable

/-- What a run leaves, with a text in it: the text in its file and nothing else, or as a line of standard output. -/
def Report.Wrote (report : Report) (output : Option Text) (text : Text) : Prop :=
  report.exit = 0 ∧ report.failure = none ∧
    match output with
    | none => report.console.files = [] ∧ report.console.output = asLine text
    | some path => report.console.output = [] ∧
      ∃ bytes, Text.encodeUtf8 text = .ok bytes ∧ report.console.files = [(Workspace.pathText path, bytes)]

/-- What a run leaves without a text: nothing, and no success, unless a module that was loaded ends the program with
it. -/
structure Report.WroteNothing (report : Report) : Prop where
  exit : report.exit = 0 →
    ∃ name message shown, report.failure = some (.escape ⟨name, message, .exit 0 shown⟩)
  files : report.console.files = []
  output : report.console.output = []

/-- A failure leaves what has been written, and ends the program with success only where it is an exit that asks for
it. -/
private theorem ended_spec (failure : Failure) (console : Console) :
    ((Report.ended failure console).exit = 0 → ∃ name message shown,
        (Report.ended failure console).failure = some (.escape ⟨name, message, .exit 0 shown⟩)) ∧
      (Report.ended failure console).console.files = console.files ∧
      (Report.ended failure console).console.output = console.output := by
  unfold Report.ended
  dsimp only
  split
  · refine ⟨fun success => ?_, rfl, rfl⟩
    cases success
    exact ⟨_, _, _, rfl⟩
  · exact ⟨nofun, rfl, rfl⟩
  · exact ⟨nofun, rfl, rfl⟩

/-- The report of a run that leaves a text whole or not at all. -/
private theorem ofRun_leaves {output : Option Text} {accepts : Prop} {copies : Text → Prop} {step : Action Console Bool}
    (h : Host.Leaves Console.copies (Console.put output) accepts copies step)
    (encodable : ∀ text, copies text → Text.Encodable text) :
    (∃ text, copies text ∧ (Report.ofRun step).Wrote output text) ∨
      (accepts → ∀ text, ¬ copies text) ∧ (Report.ofRun step).WroteNothing := by
  obtain ⟨outcome, after, ran, left⟩ := h Console.blank
  rw [Report.ofRun, ran]
  rcases left with ⟨text, copied, rfl, written⟩ | ⟨none, undone, same⟩
  · refine .inl ⟨text, copied, rfl, rfl, ?_⟩
    cases output with
    | none => exact Prod.mk.inj written
    | some path =>
      obtain ⟨files, printed⟩ := Prod.mk.inj written
      obtain ⟨bytes, hbytes⟩ := Text.encodeUtf8_ok (encodable text copied)
      rw [hbytes] at files
      exact ⟨printed, bytes, hbytes, files⟩
  · obtain ⟨files, printed⟩ := Prod.mk.inj same
    refine .inr ⟨none, ?_⟩
    rcases outcome with failure | _ | _
    · obtain ⟨exit, held, shown⟩ := ended_spec failure after
      exact ⟨exit, held.trans files, shown.trans printed⟩
    · exact ⟨nofun, files, printed⟩
    · exact absurd rfl undone

/-- The answer to a request leaves its text or nothing, unless it is a text about the program. -/
private theorem answer_leaves (surroundings : Surroundings) (asked : Request) :
    (∃ text, asked.Copies surroundings text ∧ (answer surroundings asked).Wrote asked.paths.2 text) ∨
      (asked = .version ∧ answer surroundings asked = .told versionText ∨
        asked = .help ∧ answer surroundings asked = .told helpText) ∨
      (answer surroundings asked).WroteNothing ∧
        (IsWritable surroundings.workspace asked.paths.2 → ∀ text, ¬ asked.Copies surroundings text) := by
  have settled {about : Prop} {step : Action Console Bool} (report : answer surroundings asked = .ofRun step)
      (h : Host.Leaves Console.copies (Console.put asked.paths.2)
        (IsWritable surroundings.workspace asked.paths.2) (asked.Copies surroundings) step) :
      (∃ text, asked.Copies surroundings text ∧ (answer surroundings asked).Wrote asked.paths.2 text) ∨
        about ∨ (answer surroundings asked).WroteNothing ∧
          (IsWritable surroundings.workspace asked.paths.2 → ∀ text, ¬ asked.Copies surroundings text) := by
    have left := ofRun_leaves h fun text copied => copied.encodable
    rw [← report] at left
    exact left.imp id fun nothing => .inr nothing.symm
  cases asked with
  | version => exact .inr (.inl (.inl ⟨rfl, rfl⟩))
  | help => exact .inr (.inl (.inr ⟨rfl, rfl⟩))
  | pascal selected =>
    have same : (Request.pascal selected).Copies surroundings = Command.pascal.Copies selected :=
      funext fun text => propext ⟨fun | .pascal copied => copied, .pascal⟩
    exact settled rfl (same ▸ Command.execute_leaves (Console.isWhole _ _) _ selected)
  | serialize name source settings output =>
    have same : (Request.serialize name source settings output).Copies surroundings =
        (Command.serialize surroundings.workspace source settings).Copies name :=
      funext fun text => propext ⟨fun | .serialize copied => copied, .serialize⟩
    exact settled rfl (same ▸ Command.execute_leaves (Console.isWhole _ _) _ name)
  | generate input names options output =>
    refine settled rfl (leaves_bind (fun failure failed text copied => ?_) fun selected read => ?_)
    · cases copied with
      | generate read => cases failed.symm.trans read
    · have same : (Request.generate input names options output).Copies surroundings =
          (Command.create options (some names)).Copies selected :=
        funext fun text => propext
          ⟨fun | .generate other copied => by cases read.symm.trans other; exact copied, .generate read⟩
      exact same ▸ Command.execute_leaves (Console.isWhole _ _) _ selected

end CommandLine

/-- Whatever a host offers, a command gives it one complete text and returns that it did, or leaves its output as it
was, where that takes whole texts. A run of the command line ends with success and one complete text in the file or
on standard output, or with nothing written and without success, unless a module that it loads ends the program with
that; a request that has a text is answered with it where the file can be written. -/
theorem output_whole :
    (∀ {σ ω : Type} {host : Host σ} {output : σ → ω} {put : Text → ω → ω} {accepts : Prop},
      host.IsWhole output put accepts → ∀ (command : Command) (selected : Text),
        Host.Leaves output put accepts (command.Copies selected) (command.execute host selected)) ∧
    ∀ (surroundings : CommandLine.Surroundings) (arguments : List Text),
      (∃ asked text, CommandLine.request arguments = .ok asked ∧ asked.Copies surroundings text ∧
        (CommandLine.run surroundings arguments).Wrote asked.paths.2 text) ∨
      (CommandLine.request arguments = .ok .version ∧
        CommandLine.run surroundings arguments = .told CommandLine.versionText ∨
        CommandLine.request arguments = .ok .help ∧
        CommandLine.run surroundings arguments = .told CommandLine.helpText) ∨
      (CommandLine.run surroundings arguments).WroteNothing ∧
        ∀ asked, CommandLine.request arguments = .ok asked →
          asked.checkPaths surroundings.workspace = .ok () →
          CommandLine.IsWritable surroundings.workspace asked.paths.2 →
          ∀ text, ¬ asked.Copies surroundings text := by
  refine ⟨fun whole command selected => command.execute_leaves whole selected, fun surroundings arguments => ?_⟩
  cases asking : CommandLine.request arguments with
  | error fault =>
    have misused : CommandLine.run surroundings arguments = .misused fault := by
      rw [CommandLine.run, asking]
      rfl
    exact .inr (.inr ⟨misused ▸ ⟨nofun, rfl, rfl⟩, nofun⟩)
  | ok asked =>
    cases checked : asked.checkPaths surroundings.workspace with
    | error fault =>
      have misused : CommandLine.run surroundings arguments = .misused fault := by
        simp only [CommandLine.run, asking, bind, Except.bind, checked]
      refine .inr (.inr ⟨misused ▸ ⟨nofun, rfl, rfl⟩, ?_⟩)
      rintro _ ⟨⟩ usable
      cases checked.symm.trans usable
    | ok found =>
      have answered : CommandLine.run surroundings arguments = CommandLine.answer surroundings asked := by
        simp only [CommandLine.run, asking, bind, Except.bind, checked]
        rfl
      rw [answered]
      rcases CommandLine.answer_leaves surroundings asked with ⟨text, copied, wrote⟩ | told | ⟨nothing, none⟩
      · exact .inl ⟨asked, text, rfl, copied, wrote⟩
      · exact .inr (.inl (told.imp (And.imp_left (congrArg _)) (And.imp_left (congrArg _))))
      · refine .inr (.inr ⟨nothing, ?_⟩)
        rintro _ ⟨⟩ -
        exact none

/-- On a host that takes everything down, the identifier of a text is copied, and nothing where a sample is no
document or a name is not a qualified one. -/
theorem output_whole_identifier :
    Journal.host.IsWhole (·.copied) (fun text copied => copied ++ [text]) True ∧
    (∃ after, (Command.pascal.execute Journal.host "order id").run.run .empty = (.ok true, after) ∧
      after.copied = ["OrderId"]) ∧
    (∃ after, ((Command.create .standard (some ⟨"shop", "Order"⟩)).execute Journal.host "\x7b").run.run .empty =
      (.ok false, after) ∧ after.copied = []) ∧
    ∃ after, ((Command.serialize ⟨⟨[]⟩, [], []⟩ none ⟨.declaredOnly, .ignore, .compact⟩).execute Journal.host
      "Order").run.run .empty = (.ok false, after) ∧ after.copied = [] := by
  have ended {command : Command} {selected : Text}
      (undone : ((command.execute Journal.host selected).run.run .empty).1 = .ok false) :
      ∃ after, (command.execute Journal.host selected).run.run .empty = (.ok false, after) ∧ after.copied = [] := by
    obtain ⟨outcome, after, ran, left⟩ := output_whole.1 Journal.isWhole command selected .empty
    rw [ran] at undone
    cases undone
    rcases left with ⟨text, -, done, -⟩ | ⟨-, -, same⟩
    · cases done
    · exact ⟨after, ran, same⟩
  refine ⟨Journal.isWhole, ?_, ended (by decide +kernel), ended (by decide +kernel)⟩
  have copied : Command.pascal.Copies "order id" (Naming.normalize "order id") := .pascal (by decide)
  obtain ⟨outcome, after, ran, left⟩ := output_whole.1 Journal.isWhole .pascal "order id" .empty
  rcases left with ⟨text, pascal, rfl, given⟩ | ⟨none, -, -⟩
  · cases pascal
    exact ⟨after, ran, given.trans (by decide +kernel)⟩
  · exact absurd copied (none trivial _)

end Specimen
