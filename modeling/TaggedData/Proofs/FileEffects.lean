import TaggedData.Proofs.Checking
import TaggedData.Proofs.Signatures

/-!
# Effects of a command line

A run that fails has changed no file and put nothing on the standard output. A run that
completes prints its text, or writes it without colours to one file and leaves all other files as
they were. Rejected documents make no difference to this.
-/

namespace TaggedData
namespace CommandLine

/-- Where the text of a command goes, if not to the standard output. -/
def Command.out : Command → Option String
  | .describe _ out => out
  | .check c => c.out

inductive Failure.IsUnwritten (path : String) : Failure → Prop
  | notCreated (directory : String) (cause : OsError) : IsUnwritten path (.notCreated directory cause)
  | notWritten (cause : OsError) : IsUnwritten path (.notWritten path cause)

/-- A rejected document gives a warning. -/
inductive Warns (r : Record) (d : SourcedDocument) : List LogEvent → Prop
  | passed {v : Value} (lifted : r.lift d.content = .ok v) : Warns r d []
  | failed {f : Fault} (refused : r.lift d.content = .error f) :
      Warns r d [.rejected d.source f.message]

theorem Report.joins_warnings (r : Record) (documents : List SourcedDocument) :
    Joins (Warns r) documents (warnings (documents.map (Verdict.ofDocument r))) := by
  induction documents with
  | nil => exact .nil
  | cons d rest ih =>
    cases hlift : r.lift d.content with
    | ok v =>
      have hwarnings : warnings ((d :: rest).map (Verdict.ofDocument r)) =
          [] ++ warnings (rest.map (Verdict.ofDocument r)) := by
        simp [warnings, Verdict.ofDocument, hlift]
      exact hwarnings ▸ .cons (.passed hlift) ih
    | error f =>
      have hwarnings : warnings ((d :: rest).map (Verdict.ofDocument r)) =
          [.rejected d.source f.message] ++ warnings (rest.map (Verdict.ofDocument r)) := by
        simp [warnings, Verdict.ofDocument, hlift]
      exact hwarnings ▸ .cons (.failed hlift) ih

variable {σ : Type} [FileView (ReaderM σ)]

/-- What a command comes to: its text, whether it is successful, and the warnings. A
description needs its schema, a check also its record and its documents. -/
inductive Command.Renders (libraries : Libraries) (files : σ) (coloured : Bool) :
    Command → String → Bool → List LogEvent → Prop
  | describe {schema : String} {out : Option String} {s : Schema} {texts : List String}
      (loads : LoadsSchema libraries files schema s)
      (written : List.Forall₂ Definition.Written s.definitions texts) :
      Renders libraries files coloured (.describe schema out) ("\n\n".intercalate texts) true []
  | check {c : CheckCommand} {r : Record} {documents : List SourcedDocument} {entries : List String}
      {warnings : List LogEvent} (finds : c.Finds libraries files c.inputs r documents)
      (reported : List.Forall₂ (Entry r coloured) documents entries)
      (warns : Joins (Warns r) documents warnings) :
      Renders libraries files coloured (.check c)
        (reportText coloured entries (passed r documents) (failed r documents))
        (decide (failed r documents = 0)) warnings

variable {env : Setup} {files : σ} {c : Command}

theorem renders_of_outcome {o : Outcome}
    (h : (c.outcome (m := ReaderM σ) env).run files = .ok o) :
    o.out = c.out ∧ c.Renders env.libraries files (env.coloured && c.out.isNone) o.text o.success
      (c.warnings env files) := by
  cases c with
  | describe schema out =>
    simp only [Command.outcome, run_bind_eq_ok, run_pure_eq_ok, loadSchema_eq_ok_iff] at h
    obtain ⟨s, hloads, rfl⟩ := h
    refine ⟨rfl, .describe hloads ?_⟩
    rw [List.forall₂_map_right_iff, List.forall₂_same]
    exact fun d _ => d.written_signature
  | check c =>
    obtain ⟨r, documents, hfinds, rfl⟩ := outcome_check_eq_ok_iff.mp h
    have hreport := CheckCommand.report_eq_ok_iff.mpr ⟨r, documents, hfinds, rfl⟩
    rw [Command.warnings, hreport, Report.text_map]
    exact ⟨rfl, .check hfinds (Report.forall₂_entry_iff.mpr rfl) (Report.joins_warnings ..)⟩

theorem exists_outcome (env : Setup) {coloured success : Bool} {text : String}
    {warnings : List LogEvent}
    (h : c.Renders env.libraries files coloured text success warnings) :
    ∃ o, (c.outcome (m := ReaderM σ) env).run files = .ok o := by
  cases h with
  | describe loads =>
    exact ⟨_, run_bind_eq_ok.mpr ⟨_, loadSchema_eq_ok_iff.mpr loads, rfl⟩⟩
  | check finds => exact ⟨_, outcome_check_eq_ok_iff.mpr ⟨_, _, finds, rfl⟩⟩

variable [FileStore (StateM σ)] [StillView σ] (fs : FileSystem σ)

/-- A step that makes or changes no file, and does nothing besides that. -/
def KeepsFiles {α : Type} (step : StateM (Session σ) α) : Prop :=
  ∀ s, ∃ a files, step.run s = (a, { s with files := files }) ∧ fs.Keeps s.files files

section Directories

variable {fs} {α β : Type}

theorem keepsFiles_pure (a : α) : KeepsFiles fs (pure a) :=
  fun s => ⟨a, s.files, rfl, .refl _⟩

theorem KeepsFiles.bind {step : StateM (Session σ) α} {next : α → StateM (Session σ) β}
    (h : KeepsFiles fs step) (hnext : ∀ a, KeepsFiles fs (next a)) : KeepsFiles fs (step >>= next) := by
  intro s
  obtain ⟨a, between, hstep, hkeeps⟩ := h s
  obtain ⟨b, after, hrest, hkeeps'⟩ := hnext a { s with files := between }
  refine ⟨b, after, ?_, hkeeps.trans hkeeps'⟩
  have hrun : (step >>= next).run s = (next (step.run s).1).run (step.run s).2 := rfl
  rw [hrun, hstep, hrest]

theorem keepsFiles_ensureDirectory (path : String) :
    KeepsFiles fs (FileStore.ensureDirectory path : StateM (Session σ) (Except OsError Unit)) := by
  have hmake : KeepsFiles fs (FileStore.makeDirectory path : StateM (Session σ) _) :=
    fun s => ⟨_, _, rfl, fs.content?_makeDirectory s.files path⟩
  have hlook : KeepsFiles fs (FileView.isDirectory path : StateM (Session σ) Bool) := by
    intro s
    refine ⟨_, _, rfl, ?_⟩
    rw [StillView.isDirectory]
    exact .refl _
  refine hmake.bind fun result => ?_
  cases result with
  | ok _ => exact keepsFiles_pure _
  | error e => exact hlook.bind fun _ => keepsFiles_pure _

theorem keepsFiles_ensureDirectories (directories : List String) :
    KeepsFiles fs
      (FileStore.ensureDirectories directories : StateM (Session σ) (Except OsError Unit)) := by
  induction directories with
  | nil => exact keepsFiles_pure _
  | cons path around ih =>
    refine (keepsFiles_ensureDirectory path).bind fun result => ?_
    split
    · refine ih.bind fun result => ?_
      split
      · exact keepsFiles_ensureDirectory path
      · exact keepsFiles_pure _
    · exact keepsFiles_pure _

end Directories

/-- What becomes of a result and of the session. -/
inductive Emits (o : Outcome) (before : Session σ) : Session σ → Except Failure Unit → Prop
  | printed (out : o.out = none) : Emits o before (before.printing (o.text ++ "\n")) (.ok ())
  | written {path : String} {files : σ} (out : o.out = some path)
      (writes : fs.Writes path o.text before.files files) :
      Emits o before { before with files := files } (.ok ())
  | unwritten {path : String} {f : Failure} {files : σ} (out : o.out = some path)
      (unwritten : f.IsUnwritten path) (keeps : fs.Keeps before.files files) :
      Emits o before { before with files := files } (.error f)

theorem emits (o : Outcome) (s : Session σ) :
    Emits fs o s ((o.emit (m := StateM (Session σ))).run.run s).2
      ((o.emit (m := StateM (Session σ))).run.run s).1 := by
  obtain ⟨text, out, success⟩ := o
  cases out with
  | none => exact .printed rfl
  | some path =>
    have hdirectories : KeepsFiles fs (FileStore.ensureDirectories (Path.directories path)) :=
      keepsFiles_ensureDirectories _
    obtain ⟨made, between, hmade, hkeeps⟩ := hdirectories s
    simp only [Outcome.emit, run_lift_bind, hmade]
    cases made with
    | error cause => exact .unwritten rfl (.notCreated _ cause) hkeeps
    | ok =>
      have hrun : (FileStore.writeText path text : StateM (Session σ) (Except OsError Unit)).run
          { s with files := between } =
            (((FileStore.writeText path text : StateM σ (Except OsError Unit)).run between).1,
              { s with files :=
                ((FileStore.writeText path text : StateM σ (Except OsError Unit)).run between).2 }) :=
        rfl
      simp only [run_lift_bind, hrun]
      cases hwrite : (FileStore.writeText path text : StateM σ (Except OsError Unit)).run between with
      | mk result after =>
        cases result with
        | error cause =>
          exact .unwritten rfl (.notWritten cause)
            (hkeeps.trans (fs.content?_writeText_error hwrite))
        | ok => exact .written rfl (.of_keeps hkeeps (fs.exists_of_writeText_ok hwrite))

/-- How a run ends, with the session that it leaves behind. -/
inductive Ends (libraries : Libraries) (coloured : Bool) (arguments : List String)
    (before : Session σ) : Session σ → Ending → Prop
  | refused {r : ArgumentRefusal} (given : libraries.arguments arguments = .error r) :
      Ends libraries coloured arguments before
        (if r.isRequest then before.printing r.text else before.noticing (.text r.text)) (.refused r)
  | nothing {i : Invocation} {f : Failure} {after : Session σ}
      (given : libraries.arguments arguments = .ok i)
      (nothing : ∀ coloured text success warnings,
        ¬i.command.Renders libraries before.files coloured text success warnings)
      (files : after.files = before.files) (output : after.output = before.output) :
      Ends libraries coloured arguments before after (.failed f)
  | printed {i : Invocation} {text : String} {success : Bool} {warnings events : List LogEvent}
      (given : libraries.arguments arguments = .ok i) (out : i.command.out = none)
      (renders : i.command.Renders libraries before.files coloured text success warnings)
      (quiet : i.verbose = false → events = []) :
      Ends libraries coloured arguments before
        ((before.noted (events ++ warnings)).printing (text ++ "\n")) (.finished success)
  | written {i : Invocation} {path text : String} {success : Bool} {warnings events : List LogEvent}
      {files : σ} (given : libraries.arguments arguments = .ok i) (out : i.command.out = some path)
      (renders : i.command.Renders libraries before.files false text success warnings)
      (quiet : i.verbose = false → events = []) (writes : fs.Writes path text before.files files) :
      Ends libraries coloured arguments before
        { before.noted (events ++ warnings) with files := files } (.finished success)
  | unwritten {i : Invocation} {path : String} {f : Failure} {after : Session σ}
      (given : libraries.arguments arguments = .ok i) (out : i.command.out = some path)
      (unwritten : f.IsUnwritten path) (keeps : fs.Keeps before.files after.files)
      (output : after.output = before.output) :
      Ends libraries coloured arguments before after (.failed f)

section Runs

variable {libraries : Libraries} {coloured : Bool} {arguments : List String} {i : Invocation}
  {before : Session σ}

omit [FileView (ReaderM σ)] [StillView σ] in
theorem run_perform_of_refused {r : ArgumentRefusal} (given : libraries.arguments arguments = .error r) :
    (perform libraries coloured arguments : StateM (Session σ) Ending).run before =
      (.refused r,
        if r.isRequest then before.printing r.text else before.noticing (.text r.text)) := by
  rw [perform, given]
  cases hrequest : r.isRequest <;> simp only [hrequest] <;> rfl

omit [FileView (ReaderM σ)] [StillView σ] in
theorem run_perform_of_given (given : libraries.arguments arguments = .ok i) :
    (perform libraries coloured arguments : StateM (Session σ) Ending).run before =
      match (i.command.perform (m := StateM (Session σ)) ⟨libraries, coloured, i.verbose⟩).run.run
        before with
      | (.ok success, after) => (.finished success, after)
      | (.error f, after) => (.failed f, after.noticing (.text ("error: " ++ f.message ++ "\n"))) := by
  rw [perform, given]
  dsimp only
  rw [StateT.run_bind]
  cases hperform : (i.command.perform (m := StateM (Session σ))
    ⟨libraries, coloured, i.verbose⟩).run.run before with
  | mk result after => cases result <;> rfl

end Runs

section Emitting

variable {fs} {libraries : Libraries} {coloured : Bool} {arguments : List String} {i : Invocation}
  {before after : Session σ} {o : Outcome} {warnings events : List LogEvent}

theorem Ends.of_emits_ok (given : libraries.arguments arguments = .ok i)
    (out : o.out = i.command.out) (renders : i.command.Renders libraries before.files
      (coloured && o.out.isNone) o.text o.success warnings)
    (quiet : i.verbose = false → events = [])
    (emits : Emits fs o (before.noted (events ++ warnings)) after (.ok ())) :
    Ends fs libraries coloured arguments before after (.finished o.success) := by
  cases emits with
  | printed none =>
    rw [none, Option.isNone_none, Bool.and_true] at renders
    exact .printed given (out.symm.trans none) renders quiet
  | written some writes =>
    rw [some, Option.isNone_some, Bool.and_false] at renders
    exact .written given (out.symm.trans some) renders quiet writes

theorem Ends.of_emits_error {f : Failure} (given : libraries.arguments arguments = .ok i)
    (out : o.out = i.command.out)
    (emits : Emits fs o (before.noted (events ++ warnings)) after (.error f)) :
    Ends fs libraries coloured arguments before
      (after.noticing (.text ("error: " ++ f.message ++ "\n"))) (.failed f) := by
  cases emits with
  | unwritten some unwritten keeps =>
    exact .unwritten given (out.symm.trans some) unwritten keeps rfl

end Emitting

theorem ends {libraries : Libraries} {coloured : Bool} {arguments : List String}
    {before after : Session σ} {ending : Ending}
    (ran : (perform libraries coloured arguments : StateM (Session σ) Ending).run before =
      (ending, after)) : Ends fs libraries coloured arguments before after ending := by
  cases hgiven : libraries.arguments arguments with
  | error r =>
    rw [run_perform_of_refused hgiven] at ran
    cases ran
    exact .refused hgiven
  | ok i =>
    obtain ⟨events, hquiet, hrun⟩ := run_perform ⟨libraries, coloured, i.verbose⟩ i.command before
    rw [run_perform_of_given hgiven, hrun] at ran
    generalize hwarnings : i.command.warnings ⟨libraries, coloured, i.verbose⟩ before.files =
      warnings at ran
    cases ho : (i.command.outcome (m := ReaderM σ) ⟨libraries, coloured, i.verbose⟩).run
      before.files with
    | error f =>
      rw [ho] at ran
      cases ran
      refine .nothing hgiven (fun _ _ _ _ hrenders => ?_) rfl rfl
      obtain ⟨o, hok⟩ := exists_outcome ⟨libraries, coloured, i.verbose⟩ hrenders
      cases ho.symm.trans hok
    | ok o =>
      obtain ⟨hout, hrenders⟩ := renders_of_outcome ho
      rw [hwarnings, ← hout] at hrenders
      have hemits := emits fs o (before.noted (events ++ warnings))
      rw [ho] at ran
      dsimp only at ran
      generalize (o.emit (m := StateM (Session σ))).run.run (before.noted (events ++ warnings)) =
        emitted at hemits ran
      obtain ⟨f | _, s⟩ := emitted
      · cases ran
        exact .of_emits_error hgiven hout hemits
      · cases ran
        exact .of_emits_ok hgiven hout hrenders hquiet hemits

/-- A run that fails has no effect but on the standard error output, and a run that completes has
one: it prints its text, or writes it without colours to its file. It fails only if there is
nothing to emit, or if the file cannot be written. -/
theorem file_effects (libraries : Libraries) (coloured : Bool) (arguments : List String)
    {before after : Session σ} {ending : Ending}
    (ran : (perform libraries coloured arguments : StateM (Session σ) Ending).run before =
      (ending, after)) :
    (∀ r, ending = .refused r → after.files = before.files ∧
      (r.isRequest = false → after.output = before.output ∧ ending.code = 2)) ∧
    (∀ f, ending = .failed f → fs.Keeps before.files after.files ∧
      after.output = before.output ∧ ending.code = 1) ∧
    (∀ success, ending = .finished success → ∃ i text warnings events,
      libraries.arguments arguments = .ok i ∧
      i.command.Renders libraries before.files (coloured && i.command.out.isNone) text success
        warnings ∧
      (i.command.out = none → after.files = before.files ∧
        after.output = before.output ++ text ++ "\n") ∧
      (∀ path, i.command.out = some path → fs.Writes path text before.files after.files ∧
        after.output = before.output) ∧
      after.errors = before.errors ++ (events ++ warnings).map .event ∧
      (i.verbose = false → events = []) ∧ (ending.code = 0 ↔ success = true)) ∧
    ∀ i, libraries.arguments arguments = .ok i → ∀ coloured text success warnings,
      i.command.Renders libraries before.files coloured text success warnings →
        (∃ success, ending = .finished success) ∨
          ∃ path f, i.command.out = some path ∧ ending = .failed f ∧ f.IsUnwritten path := by
  cases ends fs ran with
  | @refused r given =>
    refine ⟨?_, by simp, by simp, fun i hi => ?_⟩
    · rintro _ ⟨⟩
      cases hrequest : r.isRequest with
      | true => exact ⟨rfl, by simp⟩
      | false => exact ⟨rfl, fun _ => ⟨rfl, by simp [Ending.code, hrequest]⟩⟩
    · cases given.symm.trans hi
  | nothing given nothing files output =>
    refine ⟨by simp, ?_, by simp, fun i hi coloured text success warnings hrenders => ?_⟩
    · rintro _ ⟨⟩
      exact ⟨files ▸ .refl _, output, rfl⟩
    · cases given.symm.trans hi
      exact absurd hrenders (nothing coloured text success warnings)
  | @printed i text success warnings events given out renders quiet =>
    refine ⟨by simp, by simp, ?_, fun _ _ _ _ _ _ _ => .inl ⟨_, rfl⟩⟩
    rintro _ ⟨⟩
    refine ⟨i, text, warnings, events, given, by simpa [out] using renders, ?_, ?_, rfl, quiet, ?_⟩
    · intro _
      exact ⟨rfl, (String.append_assoc ..).symm⟩
    · intro path hpath
      cases out.symm.trans hpath
    · cases success <;> simp [Ending.code]
  | @written i path text success warnings events files given out renders quiet writes =>
    refine ⟨by simp, by simp, ?_, fun _ _ _ _ _ _ _ => .inl ⟨_, rfl⟩⟩
    rintro _ ⟨⟩
    refine ⟨i, text, warnings, events, given, by simpa [out] using renders, ?_, ?_, rfl, quiet, ?_⟩
    · intro hnone
      cases out.symm.trans hnone
    · intro path hpath
      cases out.symm.trans hpath
      exact ⟨writes, rfl⟩
    · cases success <;> simp [Ending.code]
  | @unwritten i path f after given out unwritten keeps output =>
    refine ⟨by simp, ?_, by simp, fun j hj _ _ _ _ _ => ?_⟩
    · rintro _ ⟨⟩
      exact ⟨keeps, output, rfl⟩
    · cases given.symm.trans hj
      exact .inr ⟨path, f, out, rfl, unwritten⟩

/-- A check of a team and of a list, with its report in a directory that has to be made. -/
def teamArguments : List String :=
  ["check", "--schema", "schema.json", "--record", "Team", "--input", "a.json", "b.json", "--out",
    "reports/team.txt"]

def teamReportCheck : CheckCommand :=
  { CheckCommand.teamCheck with inputs := ["a.json", "b.json"], out := some "reports/team.txt" }

def teamReport : String :=
  "ok a.json\nfailed b.json: " ++ CheckCommand.teamRefusal ++ "\n1 passed, 1 failed"

def filesWithReport (text : String) : FileTree :=
  ⟨(["reports", "team.txt"], .file (some text)) :: (["reports"], .directory) ::
    CheckCommand.teamFiles.nodes⟩

theorem finds_teamReport : teamReportCheck.Finds tools CheckCommand.teamFiles teamReportCheck.inputs
    Record.team [⟨"a.json", .object [("members", .array [])]⟩, ⟨"b.json", .array []⟩] := by
  have ha := CheckCommand.finds_team "a.json" (.object [("members", .array [])]) (by decide) rfl
    (by simp [Json.depthLimit, Keyed.Unique])
  have hb := CheckCommand.finds_team "b.json" (.array []) (by decide) rfl (by simp [Json.depthLimit])
  have hboth := CheckCommand.finds_append.mpr ⟨_, _, ha, hb, rfl⟩
  exact ⟨hboth.record, hboth.documents⟩

/-- There are no colours in a file. -/
theorem outcome_teamReport (coloured : Bool) :
    ((Command.check teamReportCheck).outcome (m := ReaderM FileTree) ⟨tools, coloured, false⟩).run
      CheckCommand.teamFiles = .ok ⟨teamReport, some "reports/team.txt", false⟩ := by
  refine outcome_check_eq_ok_iff.mpr ⟨_, _, finds_teamReport, ?_⟩
  have hplain : (coloured && teamReportCheck.out.isNone) = false := Bool.and_false _
  rw [hplain]
  cbv

theorem warnings_teamReport (coloured : Bool) :
    (Command.check teamReportCheck).warnings ⟨tools, coloured, false⟩ CheckCommand.teamFiles =
      [.rejected "b.json" CheckCommand.teamRefusal] := by
  rw [Command.warnings, CheckCommand.report_eq_ok_iff.mpr ⟨_, _, finds_teamReport, rfl⟩]
  cbv

/-- The list is no team, and the report that says so is in its file. -/
theorem file_effects_team :
    (perform tools true teamArguments : StateM (Session FileTree) Ending).run
      (.start CheckCommand.teamFiles) = (.finished false, ⟨filesWithReport teamReport, "",
        [.event (.rejected "b.json" CheckCommand.teamRefusal)]⟩) ∧
    FileTree.fileSystem.Writes "reports/team.txt" teamReport CheckCommand.teamFiles
      (filesWithReport teamReport) := by
  have hgiven : tools.arguments teamArguments = .ok ⟨.check teamReportCheck, false⟩ := rfl
  have ran : (perform tools true teamArguments : StateM (Session FileTree) Ending).run
      (.start CheckCommand.teamFiles) = (.finished false, ⟨filesWithReport teamReport, "",
        [.event (.rejected "b.json" CheckCommand.teamRefusal)]⟩) := by
    obtain ⟨events, hquiet, hrun⟩ :=
      run_perform ⟨tools, true, false⟩ (.check teamReportCheck) (.start CheckCommand.teamFiles)
    have hfiles : (Session.start CheckCommand.teamFiles).files = CheckCommand.teamFiles := rfl
    rw [run_perform_of_given hgiven, hrun, hfiles, outcome_teamReport, warnings_teamReport,
      hquiet rfl]
    rfl
  obtain ⟨-, -, hfinished, -⟩ := file_effects FileTree.fileSystem tools true teamArguments ran
  obtain ⟨i, text, -, -, hi, -, -, hwritten, -⟩ := hfinished false rfl
  cases hgiven.symm.trans hi
  obtain ⟨hwrites, -⟩ := hwritten "reports/team.txt" rfl
  have htext : text = teamReport := by
    obtain ⟨place, hplace, hcontent, -⟩ := hwrites
    cases hplace
    cases hcontent
    rfl
  exact ⟨ran, htext ▸ hwrites⟩

end CommandLine
end TaggedData
