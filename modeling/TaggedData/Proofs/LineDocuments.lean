import TaggedData.Proofs.FileEffects

/-!
# Documents in lines

A file can hold a document on every line, with blank lines in between. Checking it comes to the
same as checking files that hold one of the lines each, one after the other: it completes with
them, and its entries are theirs, with the name of the file and the number of the line in place
of the name of the single file. A line that is no document ends the check, and it is the first
such line that is reported. The record is needed in any case, also for a file of blank lines.
-/

namespace TaggedData
namespace CommandLine

variable {σ : Type} [FileView (ReaderM σ)] {files : σ} {libraries : Libraries} {inputs : List String}
  {path text : String} {lines : List (List Char)} {documents : List SourcedDocument}

theorem readLines_malformed {number : Nat} {before after : List (List Char × Nat)}
    {line : List Char × Nat} {cause : String}
    (split : documentLinesFrom number lines = before ++ line :: after)
    (earlier : ∀ other ∈ before, ∃ content, libraries.document (String.ofList other.1) = .ok content)
    (malformed : libraries.document (String.ofList line.1) = .error cause) :
    libraries.readLines path number lines = .error (.malformedLine path line.2 cause) := by
  induction lines generalizing number before with
  | nil => simp [documentLinesFrom] at split
  | cons first rest ih =>
    rw [documentLinesFrom, List.zipIdx_cons, List.filter_cons] at split
    rw [Libraries.readLines]
    cases hblank : Text.allBlank first with
    | true =>
      simp only [hblank, Bool.not_true, Bool.false_eq_true, ↓reduceIte] at split ⊢
      exact ih split earlier
    | false =>
      simp only [hblank, Bool.not_false, Bool.false_eq_true, ↓reduceIte] at split ⊢
      cases before with
      | nil =>
        obtain ⟨rfl, -⟩ := List.cons.inj split
        simp only [malformed]
      | cons other before =>
        obtain ⟨rfl, hrest⟩ := List.cons.inj split
        obtain ⟨⟨content, hcontent⟩, hearlier⟩ := List.forall_mem_cons.mp earlier
        simp only [hcontent, ih hrest hearlier]
        rfl

/-- If all lines are documents or blank, the documents are loaded in the order of the lines. -/
theorem exists_readDocuments (divided : Text.Lines text.toList lines)
    (h : ∀ line ∈ documentLinesFrom 1 lines,
      ∃ content, libraries.document (String.ofList line.1) = .ok content) :
    ∃ loaded, libraries.readDocuments true path text = .ok loaded ∧
      List.Forall₂ (libraries.ReadsLine path) (documentLinesFrom 1 lines) loaded := by
  have hread : ∀ line ∈ documentLinesFrom 1 lines, ∃ d, libraries.ReadsLine path line d := by
    intro line hline
    obtain ⟨content, hcontent⟩ := h line hline
    exact ⟨⟨_, content⟩, hcontent, rfl⟩
  obtain ⟨loaded, hloaded⟩ := exists_forall₂_of_forall_mem hread
  exact ⟨loaded, readDocuments_eq_ok_iff.mpr (.lines divided hloaded), hloaded⟩

namespace Selection

variable {s : Selection}

/-- What a selection makes of a text under a name. The name is in front of everything that is
made, and makes no other difference. -/
def Makes (s : Selection) (libraries : Libraries) (source : String) (text : List Char)
    (documents : List SourcedDocument) : Prop :=
  ∃ content parts, libraries.document (String.ofList text) = .ok content ∧
    s.Yields libraries content parts ∧ documents = parts.map (.under source)

theorem loads_iff (resolved : Joins (Resolves files) inputs [path])
    (readable : (FileView.readText path : ReaderM σ (Except OsError String)).run files = .ok text) :
    s.Loads libraries files inputs documents ↔
      ∃ loaded, libraries.Reads path text s.byLine loaded ∧
        Joins (s.Selects libraries) loaded documents := by
  constructor
  · rintro ⟨paths, hpaths, hdocuments⟩
    have hresolved := resolveInputs_eq_ok_iff.mpr resolved
    cases hresolved.symm.trans (resolveInputs_eq_ok_iff.mpr hpaths)
    obtain ⟨text', loaded, hreadable, hloaded, hselected⟩ := joins_singleton.mp hdocuments
    cases readable.symm.trans hreadable
    exact ⟨loaded, hloaded, hselected⟩
  · rintro ⟨loaded, hloaded, hselected⟩
    exact ⟨[path], resolved, joins_singleton.mpr ⟨text, loaded, readable, hloaded, hselected⟩⟩

theorem loads_whole_iff (resolved : Joins (Resolves files) inputs [path])
    (readable : (FileView.readText path : ReaderM σ (Except OsError String)).run files = .ok text)
    (whole : s.byLine = false) :
    s.Loads libraries files inputs documents ↔ s.Makes libraries path text.toList documents := by
  rw [loads_iff resolved readable, whole, Makes, String.ofList_toList]
  constructor
  · rintro ⟨_, ⟨hread⟩, hselected⟩
    obtain ⟨parts, hyields, rfl⟩ := joins_singleton.mp hselected
    exact ⟨_, parts, hread, hyields, rfl⟩
  · rintro ⟨content, parts, hread, hyields, rfl⟩
    exact ⟨_, .whole hread, joins_singleton.mpr ⟨parts, hyields, rfl⟩⟩

theorem loads_lines_iff (resolved : Joins (Resolves files) inputs [path])
    (readable : (FileView.readText path : ReaderM σ (Except OsError String)).run files = .ok text)
    (divided : Text.Lines text.toList lines) (byLine : s.byLine = true) :
    s.Loads libraries files inputs documents ↔
      Joins (fun line => s.Makes libraries (path ++ ":" ++ toString line.2) line.1)
        (documentLinesFrom 1 lines) documents := by
  have hmakes : (fun line => s.Makes libraries (path ++ ":" ++ toString line.2) line.1) =
      fun (line : List Char × Nat) here =>
        ∃ d, libraries.ReadsLine path line d ∧ s.Selects libraries d here := by
    funext line here
    refine propext ⟨?_, ?_⟩
    · rintro ⟨content, parts, hcontent, hyields, rfl⟩
      exact ⟨⟨_, content⟩, ⟨hcontent, rfl⟩, parts, hyields, rfl⟩
    · rintro ⟨⟨_, content⟩, ⟨hcontent, rfl⟩, parts, hyields, rfl⟩
      exact ⟨content, parts, hcontent, hyields, rfl⟩
  rw [loads_iff resolved readable, byLine, hmakes]
  constructor
  · rintro ⟨loaded, hloaded, hselected⟩
    cases hloaded with
    | lines divided' read =>
      rw [← Text.lines_eq_of_lines divided, Text.lines_eq_of_lines divided']
      exact joins_of_forall₂ read hselected
  · intro h
    obtain ⟨loaded, hloaded, hselected⟩ := exists_forall₂_of_joins h
    exact ⟨loaded, .lines divided hloaded, hselected⟩

end Selection

/-- Entries that differ in the name of the document alone, which stands behind the verdict. -/
def Renamed (source other : String) : List String → List String → Prop :=
  List.Forall₂ fun entry entry' =>
    ∃ verdict ∈ ["ok", "failed", "\x1b[32mok\x1b[0m", "\x1b[31mfailed\x1b[0m"], ∃ rest,
      entry = verdict ++ " " ++ source ++ rest ∧ entry' = verdict ++ " " ++ other ++ rest

theorem renamed_under (r : Record) (coloured : Bool) (source other : String)
    (parts : List (String × Json)) :
    Renamed source other
      ((parts.map (.under source)).map fun d => Report.line coloured (Verdict.ofDocument r d))
      ((parts.map (.under other)).map fun d => Report.line coloured (Verdict.ofDocument r d)) := by
  rw [Renamed, List.map_map, List.map_map, List.forall₂_map_left_iff, List.forall₂_map_right_iff,
    List.forall₂_same]
  intro part _
  cases hlift : r.lift part.2 with
  | ok v =>
    refine ⟨Colour.green.paint coloured "ok", by cases coloured <;> simp [Colour.paint], part.1, ?_⟩
    simp [Report.line, Verdict.ofDocument, SourcedDocument.under, hlift, String.append_assoc]
  | error f =>
    refine ⟨Colour.red.paint coloured "failed", by cases coloured <;> simp [Colour.paint],
      part.1 ++ ": " ++ f.message, ?_⟩
    simp [Report.line, Verdict.ofDocument, SourcedDocument.under, hlift, String.append_assoc]

namespace CheckCommand

def setByLine (c : CheckCommand) (byLine : Bool) : CheckCommand :=
  { c with selection := { c.selection with byLine := byLine } }

/-- Every line with a document stands alone in a file of its own. -/
def StandAlone (files : σ) (lines : List (List Char)) (single : Nat → String) : Prop :=
  ∀ line ∈ documentLinesFrom 1 lines, Resolves files (single line.2) [single line.2] ∧
    (FileView.readText (single line.2) : ReaderM σ (Except OsError String)).run files =
      .ok (String.ofList line.1)

variable {c : CheckCommand} {r : Record} {single : Nat → String} {line : List Char × Nat}

theorem finds_single_iff (alone : StandAlone files lines single)
    (mem : line ∈ documentLinesFrom 1 lines) :
    (c.setByLine false).Finds libraries files [single line.2] r documents ↔
      c.FindsRecord libraries files r ∧
        c.selection.Makes libraries (single line.2) line.1 documents := by
  obtain ⟨hresolves, hreadable⟩ := alone line mem
  have hloads : (c.setByLine false).selection.Loads libraries files [single line.2] documents ↔
      c.selection.Makes libraries (single line.2) (String.ofList line.1).toList documents :=
    Selection.loads_whole_iff (joins_singleton.mpr hresolves) hreadable rfl
  rw [String.toList_ofList] at hloads
  rw [← hloads]
  exact ⟨fun h => ⟨h.record, h.documents⟩, fun h => ⟨h.1, h.2⟩⟩

theorem finds_lines_iff (resolved : Joins (Resolves files) inputs [path])
    (readable : (FileView.readText path : ReaderM σ (Except OsError String)).run files = .ok text)
    (divided : Text.Lines text.toList lines) :
    (c.setByLine true).Finds libraries files inputs r documents ↔ c.FindsRecord libraries files r ∧
      Joins (fun line => c.selection.Makes libraries (path ++ ":" ++ toString line.2) line.1)
        (documentLinesFrom 1 lines) documents := by
  have hloads : (c.setByLine true).selection.Loads libraries files inputs documents ↔
      Joins (fun line => c.selection.Makes libraries (path ++ ":" ++ toString line.2) line.1)
        (documentLinesFrom 1 lines) documents :=
    Selection.loads_lines_iff resolved readable divided rfl
  rw [← hloads]
  exact ⟨fun h => ⟨h.record, h.documents⟩, fun h => ⟨h.1, h.2⟩⟩

theorem forall₂_readsLine (plain : c.selection.pointer = none ∧ c.selection.filter = none)
    (h : Joins (fun line => c.selection.Makes libraries (path ++ ":" ++ toString line.2) line.1)
      (documentLinesFrom 1 lines) documents) :
    List.Forall₂ (libraries.ReadsLine path) (documentLinesFrom 1 lines) documents := by
  generalize documentLinesFrom 1 lines = numbered at h
  induction h with
  | nil => exact .nil
  | cons head _ ih =>
    obtain ⟨content, parts, hcontent, ⟨picked, hpicks, hfilters⟩, rfl⟩ := head
    rw [plain.1] at hpicks
    rw [plain.2] at hfilters
    cases hpicks
    cases hfilters
    exact .cons ⟨hcontent, by simp [SourcedDocument.under]⟩ ih

theorem run_loadDocuments_malformed {env : Setup} {s : Selection} {f : Failure}
    (resolved : Joins (Resolves files) inputs [path])
    (readable : (FileView.readText path : ReaderM σ (Except OsError String)).run files = .ok text)
    (malformed : env.libraries.readDocuments s.byLine path text = .error f) :
    (loadDocuments (m := ReaderM σ) env s inputs).run files = .error f := by
  have hfile : (loadFile (m := ReaderM σ) env s path).run files = .error f := by
    rw [loadFile, run_reader_bind_of_ok (run_lift_eq_ok.mpr readable)]
    exact run_reader_bind_of_error malformed
  have hfiles : (loadFiles (m := ReaderM σ) env s [path]).run files = .error f :=
    run_reader_bind_of_error hfile
  rw [loadDocuments, run_reader_bind_of_ok (resolveInputs_eq_ok_iff.mpr resolved)]
  exact run_reader_bind_of_error hfiles

/-- The record is found before a line is read. -/
theorem report_malformed {env : Setup} {f : Failure} (resolved : Joins (Resolves files) c.inputs [path])
    (readable : (FileView.readText path : ReaderM σ (Except OsError String)).run files = .ok text)
    (record : c.FindsRecord env.libraries files r)
    (malformed : env.libraries.readDocuments c.selection.byLine path text = .error f) :
    (c.report (m := ReaderM σ) env).run files = .error f := by
  obtain ⟨s, hload, hrecord⟩ := record
  have hfound : (ExceptT.mk (pure (findRecord s c.record)) : Attempt (ReaderM σ) Record).run files =
      .ok r := by
    rw [findRecord, hrecord]
    rfl
  rw [report, run_reader_bind_of_ok (loadSchema_eq_ok_iff.mpr hload), run_reader_bind_of_ok hfound]
  exact run_reader_bind_of_error (run_loadDocuments_malformed resolved readable malformed)

variable [FileStore (StateM σ)] [StillView σ] {env : Setup} {s : Session σ}

/-- What a line gives: what the check of the file gives in which the line stands alone, with the
name of the line in place of the name of that file. -/
def LineGives (c : CheckCommand) (env : Setup) (s : Session σ) (path : String)
    (single : Nat → String) (r : Record) (line : List Char × Nat)
    (reported : List (SourcedDocument × String)) : Prop :=
  ∃ (parts : List (String × Json)) (alone : List String) (success : Bool),
    (c.setByLine false).Checks env [single line.2] s r (parts.map (.under (single line.2))) alone
      success ∧
    reported.map Prod.fst = parts.map (.under (path ++ ":" ++ toString line.2)) ∧
    Renamed (single line.2) (path ++ ":" ++ toString line.2) alone (reported.map Prod.snd)

/-- Both ways of checking come to an end together. -/
theorem completes_lines_iff (resolved : Joins (Resolves s.files) inputs [path])
    (readable : (FileView.readText path : ReaderM σ (Except OsError String)).run s.files = .ok text)
    (divided : Text.Lines text.toList lines) (alone : StandAlone s.files lines single) :
    (∃ success, ((c.setByLine true).run env inputs s).1 = .ok success) ↔
      (∃ r, c.FindsRecord env.libraries s.files r) ∧ ∀ line ∈ documentLinesFrom 1 lines,
        ∃ success, ((c.setByLine false).run env [single line.2] s).1 = .ok success := by
  simp only [completes_iff, finds_lines_iff resolved readable divided]
  constructor
  · rintro ⟨r, documents, hrecord, hjoined⟩
    refine ⟨⟨r, hrecord⟩, fun line hline => ?_⟩
    obtain ⟨_, content, parts, hcontent, hyields, -⟩ := hjoined.exists_of_mem hline
    exact ⟨r, _, (finds_single_iff alone hline).mpr
      ⟨hrecord, content, parts, hcontent, hyields, rfl⟩⟩
  · rintro ⟨⟨r, hrecord⟩, hsingle⟩
    have hmakes : ∀ line ∈ documentLinesFrom 1 lines, ∃ here,
        c.selection.Makes env.libraries (path ++ ":" ++ toString line.2) line.1 here := by
      intro line hline
      obtain ⟨_, documents, hfinds⟩ := hsingle line hline
      obtain ⟨-, content, parts, hcontent, hyields, -⟩ := (finds_single_iff alone hline).mp hfinds
      exact ⟨_, content, parts, hcontent, hyields, rfl⟩
    obtain ⟨documents, hdocuments⟩ := exists_joins hmakes
    exact ⟨r, documents, hrecord, hdocuments⟩

theorem exists_reported {entries : List String} {success : Bool}
    (resolved : Joins (Resolves s.files) inputs [path])
    (readable : (FileView.readText path : ReaderM σ (Except OsError String)).run s.files = .ok text)
    (divided : Text.Lines text.toList lines) (alone : StandAlone s.files lines single)
    (h : (c.setByLine true).Checks env inputs s r documents entries success) :
    ∃ reported, Joins (c.LineGives env s path single r) (documentLinesFrom 1 lines) reported ∧
      documents = reported.map Prod.fst ∧ entries = reported.map Prod.snd := by
  obtain ⟨hrecord, hjoined⟩ := (finds_lines_iff resolved readable divided).mp h.finds
  let entry (d : SourcedDocument) := Report.line env.coloured (Verdict.ofDocument r d)
  have hfst : ∀ ds : List SourcedDocument, (ds.map fun d => (d, entry d)).map Prod.fst = ds := by
    intro ds
    rw [List.map_map]
    exact List.map_id _
  have hsnd : ∀ ds : List SourcedDocument,
      (ds.map fun d => (d, entry d)).map Prod.snd = ds.map entry := by simp
  refine ⟨documents.map fun d => (d, entry d), hjoined.map _ ?_, (hfst documents).symm, ?_⟩
  · rintro line hline _ ⟨content, parts, hcontent, hyields, rfl⟩
    have hsingle := checks_of_finds env ((finds_single_iff alone hline).mpr
      ⟨hrecord, content, parts, hcontent, hyields, rfl⟩)
    refine ⟨parts, _, _, hsingle, hfst _, ?_⟩
    rw [hsnd]
    exact renamed_under r env.coloured _ _ parts
  · rw [hsnd, Report.forall₂_entry_iff.mp h.reported]

/-- Without a report nothing is printed or written. -/
theorem run_perform_of_error {command : Command} {f : Failure}
    (h : (command.outcome (m := ReaderM σ) env).run s.files = .error f) :
    ((command.perform (m := StateM (Session σ)) env).run.run s).1 = .error f ∧
      ((command.perform (m := StateM (Session σ)) env).run.run s).2.files = s.files ∧
      ((command.perform (m := StateM (Session σ)) env).run.run s).2.output = s.output := by
  obtain ⟨events, -, hrun⟩ := run_perform env command s
  rw [h] at hrun
  rw [hrun]
  exact ⟨rfl, rfl, rfl⟩

/-- Whatever the lines of a file are: if they are documents or blank, each document is loaded
under the number of its line. The check of the file comes to what the checks of files with
single lines come to, if the record is found. A line that is neither ends the check, and if the
record is found it is the first such line that is reported. -/
theorem check_lines (env : Setup) (c : CheckCommand) (s : Session σ) {inputs : List String}
    {path text : String} {lines : List (List Char)}
    (resolved : Joins (Resolves s.files) inputs [path])
    (readable : (FileView.readText path : ReaderM σ (Except OsError String)).run s.files = .ok text)
    (divided : Text.Lines text.toList lines) :
    ((∀ line ∈ documentLinesFrom 1 lines,
        ∃ content, env.libraries.document (String.ofList line.1) = .ok content) →
      ∃ loaded, env.libraries.readDocuments true path text = .ok loaded ∧
        List.Forall₂ (env.libraries.ReadsLine path) (documentLinesFrom 1 lines) loaded) ∧
    (c.selection.pointer = none ∧ c.selection.filter = none →
      ∀ r documents entries success,
        (c.setByLine true).Checks env inputs s r documents entries success →
          List.Forall₂ (env.libraries.ReadsLine path) (documentLinesFrom 1 lines) documents) ∧
    (∀ single : Nat → String, StandAlone s.files lines single →
      ((∃ success, ((c.setByLine true).run env inputs s).1 = .ok success) ↔
        (∃ r, c.FindsRecord env.libraries s.files r) ∧ ∀ line ∈ documentLinesFrom 1 lines,
          ∃ success, ((c.setByLine false).run env [single line.2] s).1 = .ok success) ∧
      (documentLinesFrom 1 lines ≠ [] →
        ((∃ success, ((c.setByLine true).run env inputs s).1 = .ok success) ↔
          ∀ line ∈ documentLinesFrom 1 lines,
            ∃ success, ((c.setByLine false).run env [single line.2] s).1 = .ok success)) ∧
      ∀ success, ((c.setByLine true).run env inputs s).1 = .ok success → ∃ r reported,
        (c.setByLine true).Checks env inputs s r (reported.map Prod.fst) (reported.map Prod.snd)
          success ∧
        Joins (c.LineGives env s path single r) (documentLinesFrom 1 lines) reported) ∧
    ((∃ line ∈ documentLinesFrom 1 lines,
        ∀ content, env.libraries.document (String.ofList line.1) ≠ .ok content) →
      ∃ before line after cause, documentLinesFrom 1 lines = before ++ line :: after ∧
        (∀ earlier ∈ before,
          ∃ content, env.libraries.document (String.ofList earlier.1) = .ok content) ∧
        env.libraries.document (String.ofList line.1) = .error cause ∧
        (Failure.malformedLine path line.2 cause).message = "failed to parse JSON line " ++
          toString line.2 ++ " of " ++ path ++ ": " ++ cause ∧
        ∀ out, let ended := ((Command.check { c.setByLine true with inputs := inputs, out := out }).perform
            (m := StateM (Session σ)) env).run.run s
          (∃ f, ended.1 = .error f) ∧
            (∀ r, c.FindsRecord env.libraries s.files r →
              ended.1 = .error (.malformedLine path line.2 cause)) ∧
            ended.2.files = s.files ∧ ended.2.output = s.output) := by
  refine ⟨exists_readDocuments divided, fun plain r documents entries success h => ?_,
    fun single alone => ?_, fun hmalformed => ?_⟩
  · exact forall₂_readsLine plain ((finds_lines_iff resolved readable divided).mp h.finds).2
  · refine ⟨completes_lines_iff resolved readable divided alone, fun hne => ?_,
      fun success hsuccess => ?_⟩
    · rw [completes_lines_iff resolved readable divided alone, and_iff_right_iff_imp]
      intro hsingle
      obtain ⟨line, hline⟩ := List.exists_mem_of_ne_nil _ hne
      obtain ⟨r, _, hfinds⟩ := completes_iff.mp (hsingle line hline)
      exact ⟨r, hfinds.record⟩
    · obtain ⟨r, documents, entries, hchecks⟩ := exists_checks hsuccess
      obtain ⟨reported, hjoined, rfl, rfl⟩ :=
        exists_reported resolved readable divided alone hchecks
      exact ⟨r, reported, hchecks, hjoined⟩
  · obtain ⟨before, line, after, cause, hsplit, hbefore, hline⟩ := exists_first_error hmalformed
    refine ⟨before, line, after, cause, hsplit, hbefore, hline, rfl, fun out => ?_⟩
    have hread : env.libraries.readDocuments true path text =
        .error (.malformedLine path line.2 cause) := by
      rw [Libraries.readDocuments, if_pos rfl, Text.lines_eq_of_lines divided]
      exact readLines_malformed hsplit hbefore hline
    have hrecord : ∀ r, c.FindsRecord env.libraries s.files r →
        ((Command.check { c.setByLine true with inputs := inputs, out := out }).outcome
          (m := ReaderM σ) env).run s.files = .error (.malformedLine path line.2 cause) :=
      fun r h => run_reader_bind_of_error (report_malformed resolved readable h hread)
    -- With a result there would be a record, and then there is none.
    cases houtcome : ((Command.check { c.setByLine true with inputs := inputs, out := out }).outcome
        (m := ReaderM σ) env).run s.files with
    | ok o =>
      obtain ⟨r, _, hfinds, -⟩ := outcome_check_eq_ok_iff.mp houtcome
      cases houtcome.symm.trans (hrecord r hfinds.record)
    | error f =>
      obtain ⟨hended, hfiles, houtput⟩ := run_perform_of_error houtcome
      refine ⟨⟨f, hended⟩, fun r h => ?_, hfiles, houtput⟩
      cases houtcome.symm.trans (hrecord r h)
      exact hended

/-- The two documents of the team on lines of one file, with a blank line between them, and a
file with a line that is no document. -/
def teamLines : FileTree :=
  ⟨(["teams.ndjson"], .file (some "\x7b\"members\":[]\x7d\r\n \n[]\n")) ::
    (["broken.ndjson"], .file (some "[]\n\nx")) :: teamFiles.nodes⟩

def teamSingle (number : Nat) : String :=
  if number = 1 then "a.json" else "b.json"

def teamLineTexts : List (List Char) :=
  ["\x7b\"members\":[]\x7d".toList, [' '], ['[', ']']]

theorem documentLinesFrom_team : documentLinesFrom 1 teamLineTexts =
    [("\x7b\"members\":[]\x7d".toList, 1), (['[', ']'], 3)] :=
  rfl

theorem document_of_compact {text : List Char} {j : Json} (htext : String.ofList text = j.compact)
    (hplain : Json.Plain Json.depthLimit j) : tools.document (String.ofList text) = .ok j := by
  rw [htext]
  exact Json.parse_compact hplain

theorem document_team : tools.document (String.ofList "\x7b\"members\":[]\x7d".toList) =
    .ok (.object [("members", .array [])]) :=
  document_of_compact rfl (by simp [Json.depthLimit, Keyed.Unique])

theorem document_list : tools.document (String.ofList ['[', ']']) = .ok (.array []) :=
  document_of_compact rfl (by simp [Json.depthLimit])

theorem document_letter (content : Json) : tools.document (String.ofList ['x']) ≠ .ok content := by
  obtain ⟨f, hf⟩ : ∃ f, Json.read ['x'] = .error f := by
    rw [Json.read, Json.readValue]
    exact ⟨_, rfl⟩
  have hparse : tools.document (String.ofList ['x']) = .error (f.message ['x']) := by
    change (Json.read (String.ofList ['x']).toList).mapError _ = _
    rw [String.toList_ofList, hf]
    rfl
  simp [hparse]

theorem resolved_path {tree : FileTree} {path : String} (h : isPattern path = false) :
    Joins (Resolves tree) [path] [path] :=
  joins_singleton.mpr (.path (notPattern_of_eq_false h))

theorem standAlone_team : StandAlone teamLines teamLineTexts teamSingle := by
  intro line hline
  rw [documentLinesFrom_team] at hline
  rcases List.mem_pair.mp hline with rfl | rfl
  · exact ⟨.path (notPattern_of_eq_false (by decide)), rfl⟩
  · exact ⟨.path (notPattern_of_eq_false (by decide)), rfl⟩

theorem eq_of_readsLine_team {path : String} {documents : List SourcedDocument}
    (h : List.Forall₂ (tools.ReadsLine path) (documentLinesFrom 1 teamLineTexts) documents) :
    documents = [⟨path ++ ":1", .object [("members", .array [])]⟩, ⟨path ++ ":3", .array []⟩] := by
  rw [documentLinesFrom_team] at h
  obtain _ | ⟨⟨hfirst, hfirstSource⟩, _ | ⟨⟨hsecond, hsecondSource⟩, _ | _⟩⟩ := h
  have hcontent := Except.ok.inj (hfirst.symm.trans document_team)
  have hcontent' := Except.ok.inj (hsecond.symm.trans document_list)
  rw [String.append_assoc] at hfirstSource hsecondSource
  rw [List.cons.injEq, List.cons.injEq, SourcedDocument.mk.injEq, SourcedDocument.mk.injEq]
  exact ⟨⟨hfirstSource, hcontent⟩, ⟨hsecondSource, hcontent'⟩, rfl⟩

theorem findsRecord_team : teamCheck.FindsRecord tools teamLines Record.team :=
  ⟨_, loadsSchema_team rfl, rfl⟩

theorem completes_single_team : ∀ line ∈ documentLinesFrom 1 teamLineTexts, ∃ success,
    ((teamCheck.setByLine false).run ⟨tools, false, false⟩ [teamSingle line.2]
      (.start teamLines)).1 = .ok success := by
  intro line hline
  obtain ⟨content, hcontent⟩ : ∃ content, tools.document (String.ofList line.1) = .ok content := by
    rw [documentLinesFrom_team] at hline
    rcases List.mem_pair.mp hline with rfl | rfl
    · exact ⟨_, document_team⟩
    · exact ⟨_, document_list⟩
  exact completes_iff.mpr ⟨Record.team, _, (finds_single_iff standAlone_team hline).mpr
    ⟨findsRecord_team, content, _, hcontent, ⟨content, .whole, .none⟩, rfl⟩⟩

/-- The two documents have the names of their lines, and the third line of the other file ends
its check. -/
theorem check_lines_team :
    (((teamCheck.setByLine true).run ⟨tools, false, false⟩ ["teams.ndjson"] (.start teamLines)).1 =
        .ok false ∧
      ((teamCheck.setByLine true).run ⟨tools, false, false⟩ ["teams.ndjson"]
        (.start teamLines)).2.output =
          "ok teams.ndjson:1\nfailed teams.ndjson:3: " ++ teamRefusal ++ "\n1 passed, 1 failed\n") ∧
    ∃ cause, ((teamCheck.setByLine true).run ⟨tools, false, false⟩ ["broken.ndjson"]
        (.start teamLines)).1 = .error (.malformedLine "broken.ndjson" 3 cause) ∧
      ((teamCheck.setByLine true).run ⟨tools, false, false⟩ ["broken.ndjson"]
        (.start teamLines)).2.output = "" := by
  constructor
  · have hteams : isPattern "teams.ndjson" = false := by decide
    have hdivided : Text.Lines "\x7b\"members\":[]\x7d\r\n \n[]\n".toList teamLineTexts :=
      Text.lines_eq_iff.mp rfl
    obtain ⟨-, hplain, hsingles, -⟩ := check_lines ⟨tools, false, false⟩ teamCheck
      (.start teamLines) (resolved_path hteams) rfl hdivided
    obtain ⟨hiff, -, hreports⟩ := hsingles teamSingle standAlone_team
    obtain ⟨success, hsuccess⟩ := hiff.mpr ⟨⟨_, findsRecord_team⟩, completes_single_team⟩
    obtain ⟨r, reported, hchecks, -⟩ := hreports success hsuccess
    cases hchecks.finds.record.eq findsRecord_team
    have hdocuments := eq_of_readsLine_team (hplain ⟨rfl, rfl⟩ _ _ _ _ hchecks)
    rw [hdocuments] at hchecks
    have hfailed : ¬success = true := by
      rw [hchecks.success_iff]
      cbv
    rw [Bool.not_eq_true] at hfailed
    subst hfailed
    refine ⟨hsuccess, ?_⟩
    rw [hchecks.printed, Report.forall₂_entry_iff.mp hchecks.reported]
    cbv
  · have hbroken : isPattern "broken.ndjson" = false := by decide
    have hdivided : Text.Lines "[]\n\nx".toList [['[', ']'], [], ['x']] :=
      Text.lines_eq_iff.mp rfl
    obtain ⟨-, -, -, hmalformed⟩ := check_lines ⟨tools, false, false⟩ teamCheck
      (.start teamLines) (resolved_path hbroken) rfl hdivided
    obtain ⟨before, line, after, cause, hsplit, -, hline, -, hperform⟩ :=
      hmalformed ⟨(['x'], 3), by decide, document_letter⟩
    have hlines : documentLinesFrom 1 [['[', ']'], [], ['x']] = [(['[', ']'], 1), (['x'], 3)] := rfl
    rw [hlines] at hsplit
    rcases before with _ | ⟨first, _ | ⟨second, rest⟩⟩
    · obtain ⟨rfl, -⟩ := List.cons.inj hsplit
      cases hline.symm.trans document_list
    · obtain ⟨-, hrest⟩ := List.cons.inj hsplit
      obtain ⟨rfl, -⟩ := List.cons.inj hrest
      obtain ⟨-, hrecord, -, houtput⟩ := hperform none
      have hended := hrecord Record.team findsRecord_team
      rw [run]
      dsimp only [Session.start] at hended houtput ⊢
      exact ⟨cause, hended, houtput⟩
    · simp at hsplit

/-- A file of blank lines and a file with a line that is no document, without the schema. -/
def lostLines : FileTree :=
  ⟨[(["blank.ndjson"], .file (some "\n \n")), (["broken.ndjson"], .file (some "x"))]⟩

theorem run_lost (inputs : List String) : ((teamCheck.setByLine true).run ⟨tools, false, false⟩ inputs
    (.start lostLines)).1 = .error (.unreadableSchema "schema.json" .notFound) := by
  have hschema : (loadSchema (m := ReaderM FileTree) ⟨tools, false, false⟩ "schema.json").run
      lostLines = .error (.unreadableSchema "schema.json" .notFound) := rfl
  have houtcome : ((Command.check { teamCheck.setByLine true with inputs := inputs, out := none }).outcome
      (m := ReaderM FileTree) ⟨tools, false, false⟩).run lostLines =
        .error (.unreadableSchema "schema.json" .notFound) :=
    run_reader_bind_of_error (run_reader_bind_of_error hschema)
  exact (run_perform_of_error (s := .start lostLines) houtcome).1

/-- The blank lines come to no checks at all, so all of these complete. The check of the file
does not, and neither does it come to the line that is no document. -/
theorem blank_lines_need_record :
    (lostLines.readText "blank.ndjson" = .ok "\n \n" ∧
      Text.Lines "\n \n".toList [[], [' ']] ∧ StandAlone lostLines [[], [' ']] teamSingle ∧
      ¬((∃ success, ((teamCheck.setByLine true).run ⟨tools, false, false⟩ ["blank.ndjson"]
          (.start lostLines)).1 = .ok success) ↔
        ∀ line ∈ documentLinesFrom 1 [[], [' ']], ∃ success,
          ((teamCheck.setByLine false).run ⟨tools, false, false⟩ [teamSingle line.2]
            (.start lostLines)).1 = .ok success)) ∧
    lostLines.readText "broken.ndjson" = .ok "x" ∧ Text.Lines "x".toList [['x']] ∧
      (['x'], 1) ∈ documentLinesFrom 1 [['x']] ∧
      (∀ content, tools.document (String.ofList ['x']) ≠ .ok content) ∧
      ∀ number cause, ((teamCheck.setByLine true).run ⟨tools, false, false⟩ ["broken.ndjson"]
        (.start lostLines)).1 ≠ .error (.malformedLine "broken.ndjson" number cause) := by
  have hblank : documentLinesFrom 1 [[], [' ']] = [] := rfl
  refine ⟨⟨rfl, Text.lines_eq_iff.mp rfl, ?_, ?_⟩, rfl, Text.lines_eq_iff.mp rfl, by decide,
    document_letter, ?_⟩
  · rw [StandAlone, hblank]
    exact List.forall_mem_nil _
  · rw [hblank, run_lost]
    simp
  · simp [run_lost]

end CheckCommand
end CommandLine
end TaggedData
