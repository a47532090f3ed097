import TaggedData.CommandLine.Run
import TaggedData.Proofs.FileSystems
import TaggedData.Proofs.Inputs
import TaggedData.Proofs.Loading

/-!
# Checks on several inputs

A check on some inputs and then others is the two checks one after the other: it completes
if both do, it finds the documents of the first before those of the second, and its report
has the entries of both reports and counts them together. Files are looked at and never
changed, so it makes no difference when that happens.
-/

namespace TaggedData
namespace CommandLine

variable {σ : Type}

/-- How many documents are values of the record. -/
def passed (r : Record) (documents : List SourcedDocument) : Nat :=
  documents.countP fun d => (r.lift d.content).isOk

def failed (r : Record) (documents : List SourcedDocument) : Nat :=
  documents.countP fun d => !(r.lift d.content).isOk

/-- What a report says of a document. -/
inductive Entry (r : Record) (coloured : Bool) (d : SourcedDocument) : String → Prop
  | passed {v : Value} (lifted : r.lift d.content = .ok v) :
      Entry r coloured d ((if coloured then "\x1b[32mok\x1b[0m" else "ok") ++ " " ++ d.source)
  | failed {f : Fault} (refused : r.lift d.content = .error f) :
      Entry r coloured d ((if coloured then "\x1b[31mfailed\x1b[0m" else "failed") ++ " " ++
        d.source ++ ": " ++ f.message)

/-- The entries of a report, and its last line with the two counts. It is green if no document
failed, and else red. -/
def reportText (coloured : Bool) (entries : List String) (passed failed : Nat) : String :=
  let counts := toString passed ++ " passed, " ++ toString failed ++ " failed"
  "\n".intercalate (entries ++
    [if coloured then
      (if failed = 0 then "\x1b[32m" else "\x1b[31m") ++ counts ++ "\x1b[0m"
    else counts])

namespace Report

variable {r : Record} {coloured : Bool} {d : SourcedDocument} {documents : List SourcedDocument}

theorem entry_iff {text : String} :
    Entry r coloured d text ↔ text = line coloured (Verdict.ofDocument r d) := by
  constructor
  · rintro (hlift | hlift) <;> cases coloured <;>
      simp [line, Verdict.ofDocument, hlift, Colour.paint]
  · rintro rfl
    cases hlift : r.lift d.content with
    | ok v =>
      have h : Entry r coloured d _ := .passed hlift
      cases coloured <;> simpa [line, Verdict.ofDocument, hlift, Colour.paint] using h
    | error f =>
      have h : Entry r coloured d _ := .failed hlift
      cases coloured <;> simpa [line, Verdict.ofDocument, hlift, Colour.paint] using h

theorem forall₂_entry_iff {entries : List String} :
    List.Forall₂ (Entry r coloured) documents entries ↔
      entries = documents.map fun d => line coloured (Verdict.ofDocument r d) := by
  induction documents generalizing entries with
  | nil => simp
  | cons d rest ih => simp [List.forall₂_cons_left_iff, entry_iff, ih]

theorem failed_map : failed (documents.map (Verdict.ofDocument r)) = CommandLine.failed r documents :=
  List.countP_map

theorem isSuccess_map :
    isSuccess (documents.map (Verdict.ofDocument r)) = decide (CommandLine.failed r documents = 0) := by
  rw [isSuccess, failed_map]
  rfl

theorem text_map : text coloured (documents.map (Verdict.ofDocument r)) =
    reportText coloured (documents.map fun d => line coloured (Verdict.ofDocument r d))
      (CommandLine.passed r documents) (CommandLine.failed r documents) := by
  have hpassed : passed (documents.map (Verdict.ofDocument r)) = CommandLine.passed r documents :=
    List.countP_map
  rw [text, summary, isSuccess_map, hpassed, failed_map, reportText, List.map_map]
  cases coloured <;> by_cases hfailed : CommandLine.failed r documents = 0 <;>
    simp [hfailed, Colour.paint, Function.comp_def]

end Report

theorem passed_append (r : Record) (documents others : List SourcedDocument) :
    passed r (documents ++ others) = passed r documents + passed r others :=
  List.countP_append

theorem failed_append (r : Record) (documents others : List SourcedDocument) :
    failed r (documents ++ others) = failed r documents + failed r others :=
  List.countP_append

theorem passed_add_failed (r : Record) (documents : List SourcedDocument) :
    passed r documents + failed r documents = documents.length := by
  rw [passed, failed, List.length_eq_countP_add_countP fun d => (r.lift d.content).isOk]
  simp

variable [FileView (ReaderM σ)] {files : σ} {env : Setup}

theorem Selection.loads_append {s : Selection} {libraries : Libraries} {inputs others : List String}
    {documents : List SourcedDocument} : s.Loads libraries files (inputs ++ others) documents ↔
      ∃ left right, s.Loads libraries files inputs left ∧ s.Loads libraries files others right ∧
        documents = left ++ right := by
  constructor
  · rintro ⟨_, hresolved, hdocuments⟩
    obtain ⟨paths, paths', hpaths, hpaths', rfl⟩ := joins_append.mp hresolved
    obtain ⟨left, right, hleft, hright, rfl⟩ := joins_append.mp hdocuments
    exact ⟨left, right, ⟨paths, hpaths, hleft⟩, ⟨paths', hpaths', hright⟩, rfl⟩
  · rintro ⟨left, right, ⟨paths, hpaths, hleft⟩, ⟨paths', hpaths', hright⟩, rfl⟩
    exact ⟨paths ++ paths', joins_append.mpr ⟨paths, paths', hpaths, hpaths', rfl⟩,
      joins_append.mpr ⟨left, right, hleft, hright, rfl⟩⟩

def LoadsSchema (libraries : Libraries) (files : σ) (path : String) (s : Schema) : Prop :=
  ∃ text, (FileView.readText path : ReaderM σ (Except OsError String)).run files = .ok text ∧
    Schema.load libraries.schema 0 text = .ok s

theorem loadSchema_eq_ok_iff {path : String} {s : Schema} :
    (loadSchema (m := ReaderM σ) env path).run files = .ok s ↔
      LoadsSchema env.libraries files path s := by
  simp only [loadSchema, run_bind_eq_ok, run_lift_eq_ok, LoadsSchema]
  constructor
  · rintro ⟨_ | text, htext, h⟩
    · cases h
    · dsimp only at h
      rw [run_logAll_bind] at h
      split at h
      · cases h
      · cases h
        exact ⟨text, htext, ‹_›⟩
  · rintro ⟨text, htext, hload⟩
    refine ⟨.ok text, htext, ?_⟩
    dsimp only
    rw [run_logAll_bind, hload]
    rfl

namespace CheckCommand

def FindsRecord (c : CheckCommand) (libraries : Libraries) (files : σ) (r : Record) : Prop :=
  ∃ s, LoadsSchema libraries files c.schema s ∧ s.record? c.record = some r

/-- What a check finds: the record, and the documents of the inputs. -/
structure Finds (c : CheckCommand) (libraries : Libraries) (files : σ) (inputs : List String)
    (r : Record) (documents : List SourcedDocument) : Prop where
  record : c.FindsRecord libraries files r
  documents : c.selection.Loads libraries files inputs documents

variable {c : CheckCommand} {inputs others : List String} {r r' : Record}
  {documents : List SourcedDocument}

theorem FindsRecord.eq {libraries : Libraries} (h : c.FindsRecord libraries files r)
    (h' : c.FindsRecord libraries files r') : r = r' := by
  obtain ⟨s, ⟨text, htext, hload⟩, hrecord⟩ := h
  obtain ⟨s', ⟨text', htext', hload'⟩, hrecord'⟩ := h'
  cases htext.symm.trans htext'
  cases hload.symm.trans hload'
  exact Option.some.inj (hrecord.symm.trans hrecord')

/-- The files decide which documents are found. -/
theorem Finds.documents_eq {libraries : Libraries} {documents' : List SourcedDocument}
    (h : c.Finds libraries files inputs r documents)
    (h' : c.Finds libraries files inputs r' documents') : documents = documents' := by
  have hload : (loadDocuments (m := ReaderM σ) ⟨libraries, false, false⟩ c.selection inputs).run
      files = .ok documents := loadDocuments_eq_ok_iff.mpr h.documents
  exact Except.ok.inj (hload.symm.trans (loadDocuments_eq_ok_iff.mpr h'.documents))

theorem finds_append {libraries : Libraries} : c.Finds libraries files (inputs ++ others) r documents ↔
    ∃ left right, c.Finds libraries files inputs r left ∧ c.Finds libraries files others r right ∧
      documents = left ++ right := by
  constructor
  · intro h
    obtain ⟨left, right, hleft, hright, rfl⟩ := Selection.loads_append.mp h.documents
    exact ⟨left, right, ⟨h.record, hleft⟩, ⟨h.record, hright⟩, rfl⟩
  · rintro ⟨left, right, hleft, hright, rfl⟩
    exact ⟨hleft.record, Selection.loads_append.mpr ⟨left, right, hleft.documents,
      hright.documents, rfl⟩⟩

theorem report_eq_ok_iff {report : Report} :
    (c.report (m := ReaderM σ) env).run files = .ok report ↔ ∃ r documents,
      c.Finds env.libraries files c.inputs r documents ∧
        report = documents.map (Verdict.ofDocument r) := by
  have hfind : ∀ (s : Schema) r, findRecord s c.record = .ok r ↔ s.record? c.record = some r := by
    intro s r
    unfold findRecord
    cases s.record? c.record <;> simp
  simp only [CheckCommand.report, run_bind_eq_ok, run_pure_eq_ok, run_mk_eq_ok, hfind,
    loadSchema_eq_ok_iff, loadDocuments_eq_ok_iff]
  constructor
  · rintro ⟨s, hload, r, hrecord, documents, hdocuments, rfl⟩
    exact ⟨r, documents, ⟨⟨s, hload, hrecord⟩, hdocuments⟩, rfl⟩
  · rintro ⟨r, documents, ⟨⟨s, hload, hrecord⟩, hdocuments⟩, rfl⟩
    exact ⟨s, hload, r, hrecord, documents, hdocuments, rfl⟩

end CheckCommand

theorem outcome_check_eq_ok_iff {c : CheckCommand} {o : Outcome} :
    ((Command.check c).outcome (m := ReaderM σ) env).run files = .ok o ↔ ∃ r documents,
      c.Finds env.libraries files c.inputs r documents ∧
      o = ⟨Report.text (env.coloured && c.out.isNone) (documents.map (Verdict.ofDocument r)), c.out,
        decide (failed r documents = 0)⟩ := by
  simp only [Command.outcome, run_bind_eq_ok, run_pure_eq_ok, run_logAll_bind,
    CheckCommand.report_eq_ok_iff]
  constructor
  · rintro ⟨_, ⟨r, documents, hfinds, rfl⟩, rfl⟩
    exact ⟨r, documents, hfinds, by rw [Report.isSuccess_map]⟩
  · rintro ⟨r, documents, hfinds, rfl⟩
    exact ⟨_, ⟨r, documents, hfinds, rfl⟩, by rw [Report.isSuccess_map]⟩

variable [FileStore (StateM σ)]

namespace CheckCommand

def run (c : CheckCommand) (env : Setup) (inputs : List String) (s : Session σ) :
    Except Failure Bool × Session σ :=
  ((Command.check { c with inputs := inputs, out := none }).perform (m := StateM (Session σ))
    env).run.run s

/-- A check that completes: what it found, the entries of its report, and whether it was
successful. It printed the report and left the files as they were. -/
structure Checks (c : CheckCommand) (env : Setup) (inputs : List String) (s : Session σ) (r : Record)
    (documents : List SourcedDocument) (entries : List String) (success : Bool) : Prop where
  finds : c.Finds env.libraries s.files inputs r documents
  reported : List.Forall₂ (Entry r env.coloured) documents entries
  completed : (c.run env inputs s).1 = .ok success
  success_iff : success = true ↔ failed r documents = 0
  printed : (c.run env inputs s).2.output = s.output ++
    reportText env.coloured entries (passed r documents) (failed r documents) ++ "\n"
  files : (c.run env inputs s).2.files = s.files

variable [StillView σ] {c : CheckCommand} {inputs others : List String} {s : Session σ} {r : Record}
  {documents : List SourcedDocument}

theorem checks_of_finds (env : Setup) (h : c.Finds env.libraries s.files inputs r documents) :
    c.Checks env inputs s r documents
      (documents.map fun d => Report.line env.coloured (Verdict.ofDocument r d))
      (decide (failed r documents = 0)) := by
  have hfinds : { c with inputs := inputs, out := none }.Finds env.libraries s.files inputs r
      documents := ⟨h.record, h.documents⟩
  have houtcome := outcome_check_eq_ok_iff.mpr ⟨r, documents, hfinds, rfl⟩
  obtain ⟨events, -, hrun⟩ := run_perform env
    (.check { c with inputs := inputs, out := none }) s
  rw [houtcome] at hrun
  refine ⟨h, Report.forall₂_entry_iff.mpr rfl, ?_, decide_eq_true_iff, ?_, ?_⟩
  · rw [run, hrun]
    rfl
  · rw [run, hrun, ← Report.text_map, String.append_assoc]
    have hcoloured : (env.coloured && (none : Option String).isNone) = env.coloured :=
      Bool.and_true _
    simp only [hcoloured]
    rfl
  · rw [run, hrun]
    rfl

theorem completes_iff : (∃ success, (c.run env inputs s).1 = .ok success) ↔
    ∃ r documents, c.Finds env.libraries s.files inputs r documents := by
  constructor
  · rintro ⟨success, hsuccess⟩
    obtain ⟨events, -, hrun⟩ := run_perform env
      (.check { c with inputs := inputs, out := none }) s
    cases houtcome : ((Command.check { c with inputs := inputs, out := none }).outcome
      (m := ReaderM σ) env).run s.files with
    | error f =>
      rw [run, hrun, houtcome] at hsuccess
      cases hsuccess
    | ok o =>
      obtain ⟨r, documents, hfinds, -⟩ := outcome_check_eq_ok_iff.mp houtcome
      exact ⟨r, documents, hfinds.record, hfinds.documents⟩
  · rintro ⟨r, documents, h⟩
    exact ⟨_, (checks_of_finds env h).completed⟩

theorem exists_checks {success : Bool} (h : (c.run env inputs s).1 = .ok success) :
    ∃ r documents entries, c.Checks env inputs s r documents entries success := by
  obtain ⟨r, documents, hfinds⟩ := completes_iff.mp ⟨success, h⟩
  have hchecks := checks_of_finds env hfinds
  cases h.symm.trans hchecks.completed
  exact ⟨r, documents, _, hchecks⟩

/-- The entries of the first report stand before those of the second, and all the rest is
added up. -/
theorem check_append (env : Setup) (c : CheckCommand) (inputs others : List String)
    (s : Session σ) :
    ((∃ success, (c.run env (inputs ++ others) s).1 = .ok success) ↔
      (∃ success, (c.run env inputs s).1 = .ok success) ∧
        ∃ success, (c.run env others s).1 = .ok success) ∧
    ∀ success success', (c.run env inputs s).1 = .ok success →
      (c.run env others s).1 = .ok success' →
      ∃ r left right entries entries', c.Checks env inputs s r left entries success ∧
        c.Checks env others s r right entries' success' ∧
        c.Checks env (inputs ++ others) s r (left ++ right) (entries ++ entries')
          (success && success') ∧
        passed r (left ++ right) = passed r left + passed r right ∧
        failed r (left ++ right) = failed r left + failed r right ∧
        passed r (left ++ right) + failed r (left ++ right) = (left ++ right).length ∧
        ((Ending.finished (success && success')).code = 0 ↔
          (Ending.finished success).code = 0 ∧ (Ending.finished success').code = 0) := by
  constructor
  · simp only [completes_iff]
    constructor
    · rintro ⟨r, documents, hfinds⟩
      obtain ⟨left, right, hleft, hright, -⟩ := finds_append.mp hfinds
      exact ⟨⟨r, left, hleft⟩, r, right, hright⟩
    · rintro ⟨⟨r, left, hleft⟩, r', right, hright⟩
      cases hleft.record.eq hright.record
      exact ⟨r, left ++ right, finds_append.mpr ⟨left, right, hleft, hright, rfl⟩⟩
  · intro success success' h h'
    obtain ⟨r, left, entries, hleft⟩ := exists_checks h
    obtain ⟨r', right, entries', hright⟩ := exists_checks h'
    cases hleft.finds.record.eq hright.finds.record
    have hboth := checks_of_finds env (finds_append.mpr ⟨left, right, hleft.finds, hright.finds, rfl⟩)
    have hsuccess : (success && success') = decide (failed r (left ++ right) = 0) := by
      rw [Bool.eq_iff_iff, Bool.and_eq_true, hleft.success_iff, hright.success_iff,
        decide_eq_true_iff, failed_append, Nat.add_eq_zero_iff]
    rw [List.map_append, ← Report.forall₂_entry_iff.mp hleft.reported,
      ← Report.forall₂_entry_iff.mp hright.reported, ← hsuccess] at hboth
    refine ⟨r, left, right, entries, entries', hleft, hright, hboth, passed_append .., failed_append ..,
      passed_add_failed .., ?_⟩
    cases success <;> simp [Ending.code]

/-- A schema with a team, a team without members, and a list. -/
def teamFiles : FileTree :=
  ⟨[(["schema.json"], .file (some Schema.teamDocument.text)),
    (["a.json"], .file (some (Json.compact (.object [("members", .array [])])))),
    (["b.json"], .file (some (Json.compact (.array []))))]⟩

def teamCheck : CheckCommand :=
  ⟨"schema.json", "Team", [], ⟨false, none, none⟩, none⟩

def teamRefusal : String :=
  "Team.of: [] has no fields, expected record Team \x7b members : [Person] \x7d"

theorem loadsSchema_team {tree : FileTree}
    (htext : tree.readText "schema.json" = .ok Schema.teamDocument.text) :
    LoadsSchema tools tree "schema.json" ⟨[.record Record.person, .record Record.team]⟩ :=
  ⟨_, htext, Schema.load_team⟩

theorem notPattern_of_eq_false {input : String} (h : isPattern input = false) : ¬IsPattern input :=
  fun hpattern => Bool.false_ne_true (h.symm.trans (isPattern_iff.mpr hpattern))

theorem finds_team (path : String) (content : Json) (hpath : isPattern path = false)
    (htext : teamFiles.readText path = .ok (Json.compact content))
    (hplain : Json.Plain Json.depthLimit content) :
    teamCheck.Finds tools teamFiles [path] Record.team [⟨path, content⟩] where
  record := ⟨_, loadsSchema_team rfl, rfl⟩
  documents := by
    have hselects : teamCheck.selection.Selects tools ⟨path, content⟩ [⟨path, content⟩] :=
      ⟨_, ⟨content, .whole, .none⟩, by simp [SourcedDocument.under]⟩
    have hloads : teamCheck.selection.LoadsFile tools teamFiles path [⟨path, content⟩] :=
      ⟨_, _, htext, .whole (Json.parse_compact hplain), joins_singleton.mpr hselects⟩
    exact ⟨[path], joins_singleton.mpr (.path (notPattern_of_eq_false hpath)),
      joins_singleton.mpr hloads⟩

/-- The team is accepted and the list is not. -/
theorem check_append_team :
    (teamCheck.run ⟨tools, false, false⟩ ["a.json"] (.start teamFiles)).1 = .ok true ∧
      (teamCheck.run ⟨tools, false, false⟩ ["b.json"] (.start teamFiles)).1 = .ok false ∧
      (teamCheck.run ⟨tools, false, false⟩ (["a.json"] ++ ["b.json"]) (.start teamFiles)).1 =
        .ok false ∧
      (teamCheck.run ⟨tools, false, false⟩ (["a.json"] ++ ["b.json"]) (.start teamFiles)).2.output =
        "ok a.json\nfailed b.json: " ++ teamRefusal ++ "\n1 passed, 1 failed\n" := by
  have ha := checks_of_finds (s := .start teamFiles) ⟨tools, false, false⟩
    (finds_team "a.json" (.object [("members", .array [])]) (by decide) rfl
      (by simp [Json.depthLimit, Keyed.Unique]))
  have hb := checks_of_finds (s := .start teamFiles) ⟨tools, false, false⟩
    (finds_team "b.json" (.array []) (by decide) rfl (by simp [Json.depthLimit]))
  have hlift : (Record.team.lift (.object [("members", .array [])])).isOk = true := by cbv
  have hpassed := ha.completed
  rw [failed, List.countP_singleton, hlift] at hpassed
  obtain ⟨-, happend⟩ := check_append ⟨tools, false, false⟩ teamCheck ["a.json"] ["b.json"]
    (.start teamFiles)
  obtain ⟨r, left, right, entries, entries', hleft, hright, hboth, -⟩ :=
    happend _ _ hpassed hb.completed
  cases hleft.finds.record.eq ha.finds.record
  cases hleft.finds.documents_eq ha.finds
  cases hright.finds.documents_eq hb.finds
  refine ⟨hpassed, hb.completed, hboth.completed, ?_⟩
  rw [hboth.printed, Report.forall₂_entry_iff.mp hboth.reported]
  cbv

end CheckCommand
end CommandLine
end TaggedData
