import TaggedData.Proofs.Basic
import TaggedData.Proofs.Joining
import TaggedData.Proofs.Looking
import TaggedData.Proofs.TextLines

/-!
# The documents of inputs

Which documents a check finds, step by step: the paths that an input stands for, the documents
in a file, and what a pointer and a filter make of a document. Loading comes to these documents
exactly, and what inputs come to is joined.
-/

namespace TaggedData
namespace CommandLine

/-- A pattern has one of the characters that are special in patterns. -/
def IsPattern (input : String) : Prop :=
  ∃ c ∈ input.toList, c ∈ ['*', '?', '[', '\x7b']

theorem isPattern_iff {input : String} : isPattern input = true ↔ IsPattern input := by
  simp [isPattern, IsPattern, or_assoc]

variable {σ : Type}

/-- A path stands for itself, and a pattern for the paths that match it. -/
inductive Resolves [FileView (ReaderM σ)] (files : σ) (input : String) : List String → Prop
  | path (path : ¬IsPattern input) : Resolves files input [input]
  | pattern {paths : List String} (pattern : IsPattern input) (nonempty : paths ≠ [])
      (matching : (FileView.matching input :
        ReaderM σ (Except String (List (Except String String)))).run files =
          .ok (paths.map .ok)) : Resolves files input paths

/-- The lines that are not blank with their numbers. Blank lines are counted. -/
def documentLinesFrom (number : Nat) (lines : List (List Char)) : List (List Char × Nat) :=
  (lines.zipIdx number).filter fun line => !Text.allBlank line.1

namespace Libraries

variable (libraries : Libraries)

structure ReadsLine (path : String) (line : List Char × Nat) (d : SourcedDocument) : Prop where
  content : libraries.document (String.ofList line.1) = .ok d.content
  source : d.source = path ++ ":" ++ toString line.2

/-- The documents of a text: one, or one on each line that is not blank. -/
inductive Reads (path text : String) : Bool → List SourcedDocument → Prop
  | whole {content : Json} (read : libraries.document text = .ok content) :
      Reads path text false [⟨path, content⟩]
  | lines {lines : List (List Char)} {documents : List SourcedDocument}
      (divided : Text.Lines text.toList lines)
      (read : List.Forall₂ (libraries.ReadsLine path) (documentLinesFrom 1 lines) documents) :
      Reads path text true documents

/-- What a filter makes of a document. Everything that it puts out is a document, under a number
if there is not just one. -/
inductive Filters (content : Json) : Option String → List (String × Json) → Prop
  | none : Filters content none [("", content)]
  | some {filter : String} {run : FilterRun} {outputs : List String} {results : List Json}
      (taken : libraries.filter filter = .ok run) (ran : run content = outputs.map .ok)
      (read : List.Forall₂ (fun output result => libraries.document output = .ok result)
        outputs results) :
      Filters content (some filter) (results.mapIdx fun n result =>
        (if results.length = 1 then "" else "#" ++ toString n, result))

end Libraries

/-- A part of a document, under the name of the document and what stands behind it. -/
def SourcedDocument.under (source : String) (part : String × Json) : SourcedDocument :=
  ⟨source ++ part.1, part.2⟩

/-- The part of a document that a pointer leads to. -/
inductive Picks (content : Json) : Option String → Json → Prop
  | whole : Picks content none content
  | part {pointer : String} {picked : Json} (found : content.pointer? pointer = some picked) :
      Picks content (some pointer) picked

namespace Selection

/-- What a document comes to, with what stands behind its name. -/
def Yields (s : Selection) (libraries : Libraries) (content : Json)
    (parts : List (String × Json)) : Prop :=
  ∃ picked, Picks content s.pointer picked ∧ libraries.Filters picked s.filter parts

def Selects (s : Selection) (libraries : Libraries) (d : SourcedDocument)
    (documents : List SourcedDocument) : Prop :=
  ∃ parts, s.Yields libraries d.content parts ∧ documents = parts.map (.under d.source)

variable [FileView (ReaderM σ)]

def LoadsFile (s : Selection) (libraries : Libraries) (files : σ) (path : String)
    (documents : List SourcedDocument) : Prop :=
  ∃ text loaded, (FileView.readText path : ReaderM σ (Except OsError String)).run files = .ok text ∧
    libraries.Reads path text s.byLine loaded ∧ Joins (s.Selects libraries) loaded documents

def Loads (s : Selection) (libraries : Libraries) (files : σ) (inputs : List String)
    (documents : List SourcedDocument) : Prop :=
  ∃ paths, Joins (Resolves files) inputs paths ∧ Joins (s.LoadsFile libraries files) paths documents

end Selection

section Attempts

variable {α β : Type} {files : σ}

theorem run_bind_eq_ok {x : Attempt (ReaderM σ) α} {next : α → Attempt (ReaderM σ) β} {b : β} :
    (x >>= next).run files = .ok b ↔ ∃ a, x.run files = .ok a ∧ (next a).run files = .ok b := by
  constructor
  · intro h
    cases hx : x.run files with
    | error f => cases (run_reader_bind_of_error hx).symm.trans h
    | ok a => exact ⟨a, rfl, (run_reader_bind_of_ok hx).symm.trans h⟩
  · rintro ⟨a, hx, h⟩
    rwa [run_reader_bind_of_ok hx]

theorem run_pure_eq_ok {a b : α} : (pure a : Attempt (ReaderM σ) α).run files = .ok b ↔ b = a := by
  constructor
  · intro h
    cases h
    rfl
  · rintro rfl
    rfl

end Attempts

theorem run_lift_eq_ok {α : Type} {files : σ} {look : ReaderM σ α} {a : α} :
    (liftM look : Attempt (ReaderM σ) α).run files = .ok a ↔ look.run files = a := by
  constructor
  · intro h
    cases h
    rfl
  · rintro rfl
    rfl

theorem matchedPaths_eq_ok_iff {pattern : String} {paths : List String}
    {matched : Except String (List (Except String String))} :
    matchedPaths pattern matched = .ok paths ↔ paths ≠ [] ∧ matched = .ok (paths.map .ok) := by
  have hpaths : ∀ (entries : List (Except String String)) paths,
      pathsOf entries = .ok paths ↔ entries = paths.map .ok := by
    intro entries
    induction entries with
    | nil => intro paths; cases paths <;> simp [pathsOf]
    | cons entry rest ih =>
      intro paths
      cases entry with
      | error cause => cases paths <;> simp [pathsOf]
      | ok path => cases paths <;> simp [pathsOf, map_eq_ok, ih, and_comm]
  match matched with
  | .error cause => simp [matchedPaths]
  | .ok [] => cases paths <;> simp [matchedPaths]
  | .ok (entry :: rest) => cases paths <;> simp [matchedPaths, hpaths]

theorem readOutputs_eq_ok_iff {read : String → Except String Json} {filter : String} {index : Nat}
    {ran : List (Except String String)} {results : List Json} :
    readOutputs read filter index ran = .ok results ↔ ∃ outputs, ran = outputs.map .ok ∧
      List.Forall₂ (fun output result => read output = .ok result) outputs results := by
  induction ran generalizing index results with
  | nil => simp [readOutputs, eq_comm]
  | cons entry rest ih =>
    cases entry with
    | error cause =>
      constructor
      · intro h
        cases h
      · rintro ⟨outputs, hran, -⟩
        cases outputs <;> cases hran
    | ok output =>
      constructor
      · intro h
        rw [readOutputs] at h
        split at h
        · cases h
        · rename_i result hread
          obtain ⟨results, hrest, rfl⟩ := map_eq_ok.mp h
          obtain ⟨outputs, rfl, hresults⟩ := ih.mp hrest
          exact ⟨output :: outputs, rfl, .cons hread hresults⟩
      · rintro ⟨outputs, hran, hresults⟩
        cases hresults with
        | nil => cases hran
        | cons hread hrest =>
          cases hran
          rw [readOutputs, hread]
          exact map_eq_ok.mpr ⟨_, ih.mpr ⟨_, rfl, hrest⟩, rfl⟩

theorem nameResults_eq (source : String) (results : List Json) :
    nameResults source results = (results.mapIdx fun n result =>
      (if results.length = 1 then "" else "#" ++ toString n, result)).map (.under source) := by
  unfold nameResults
  split
  · simp [SourcedDocument.under]
  · rename_i h
    have hlength : results.length ≠ 1 := by
      intro hone
      obtain ⟨result, hresult⟩ := List.length_eq_one_iff.mp hone
      exact h result hresult
    simp [hlength, SourcedDocument.under, List.mapIdx_eq_zipIdx_map, String.append_assoc]

namespace Selection

variable {s : Selection} {libraries : Libraries}

theorem part_eq_ok_iff {d : SourcedDocument} {picked : Json} :
    s.part d = .ok picked ↔ Picks d.content s.pointer picked := by
  unfold part
  cases s.pointer with
  | none =>
    constructor
    · rintro ⟨⟩
      exact .whole
    · rintro ⟨⟩
      rfl
  | some pointer =>
    dsimp only
    constructor
    · intro h
      split at h
      · cases h
        exact .part ‹_›
      · cases h
    · intro h
      cases h with
      | part found => rw [found]

theorem applyFilter_eq_ok_iff {filter : String} {content : Json} {results : List Json} :
    libraries.applyFilter filter content = .ok results ↔
      ∃ run outputs, libraries.filter filter = .ok run ∧ run content = outputs.map .ok ∧
        List.Forall₂ (fun output result => libraries.document output = .ok result)
          outputs results := by
  unfold Libraries.applyFilter
  cases libraries.filter filter with
  | error r => simp
  | ok run => simp [readOutputs_eq_ok_iff]

theorem filtered_eq_ok_iff {source : String} {picked : Json} {documents : List SourcedDocument} :
    s.filtered libraries source picked = .ok documents ↔
      ∃ parts, libraries.Filters picked s.filter parts ∧ documents = parts.map (.under source) := by
  unfold filtered
  cases s.filter with
  | none =>
    constructor
    · intro h
      cases h
      exact ⟨_, .none, by simp [SourcedDocument.under]⟩
    · rintro ⟨_, ⟨⟩, rfl⟩
      simp [SourcedDocument.under]
  | some filter =>
    constructor
    · intro h
      dsimp only at h
      split at h
      · rename_i results hresults
        obtain ⟨run, outputs, htaken, hran, hread⟩ := applyFilter_eq_ok_iff.mp hresults
        cases h
        exact ⟨_, .some htaken hran hread, nameResults_eq source results⟩
      · cases h
    · rintro ⟨_, hfilters, rfl⟩
      cases hfilters with
      | some taken ran read =>
        simp only [applyFilter_eq_ok_iff.mpr ⟨_, _, taken, ran, read⟩, nameResults_eq]

theorem apply_eq_ok_iff {d : SourcedDocument} {documents : List SourcedDocument} :
    s.apply libraries d = .ok documents ↔ s.Selects libraries d documents := by
  simp only [apply, bind_eq_ok, part_eq_ok_iff, filtered_eq_ok_iff, Selects, Yields]
  constructor
  · rintro ⟨picked, hpicked, parts, hfilters, rfl⟩
    exact ⟨parts, ⟨picked, hpicked, hfilters⟩, rfl⟩
  · rintro ⟨parts, ⟨picked, hpicked, hfilters⟩, rfl⟩
    exact ⟨picked, hpicked, parts, hfilters, rfl⟩

end Selection

theorem run_mk_eq_ok {α : Type} {files : σ} {e : Except Failure α} {a : α} :
    (ExceptT.mk (pure e) : Attempt (ReaderM σ) α).run files = .ok a ↔ e = .ok a :=
  .rfl

theorem run_logAll_bind {α : Type} {files : σ} {verbose : Bool} {events : List LogEvent}
    {next : Unit → Attempt (ReaderM σ) α} :
    ((liftM (logAll verbose events : ReaderM σ Unit) : Attempt (ReaderM σ) Unit) >>= next).run files =
      (next ()).run files :=
  rfl

theorem selectAll_eq_ok_iff (env : Setup) (files : σ) {s : Selection}
    {loaded documents : List SourcedDocument} :
    (selectAll (m := ReaderM σ) env s loaded).run files = .ok documents ↔
      Joins (s.Selects env.libraries) loaded documents := by
  induction loaded generalizing documents with
  | nil => rw [selectAll, run_pure_eq_ok, joins_nil]
  | cons d rest ih =>
    simp only [selectAll, run_bind_eq_ok, run_mk_eq_ok, run_pure_eq_ok, run_logAll_bind, ih,
      Selection.apply_eq_ok_iff, joins_cons]

/-- Lines are read one after the other, from any number on. -/
theorem readLines_eq_ok_iff {libraries : Libraries} {path : String} {number : Nat}
    {lines : List (List Char)} {documents : List SourcedDocument} :
    libraries.readLines path number lines = .ok documents ↔
      List.Forall₂ (libraries.ReadsLine path) (documentLinesFrom number lines) documents := by
  induction lines generalizing number documents with
  | nil => cases documents <;> simp [Libraries.readLines, documentLinesFrom]
  | cons line rest ih =>
    rw [Libraries.readLines, documentLinesFrom, List.zipIdx_cons, List.filter_cons]
    cases Text.allBlank line with
    | true => exact ih
    | false =>
      simp only [Bool.false_eq_true, ↓reduceIte, Bool.not_false, List.forall₂_cons_left_iff]
      constructor
      · intro h
        split at h
        · cases h
        · rename_i content hcontent
          obtain ⟨documents, hrest, rfl⟩ := map_eq_ok.mp h
          exact ⟨_, documents, ⟨hcontent, rfl⟩, ih.mp hrest, rfl⟩
      · rintro ⟨⟨source, content⟩, documents, ⟨hcontent, rfl⟩, hrest, rfl⟩
        simp only [hcontent]
        exact map_eq_ok.mpr ⟨documents, ih.mpr hrest, rfl⟩

theorem readDocuments_eq_ok_iff {libraries : Libraries} {byLine : Bool} {path text : String}
    {documents : List SourcedDocument} :
    libraries.readDocuments byLine path text = .ok documents ↔
      libraries.Reads path text byLine documents := by
  cases byLine with
  | true =>
    rw [Libraries.readDocuments, if_pos rfl, readLines_eq_ok_iff]
    constructor
    · exact .lines (Text.lines_lines text.toList)
    · rintro (_ | ⟨hdivided, hread⟩)
      rwa [Text.lines_eq_of_lines hdivided]
  | false =>
    rw [Libraries.readDocuments, if_neg Bool.false_ne_true, Libraries.readWhole]
    constructor
    · intro h
      split at h
      · cases h
        exact .whole ‹_›
      · cases h
    · rintro ⟨hread⟩
      rw [hread]

section Loading

variable [FileView (ReaderM σ)] {files : σ}

theorem resolveInput_eq_ok_iff {input : String} {paths : List String} :
    (resolveInput (m := ReaderM σ) input).run files = .ok paths ↔ Resolves files input paths := by
  unfold resolveInput
  split
  · rename_i h
    have hpattern := isPattern_iff.mp h
    constructor
    · intro h
      obtain ⟨matched, hmatched, h⟩ := run_bind_eq_ok.mp h
      split at h
      · rename_i found hfound
        cases h
        obtain ⟨hnonempty, rfl⟩ := matchedPaths_eq_ok_iff.mp hfound
        exact .pattern hpattern hnonempty (run_lift_eq_ok.mp hmatched)
      · cases h
    · rintro (hpath | ⟨-, hnonempty, hmatching⟩)
      · exact absurd hpattern hpath
      · refine run_bind_eq_ok.mpr ⟨_, run_lift_eq_ok.mpr hmatching, ?_⟩
        rw [matchedPaths_eq_ok_iff.mpr ⟨hnonempty, rfl⟩]
        rfl
  · rename_i h
    have hpath : ¬IsPattern input := fun hpattern => h (isPattern_iff.mpr hpattern)
    rw [run_pure_eq_ok]
    constructor
    · rintro rfl
      exact .path hpath
    · rintro (_ | ⟨hpattern, -, -⟩)
      · rfl
      · exact absurd hpattern hpath

theorem resolveInputs_eq_ok_iff {inputs paths : List String} :
    (resolveInputs (m := ReaderM σ) inputs).run files = .ok paths ↔
      Joins (Resolves files) inputs paths := by
  induction inputs generalizing paths with
  | nil => rw [resolveInputs, run_pure_eq_ok, joins_nil]
  | cons input rest ih =>
    simp only [resolveInputs, run_bind_eq_ok, run_pure_eq_ok, ih, resolveInput_eq_ok_iff, joins_cons]

variable {env : Setup} {s : Selection} {documents : List SourcedDocument}

theorem loadFile_eq_ok_iff {path : String} :
    (loadFile (m := ReaderM σ) env s path).run files = .ok documents ↔
      s.LoadsFile env.libraries files path documents := by
  simp only [loadFile, run_bind_eq_ok, run_lift_eq_ok, Selection.LoadsFile]
  constructor
  · rintro ⟨_ | text, htext, h⟩
    · cases h
    · obtain ⟨loaded, hloaded, hselected⟩ := run_bind_eq_ok.mp h
      exact ⟨text, loaded, htext, readDocuments_eq_ok_iff.mp hloaded,
        (selectAll_eq_ok_iff env files).mp hselected⟩
  · rintro ⟨text, loaded, htext, hloaded, hselected⟩
    exact ⟨.ok text, htext, run_bind_eq_ok.mpr ⟨loaded, readDocuments_eq_ok_iff.mpr hloaded,
      (selectAll_eq_ok_iff env files).mpr hselected⟩⟩

theorem loadFiles_eq_ok_iff {paths : List String} :
    (loadFiles (m := ReaderM σ) env s paths).run files = .ok documents ↔
      Joins (s.LoadsFile env.libraries files) paths documents := by
  induction paths generalizing documents with
  | nil => rw [loadFiles, run_pure_eq_ok, joins_nil]
  | cons path rest ih =>
    simp only [loadFiles, run_bind_eq_ok, run_pure_eq_ok, ih, loadFile_eq_ok_iff, joins_cons]

theorem loadDocuments_eq_ok_iff {inputs : List String} :
    (loadDocuments (m := ReaderM σ) env s inputs).run files = .ok documents ↔
      s.Loads env.libraries files inputs documents := by
  simp only [loadDocuments, run_bind_eq_ok, run_pure_eq_ok, run_logAll_bind, resolveInputs_eq_ok_iff,
    loadFiles_eq_ok_iff, exists_eq_right', Selection.Loads]

end Loading

end CommandLine
end TaggedData
