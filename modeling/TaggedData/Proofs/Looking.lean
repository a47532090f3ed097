import TaggedData.CommandLine.Program

/-!
# Looking at files

Everything up to the result of a command only looks at files. It notes events on the way and
leaves all else as it was, so its result is that of a computation that has nothing but files to
look at. Of the events only warnings are noted in any case.
-/

namespace TaggedData

/-- Where files can be changed, looking at them is what it is where they cannot. -/
class StillView (σ : Type) [FileView (ReaderM σ)] [FileStore (StateM σ)] : Prop where
  readText (path : String) (files : σ) :
    (FileView.readText path : StateM σ (Except OsError String)).run files =
      ((FileView.readText path : ReaderM σ (Except OsError String)).run files, files)
  isDirectory (path : String) (files : σ) :
    (FileView.isDirectory path : StateM σ Bool).run files =
      ((FileView.isDirectory path : ReaderM σ Bool).run files, files)
  matching (pattern : String) (files : σ) :
    (FileView.matching pattern : StateM σ (Except String (List (Except String String)))).run files =
      ((FileView.matching pattern : ReaderM σ (Except String (List (Except String String)))).run files,
        files)

namespace CommandLine

variable {σ α β : Type}

/-- Where nothing can be changed there is no log. -/
instance : Log (ReaderM σ) where
  note _ := pure ()

namespace Session

/-- The session with events behind everything that was noted before. -/
def noted (s : Session σ) (events : List LogEvent) : Session σ :=
  { s with errors := s.errors ++ events.map .event }

theorem noted_nil (s : Session σ) : s.noted [] = s := by
  simp [noted]

theorem noted_append (s : Session σ) (events more : List LogEvent) :
    (s.noted events).noted more = s.noted (events ++ more) := by
  simp [noted]

end Session

theorem run_logAll (verbose : Bool) (events : List LogEvent) (s : Session σ) :
    (logAll verbose events : StateM (Session σ) Unit).run s =
      ((), s.noted (events.filter (LogEvent.isShown verbose))) := by
  induction events generalizing s with
  | nil => rw [List.filter_nil, s.noted_nil, logAll]; rfl
  | cons e rest ih =>
    have hstep : (logAll verbose (e :: rest) : StateM (Session σ) Unit).run s =
        (logAll verbose rest : StateM (Session σ) Unit).run
          (if e.isShown verbose then s.noted [e] else s) := by
      rw [logAll]
      cases e.isShown verbose <;> rfl
    rw [hstep, ih]
    cases hshown : e.isShown verbose with
    | true => simp [hshown, Session.noted_append]
    | false => simp [hshown]

section Attempts

variable {x : Attempt (StateM σ) α} {next : α → Attempt (StateM σ) β} {s between : σ}

theorem run_lift_bind (x : StateM σ α) (next : α → Attempt (StateM σ) β) (s : σ) :
    ((liftM x : Attempt (StateM σ) α) >>= next).run.run s =
      (next (x.run s).1).run.run (x.run s).2 :=
  rfl

theorem run_bind (x : Attempt (StateM σ) α) (next : α → Attempt (StateM σ) β) (s : σ) :
    (x >>= next).run.run s = (ExceptT.bindCont next (x.run.run s).1).run (x.run.run s).2 :=
  rfl

theorem run_bind_of_ok {a : α} (h : x.run.run s = (.ok a, between)) :
    (x >>= next).run.run s = (next a).run.run between := by
  rw [run_bind, h]
  rfl

theorem run_bind_of_error {f : Failure} (h : x.run.run s = (.error f, between)) :
    (x >>= next).run.run s = (.error f, between) := by
  rw [run_bind, h]
  rfl

end Attempts

section Readers

variable {x : Attempt (ReaderM σ) α} {next : α → Attempt (ReaderM σ) β} {files : σ}

theorem run_reader_bind (x : Attempt (ReaderM σ) α) (next : α → Attempt (ReaderM σ) β) (files : σ) :
    (x >>= next).run files = ExceptT.bindCont next (x.run files) files :=
  rfl

theorem run_reader_bind_of_ok {a : α} (h : x.run files = .ok a) :
    (x >>= next).run files = (next a).run files := by
  rw [run_reader_bind, h]
  rfl

theorem run_reader_bind_of_error {f : Failure} (h : x.run files = .error f) :
    (x >>= next).run files = .error f := by
  rw [run_reader_bind, h]
  rfl

end Readers

/-- A step that does no more to a session than to note events, and comes to what is seen in the
files. If less important events are not shown it notes nothing. -/
def Looks (verbose : Bool) (step : Attempt (StateM (Session σ)) α) (look : Attempt (ReaderM σ) α) :
    Prop :=
  ∀ s, ∃ events, (verbose = false → events = []) ∧
    step.run.run s = (look.run s.files, s.noted events)

section Steps

variable {verbose : Bool}

theorem looks_mk (e : Except Failure α) :
    Looks (σ := σ) verbose (ExceptT.mk (pure e)) (ExceptT.mk (pure e)) :=
  fun s => ⟨[], fun _ => rfl, by rw [s.noted_nil]; rfl⟩

theorem looks_pure (a : α) : Looks (σ := σ) verbose (pure a) (pure a) :=
  looks_mk (.ok a)

theorem looks_throw (f : Failure) : Looks (σ := σ) (α := α) verbose (throw f) (throw f) :=
  looks_mk (.error f)

theorem looks_onFiles {step : StateM σ α} {look : ReaderM σ α}
    (h : ∀ files, step.run files = (look.run files, files)) :
    Looks (σ := σ) verbose (liftM (Session.onFiles step)) (liftM look) := by
  intro s
  refine ⟨[], fun _ => rfl, ?_⟩
  have hrun : (liftM (Session.onFiles step) : Attempt (StateM (Session σ)) α).run.run s =
      (.ok (step.run s.files).1, { s with files := (step.run s.files).2 }) := rfl
  rw [hrun, h, s.noted_nil]
  rfl

theorem looks_logAll {events : List LogEvent} (h : ∀ e ∈ events, e.level ≠ .warn) :
    Looks (σ := σ) verbose (liftM (logAll verbose events : StateM (Session σ) Unit))
      (liftM (logAll verbose events : ReaderM σ Unit)) := by
  intro s
  refine ⟨events.filter (LogEvent.isShown verbose), ?_, ?_⟩
  · rintro rfl
    refine List.filter_eq_nil_iff.mpr fun e he => ?_
    simpa [LogEvent.isShown] using h e he
  · have hrun : (liftM (logAll verbose events : StateM (Session σ) Unit) :
        Attempt (StateM (Session σ)) Unit).run.run s =
        (.ok ((logAll verbose events : StateM (Session σ) Unit).run s).1,
          ((logAll verbose events : StateM (Session σ) Unit).run s).2) := rfl
    rw [hrun, run_logAll]
    rfl

theorem Looks.bind {step : Attempt (StateM (Session σ)) α} {look : Attempt (ReaderM σ) α}
    {next : α → Attempt (StateM (Session σ)) β} {next' : α → Attempt (ReaderM σ) β}
    (h : Looks verbose step look) (hnext : ∀ a, Looks verbose (next a) (next' a)) :
    Looks verbose (step >>= next) (look >>= next') := by
  intro s
  obtain ⟨events, hquiet, hstep⟩ := h s
  cases hlook : look.run s.files with
  | error f =>
    rw [hlook] at hstep
    exact ⟨events, hquiet, by rw [run_bind_of_error hstep, run_reader_bind_of_error hlook]⟩
  | ok a =>
    rw [hlook] at hstep
    obtain ⟨more, hquiet', hmore⟩ := hnext a (s.noted events)
    refine ⟨events ++ more, fun h => by rw [hquiet h, hquiet' h]; rfl, ?_⟩
    rw [run_bind_of_ok hstep, hmore, run_reader_bind_of_ok hlook, Session.noted_append]
    rfl

end Steps

theorem looks_selectAll (env : Setup) (s : Selection) (documents : List SourcedDocument) :
    Looks (σ := σ) env.verbose (selectAll env s documents) (selectAll env s documents) := by
  induction documents with
  | nil => exact looks_pure []
  | cons d rest ih =>
    refine (looks_mk (s.apply env.libraries d)).bind fun selected => ?_
    have hevents : ∀ e ∈ s.events selected.length, e.level ≠ .warn := by
      unfold Selection.events
      split <;> simp [LogEvent.level]
    exact (looks_logAll hevents).bind fun _ => ih.bind fun others => looks_pure _

variable [FileView (ReaderM σ)] [FileStore (StateM σ)] [StillView σ] (env : Setup)

theorem looks_resolveInput (input : String) :
    Looks (σ := σ) env.verbose (resolveInput input) (resolveInput input) := by
  unfold resolveInput
  split
  · refine (looks_onFiles (StillView.matching input)).bind fun entries => ?_
    cases matchedPaths input entries with
    | ok paths => exact looks_pure paths
    | error f => exact looks_throw _
  · exact looks_pure _

theorem looks_resolveInputs (inputs : List String) :
    Looks (σ := σ) env.verbose (resolveInputs inputs) (resolveInputs inputs) := by
  induction inputs with
  | nil => exact looks_pure []
  | cons input rest ih =>
    refine (looks_resolveInput env input).bind fun paths => ?_
    exact ih.bind fun others => looks_pure _

theorem looks_loadFile (s : Selection) (path : String) :
    Looks (σ := σ) env.verbose (loadFile env s path) (loadFile env s path) := by
  refine (looks_onFiles (StillView.readText path)).bind fun text => ?_
  cases text with
  | error e => exact looks_throw _
  | ok text => exact (looks_mk _).bind fun documents => looks_selectAll env s documents

theorem looks_loadFiles (s : Selection) (paths : List String) :
    Looks (σ := σ) env.verbose (loadFiles env s paths) (loadFiles env s paths) := by
  induction paths with
  | nil => exact looks_pure []
  | cons path rest ih =>
    refine (looks_loadFile env s path).bind fun documents => ?_
    exact ih.bind fun others => looks_pure _

theorem looks_loadDocuments (s : Selection) (inputs : List String) :
    Looks (σ := σ) env.verbose (loadDocuments env s inputs) (loadDocuments env s inputs) := by
  refine (looks_resolveInputs env inputs).bind fun paths => ?_
  refine (looks_loadFiles env s paths).bind fun documents => ?_
  have hevents : ∀ e ∈ [LogEvent.documentsLoaded documents.length], e.level ≠ .warn := by
    simp [LogEvent.level]
  exact (looks_logAll hevents).bind fun _ => looks_pure documents

theorem level_schemaEvents (text : String) : ∀ e ∈ env.schemaEvents text, e.level ≠ .warn := by
  unfold Setup.schemaEvents
  split
  · exact List.forall_mem_nil _
  · intro e he
    obtain ⟨d, -, rfl⟩ := List.mem_map.mp he
    cases d <;> simp [LogEvent.ofDefinition, LogEvent.level]

theorem looks_loadSchema (path : String) :
    Looks (σ := σ) env.verbose (loadSchema env path) (loadSchema env path) := by
  refine (looks_onFiles (StillView.readText path)).bind fun text => ?_
  cases text with
  | error e => exact looks_throw _
  | ok text =>
    refine (looks_logAll (level_schemaEvents env text)).bind fun _ => ?_
    cases Schema.load env.libraries.schema 0 text with
    | error f => exact looks_throw _
    | ok s =>
      have hevents : ∀ e ∈ [LogEvent.schemaLoaded s.definitions.length], e.level ≠ .warn := by
        simp [LogEvent.level]
      exact (looks_logAll hevents).bind fun _ => looks_pure s

theorem looks_report (c : CheckCommand) :
    Looks (σ := σ) env.verbose (c.report env) (c.report env) := by
  refine (looks_loadSchema env c.schema).bind fun s => ?_
  refine (looks_mk (findRecord s c.record)).bind fun r => ?_
  exact (looks_loadDocuments env c.selection c.inputs).bind fun documents => looks_pure _

def Command.warnings (files : σ) : Command → List LogEvent
  | .describe .. => []
  | .check c =>
    match (c.report (m := ReaderM σ) env).run files with
    | .error _ => []
    | .ok report => Report.warnings report

theorem filter_isShown_warnings (verbose : Bool) (r : Report) :
    r.warnings.filter (LogEvent.isShown verbose) = r.warnings := by
  refine List.filter_eq_self.mpr fun e he => ?_
  obtain ⟨⟨source, result⟩, -, he⟩ := List.mem_filterMap.mp he
  cases result <;> cases he
  simp [LogEvent.isShown, LogEvent.level]

theorem run_outcome (c : Command) (s : Session σ) : ∃ events, (env.verbose = false → events = []) ∧
    (c.outcome (m := StateM (Session σ)) env).run.run s =
      ((c.outcome (m := ReaderM σ) env).run s.files,
        s.noted (events ++ c.warnings env s.files)) := by
  cases c with
  | describe schema out =>
    have hlooks := (looks_loadSchema (σ := σ) env schema).bind fun loaded =>
      looks_pure (⟨description loaded, out, true⟩ : Outcome)
    obtain ⟨events, hquiet, hrun⟩ := hlooks s
    refine ⟨events, hquiet, ?_⟩
    rw [Command.warnings, List.append_nil]
    exact hrun
  | check c =>
    obtain ⟨events, hquiet, hrun⟩ := looks_report env c s
    refine ⟨events, hquiet, ?_⟩
    rw [Command.warnings]
    cases hreport : (c.report (m := ReaderM σ) env).run s.files with
    | error f =>
      rw [hreport] at hrun
      rw [List.append_nil, Command.outcome, Command.outcome, run_bind_of_error hrun,
        run_reader_bind_of_error hreport]
    | ok report =>
      rw [hreport] at hrun
      rw [Command.outcome, Command.outcome, run_bind_of_ok hrun, run_reader_bind_of_ok hreport,
        run_lift_bind, run_logAll, filter_isShown_warnings, Session.noted_append]
      rfl

/-- Before anything is written, the result is there or there will be none. -/
theorem run_perform (c : Command) (s : Session σ) : ∃ events, (env.verbose = false → events = []) ∧
    (c.perform (m := StateM (Session σ)) env).run.run s =
      match (c.outcome (m := ReaderM σ) env).run s.files with
      | .error f => (.error f, s.noted (events ++ c.warnings env s.files))
      | .ok o =>
        let emitted := (o.emit (m := StateM (Session σ))).run.run
          (s.noted (events ++ c.warnings env s.files))
        (emitted.1.map fun _ => o.success, emitted.2) := by
  obtain ⟨events, hquiet, hlook⟩ := run_outcome env c s
  refine ⟨events, hquiet, ?_⟩
  cases ho : (c.outcome (m := ReaderM σ) env).run s.files with
  | error f =>
    rw [ho] at hlook
    exact run_bind_of_error hlook
  | ok o =>
    rw [ho] at hlook
    rw [Command.perform, run_bind_of_ok hlook]
    dsimp only
    rcases hemit : (o.emit (m := StateM (Session σ))).run.run
      (s.noted (events ++ c.warnings env s.files)) with ⟨emitted, after⟩
    cases emitted with
    | error f => exact run_bind_of_error hemit
    | ok _ => exact run_bind_of_ok hemit

end CommandLine
end TaggedData
