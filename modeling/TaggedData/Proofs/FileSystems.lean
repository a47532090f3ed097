import TaggedData.Files.Tree
import TaggedData.Proofs.Looking

/-!
# Systems of files

What a command relies on in the files around it: files are at places, paths lead to places,
and a change of one file changes no other one. A tree of files is such a system.
-/

namespace TaggedData

/-- A system of files. Links may lead several paths to one place, so that writing to one of
them is seen through all of them. -/
structure FileSystem (σ : Type) [FileView (ReaderM σ)] [FileStore (StateM σ)] [StillView σ] where
  Place : Type
  Content : Type
  ofText : String → Content
  /-- The place that a path leads to. -/
  place? : σ → String → Option Place
  /-- The content of the file at a place, if there is a file. -/
  content? : σ → Place → Option Content
  /-- What is read is what the file holds. Whether it may be read is another matter. -/
  exists_of_readText_ok {files : σ} {path text : String}
    (h : (FileView.readText path : ReaderM σ (Except OsError String)).run files = .ok text) :
    ∃ place, place? files path = some place ∧ content? files place = some (ofText text)
  /-- A directory is no file. -/
  content?_makeDirectory (files : σ) (path : String) (place : Place) :
    content? ((FileStore.makeDirectory path : StateM σ (Except OsError Unit)).run files).2 place =
      content? files place
  /-- A write that fails leaves every file as it was. -/
  content?_writeText_error {files files' : σ} {path text : String} {e : OsError}
    (h : (FileStore.writeText path text : StateM σ (Except OsError Unit)).run files =
      (.error e, files')) (place : Place) : content? files' place = content? files place
  /-- A write that succeeds changes the file that its path leads to from then on. -/
  exists_of_writeText_ok {files files' : σ} {path text : String}
    (h : (FileStore.writeText path text : StateM σ (Except OsError Unit)).run files =
      (.ok (), files')) :
    ∃ place, place? files' path = some place ∧ content? files' place = some (ofText text) ∧
      ∀ other, other ≠ place → content? files' other = content? files other

namespace FileSystem

variable {σ : Type} [FileView (ReaderM σ)] [FileStore (StateM σ)] [StillView σ]
  (fs : FileSystem σ) {before between after : σ} {path text : String}

/-- No file is made or changed. -/
def Keeps (before after : σ) : Prop :=
  ∀ place, fs.content? after place = fs.content? before place

/-- At most one file is made or changed, and it holds exactly a text. -/
def Writes (path text : String) (before after : σ) : Prop :=
  ∃ place, fs.place? after path = some place ∧
    fs.content? after place = some (fs.ofText text) ∧
    ∀ other, other ≠ place → fs.content? after other = fs.content? before other

variable {fs}

theorem Keeps.refl (files : σ) : fs.Keeps files files :=
  fun _ => rfl

theorem Keeps.trans (h : fs.Keeps before between) (h' : fs.Keeps between after) :
    fs.Keeps before after :=
  fun place => (h' place).trans (h place)

theorem Writes.of_keeps (h : fs.Keeps before between) (h' : fs.Writes path text between after) :
    fs.Writes path text before after := by
  obtain ⟨place, hplace, hcontent, hothers⟩ := h'
  exact ⟨place, hplace, hcontent, fun other hother => (hothers other hother).trans (h other)⟩

end FileSystem

instance : StillView FileTree where
  readText _ _ := rfl
  isDirectory _ _ := rfl
  matching _ _ := rfl

namespace FileTree

variable {tree : FileTree} {key other : List String} {node : FileNode}

theorem lookup_filter_ne (h : other ≠ key) (nodes : List (List String × FileNode)) :
    (nodes.filter fun entry => entry.1 ≠ key).lookup other = nodes.lookup other := by
  induction nodes with
  | nil => rfl
  | cons entry rest ih =>
    obtain ⟨name, node⟩ := entry
    by_cases hname : name = key
    · have hother : (other == name) = false := beq_eq_false_iff_ne.mpr (hname ▸ h)
      rw [List.filter_cons_of_neg (by simp [hname]), List.lookup_cons, hother, ih]
    · rw [List.filter_cons_of_pos (by simp [hname]), List.lookup_cons, List.lookup_cons, ih]

theorem node?_put_self (h : isFixed key = false) : (tree.put key node).node? key = some node := by
  simp [node?, put, h]

theorem node?_put_of_ne (h : other ≠ key) : (tree.put key node).node? other = tree.node? other := by
  have hother : (other == key) = false := beq_eq_false_iff_ne.mpr h
  rw [node?, node?, put, List.lookup_cons, hother, lookup_filter_ne h]

theorem isFixed_eq_false (h : tree.node? key ≠ some .directory) : isFixed key = false := by
  rw [Bool.eq_false_iff]
  intro hfixed
  exact h (by rw [node?, if_pos hfixed])

/-- What a file is changed into does not stand in the way of paths that were followed before. -/
theorem follow_put {segment : String} (h : tree.node? key ≠ some .directory) {start : List String}
    (hfollow : tree.follow start segment = .ok other) :
    (tree.put key node).follow start segment = .ok other := by
  have hstart : tree.node? start = some .directory := by
    unfold follow at hfollow
    split at hfollow
    · cases hfollow
    · cases hfollow
    · assumption
  have hne : start ≠ key := by
    rintro rfl
    exact h hstart
  rw [follow, node?_put_of_ne hne]
  exact hfollow

theorem foldlM_follow_put (h : tree.node? key ≠ some .directory) {segments : List String}
    {start : List String} (hfollow : segments.foldlM tree.follow start = .ok other) :
    segments.foldlM (tree.put key node).follow start = .ok other := by
  induction segments generalizing start with
  | nil => exact hfollow
  | cons segment rest ih =>
    rw [List.foldlM_cons] at hfollow ⊢
    cases hstep : tree.follow start segment with
    | error e =>
      rw [hstep] at hfollow
      cases hfollow
    | ok next =>
      rw [hstep] at hfollow
      rw [follow_put h hstep]
      exact ih hfollow

theorem key?_put {path : String} (h : tree.node? key ≠ some .directory)
    (hkey : tree.key? path = .ok other) : (tree.put key node).key? path = .ok other := by
  unfold key? at hkey ⊢
  split at hkey
  · cases hkey
  · rw [if_neg ‹_›]
    exact foldlM_follow_put h hkey

def contentAt? (tree : FileTree) (key : List String) : Option (Option String) :=
  match tree.node? key with
  | some (.file text) => some text
  | _ => none

theorem contentAt?_put_of_ne (h : other ≠ key) :
    (tree.put key node).contentAt? other = tree.contentAt? other := by
  rw [contentAt?, contentAt?, node?_put_of_ne h]

theorem contentAt?_put_directory (h : tree.node? key = none) (other : List String) :
    (tree.put key .directory).contentAt? other = tree.contentAt? other := by
  by_cases hother : other = key
  · subst hother
    have hnode : tree.node? other ≠ some .directory := by simp [h]
    rw [contentAt?, contentAt?, node?_put_self (isFixed_eq_false hnode), h]
  · exact contentAt?_put_of_ne hother

theorem readText_eq_ok_iff {path text : String} : tree.readText path = .ok text ↔
    ∃ key, (tree.key? path).toOption = some key ∧ tree.contentAt? key = some (some text) := by
  rw [readText, nodeAt]
  cases tree.key? path with
  | error e => simp [Except.toOption]
  | ok key =>
    have hkey : (∃ key', (Except.ok key : Except OsError _).toOption = some key' ∧
        tree.contentAt? key' = some (some text)) ↔ tree.contentAt? key = some (some text) := by
      simp [Except.toOption]
    rw [hkey, contentAt?]
    dsimp only
    rcases tree.node? key with _ | (_ | _) | _ <;> simp

theorem contentAt?_makeDirectory {path : String} {after : FileTree}
    (h : tree.makeDirectory path = .ok after) (key : List String) :
    after.contentAt? key = tree.contentAt? key := by
  unfold makeDirectory at h
  split at h
  · cases h
  · split at h
    · cases h
    · cases h
      exact contentAt?_put_directory ‹_› key

theorem writeText_eq_ok {path text : String} {after : FileTree}
    (h : tree.writeText path text = .ok after) :
    ∃ key, tree.key? path = .ok key ∧ tree.node? key ≠ some .directory ∧
      after = tree.put key (.file (some text)) := by
  unfold writeText at h
  split at h
  · cases h
  · split at h
    · cases h
    · rename_i key hkey
      split at h
      · cases h
      · cases h
        exact ⟨key, hkey, ‹_›, rfl⟩

theorem run_makeDirectory (path : String) :
    (FileStore.makeDirectory path : StateM FileTree (Except OsError Unit)).run tree =
      match tree.makeDirectory path with
      | .ok after => (.ok (), after)
      | .error e => (.error e, tree) :=
  rfl

theorem run_writeText (path text : String) :
    (FileStore.writeText path text : StateM FileTree (Except OsError Unit)).run tree =
      match tree.writeText path text with
      | .ok after => (.ok (), after)
      | .error e => (.error e, tree) :=
  rfl

/-- A tree of files as a system: a path leads to its key. -/
def fileSystem : FileSystem FileTree where
  Place := List String
  Content := Option String
  ofText := some
  place? tree path := (tree.key? path).toOption
  content? := contentAt?
  exists_of_readText_ok := readText_eq_ok_iff.mp
  content?_makeDirectory tree path place := by
    rw [run_makeDirectory]
    cases h : tree.makeDirectory path with
    | error e => rfl
    | ok after => exact contentAt?_makeDirectory h place
  content?_writeText_error := by
    intro tree after path text e h place
    rw [run_writeText] at h
    split at h
    · cases h
    · cases h
      rfl
  exists_of_writeText_ok := by
    intro tree after path text h
    rw [run_writeText] at h
    split at h
    · rename_i tree' hwrite
      cases h
      obtain ⟨key, hkey, hnode, rfl⟩ := writeText_eq_ok hwrite
      refine ⟨key, ?_, ?_, fun other hother => contentAt?_put_of_ne hother⟩
      · rw [key?_put hnode hkey]
        rfl
      · rw [contentAt?, node?_put_self (isFixed_eq_false hnode)]
    · cases h

end FileTree

end TaggedData
