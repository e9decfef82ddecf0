import IndentMarkup.CommandLine.Path
import IndentMarkup.CommandLine.Storage

/-! Files as a storage keeps them. A path leads from folder to folder to a file, and the laws of a
storage say which files each of its steps may make or change. Nothing is said about how files are
kept, so the laws are those of any system with folders, links and writes that can break off. -/
namespace IndentMarkup

namespace Path

def isAbsolute (path : Text) : Bool :=
  path.head? = some '/'

/-- The names between the slashes of a path. -/
def names (path : Text) : List Text :=
  (path.splitOn '/').filter (· ≠ [])

end Path

/-- What can be seen of a state. Links are followed, so that a file can have several names. -/
structure View (σ Folder File Bytes : Type) where
  /-- Where paths start: at the root, or in the folder that the tool is run in. -/
  start : σ → Bool → Folder
  enter : σ → Folder → Text → Option Folder
  entry : σ → Folder → Text → Option File
  /-- What a file holds, if it is there. -/
  held : σ → File → Option Bytes
  encode : Text → Bytes

namespace View

variable {σ Folder File Bytes : Type} (view : View σ Folder File Bytes)

/-- The folder of what a path names. -/
def folder (s : σ) (path : Text) : Option Folder :=
  (Path.names (Path.front path)).foldlM (view.enter s) (view.start s (Path.isAbsolute path))

/-- The file that a path leads to. -/
def lookup (s : σ) (path : Text) : Option File := do
  view.entry s (← view.folder s path) (Path.lastPart path)

structure SameNames (s s' : σ) : Prop where
  start : view.start s' = view.start s
  enter : view.enter s' = view.enter s
  entry : view.entry s' = view.entry s

/-- No file is made or changed. -/
structure Same (s s' : σ) : Prop extends view.SameNames s s' where
  held : view.held s' = view.held s

/-- No file is made, and no other one is changed. -/
structure SameBut (file : File) (s s' : σ) : Prop extends view.SameNames s s' where
  held : ∀ other, other ≠ file → view.held s' other = view.held s other

/-- The path leads to the file. If it led nowhere before, the file is new, and so are names that
lead to it. No other file is made or changed. -/
structure Touched (path : Text) (file : File) (s s' : σ) : Prop where
  leads : view.lookup s' path = some file
  start : view.start s' = view.start s
  enter : view.enter s' = view.enter s
  entry : ∀ folder name, view.entry s' folder name = view.entry s folder name ∨
    view.lookup s path = none ∧ view.entry s folder name = none ∧
      view.entry s' folder name = some file
  fresh : view.lookup s path = none → view.held s file = none
  held : ∀ other, other ≠ file → view.held s' other = view.held s other

/-- The file has two names in one folder. -/
def Linked (s : σ) (file : File) : Prop :=
  ∃ folder name other, name ≠ other ∧
    view.entry s folder name = some file ∧ view.entry s folder other = some file

/-- What the steps of a storage may do. Asking and reading change nothing, and neither does a file
that cannot be opened for writing. To open one makes or empties the file at the path, and to write
to it changes no other file, whether that succeeds or not. -/
structure Lawful (storage : Storage (StateM σ) File) : Prop where
  enter_dot : ∀ s folder, view.enter s folder ['.'] = some folder
  /-- Dots name folders, and nothing has an empty name. -/
  entry_dots : ∀ s folder, ∀ name ∈ [[], ['.'], ['.', '.']], view.entry s folder name = none
  isPresent : ∀ s path, view.Same s ((storage.isPresent path).run s).2
  read : ∀ s path, view.Same s ((storage.read path).run s).2
  read_ok : ∀ s path text, ((storage.read path).run s).1 = .ok text →
    ∃ file, view.lookup s path = some file ∧ view.held s file = some (view.encode text)
  create_error : ∀ s s' path error,
    (storage.create path).run s = (.error error, s') → view.Same s s'
  create_ok : ∀ s s' path file,
    (storage.create path).run s = (.ok file, s') → view.Touched path file s s'
  fill : ∀ s file text, view.SameBut file s ((storage.fill file text).run s).2

variable {view} {s s' s'' : σ} {path other : Text} {file : File}

theorem Same.refl (s : σ) : view.Same s s :=
  ⟨⟨rfl, rfl, rfl⟩, rfl⟩

theorem Same.trans (begun : view.Same s s') (done : view.Same s' s'') : view.Same s s'' where
  start := done.start.trans begun.start
  enter := done.enter.trans begun.enter
  entry := done.entry.trans begun.entry
  held := done.held.trans begun.held

theorem SameNames.lookup (same : view.SameNames s s') : view.lookup s' = view.lookup s := by
  funext path
  rw [View.lookup, View.lookup, View.folder, View.folder, same.start, same.enter, same.entry]

theorem Touched.of_same (same : view.Same s s') (touched : view.Touched path file s' s'') :
    view.Touched path file s s'' := by
  obtain ⟨leads, start, enter, entry, fresh, held⟩ := touched
  rw [same.lookup, same.entry] at entry
  rw [same.lookup, same.held] at fresh
  rw [same.held] at held
  exact ⟨leads, start.trans same.start, enter.trans same.enter, entry, fresh, held⟩

/-- What is written to the file that was opened. -/
theorem Touched.filled (touched : view.Touched path file s s') (same : view.SameBut file s' s'') :
    view.Touched path file s s'' where
  leads := same.lookup ▸ touched.leads
  start := same.start.trans touched.start
  enter := same.enter.trans touched.enter
  entry := same.entry ▸ touched.entry
  fresh := touched.fresh
  held other differs := (same.held other differs).trans (touched.held other differs)

theorem Touched.folder (touched : view.Touched path file s s') : view.folder s' = view.folder s := by
  funext path
  rw [View.folder, View.folder, touched.start, touched.enter]

/-- A path that leads to a file still leads there. -/
theorem Touched.lookup (touched : view.Touched path file s s') {kept : File}
    (leads : view.lookup s other = some kept) : view.lookup s' other = some kept := by
  obtain ⟨folder, within, entry⟩ := Option.bind_eq_some_iff.mp leads
  rw [View.lookup, touched.folder, within]
  rcases touched.entry folder (Path.lastPart other) with same | ⟨-, nothing, -⟩
  · exact same.trans entry
  · rw [nothing] at entry
    contradiction

/-- A file that was there holds what it held, if it is not the one that the path leads to. -/
theorem Touched.held_eq (touched : view.Touched path file s s') {kept : File} {bytes : Bytes}
    (apart : view.lookup s path ≠ some kept) (holds : view.held s kept = some bytes) :
    view.held s' kept = some bytes := by
  refine (touched.held kept ?_).trans holds
  rintro rfl
  cases found : view.lookup s path with
  | none =>
    rw [touched.fresh found] at holds
    contradiction
  | some own =>
    have same := (touched.lookup found).symm.trans touched.leads
    exact apart (found.trans same)

end View

end IndentMarkup
