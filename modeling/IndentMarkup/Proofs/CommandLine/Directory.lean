import IndentMarkup.CommandLine.Directory
import IndentMarkup.Proofs.CommandLine.Output
import IndentMarkup.Proofs.Result

/-! Directories in memory keep the laws of a storage. A file that is made gets its name in a folder
that is there, so that folders are the same before and after, and a file that is written keeps all
its names. -/
namespace IndentMarkup.Directory

/-- A directory as a state of files. The way to a folder stands for it. -/
def view : View Directory (List Text) File (Option Text) where
  start _ absolute := if absolute then root else []
  enter d here name :=
    match d.find here name with
    | .ok (.folder way) => some way
    | _ => none
  entry d here name :=
    match d.find here name with
    | .ok (.file file) => if name = [] then none else some file
    | _ => none
  held := held
  encode := some

variable {d d' : Directory} {path : Text} {here way key : List Text} {e : Entry}

theorem walk_concat {front : List Text} {name : Text}
    (found : d.walk here (front ++ [name]) = .ok e) :
    ∃ folder, front.foldlM (view.enter d) here = some folder ∧ d.find folder name = .ok e := by
  induction front generalizing here with
  | nil =>
    refine ⟨here, rfl, ?_⟩
    rw [List.nil_append, walk] at found
    obtain ⟨own, first, found⟩ := bind_ok found
    cases own <;> exact Except.ok.inj found ▸ first
  | cons first front ih =>
    rw [List.cons_append, walk] at found
    obtain ⟨own, entered, found⟩ := bind_ok found
    cases own with
    | folder next =>
      obtain ⟨folder, leads, last⟩ := ih found
      refine ⟨folder, ?_, last⟩
      have step : view.enter d here first = some next := by simp only [view, entered]
      rw [List.foldlM_cons, step]
      exact leads
    | file | vacant => simp at found

theorem entry_eq (d : Directory) (path : Text) :
    d.entry path =
      if maxPathSize < byteSize path then .error .nameTooLong
      else if path = [] then .error .noEntry
      else d.walk (view.start d (Path.isAbsolute path)) (Path.names path) := by
  unfold entry
  dsimp only
  split
  · rfl
  · split
    · rfl
    · rfl
    next nonempty slashless =>
      have relative : Path.isAbsolute path = false := by
        cases path with
        | nil => rfl
        | cons c rest =>
          refine decide_eq_false fun slash => slashless rest ?_
          rw [Option.some.inj slash]
      rw [if_neg nonempty, relative]
      rfl

/-- A path that is looked up with success leads to its last part. -/
theorem exists_find (found : d.entry path = .ok e) (slashless : endsInSlash path = false) :
    Path.lastPart path ≠ [] ∧ ∃ folder, view.folder d path = some folder ∧
      d.find folder (Path.lastPart path) = .ok e := by
  rw [entry_eq] at found
  split at found
  · contradiction
  · split at found
    · contradiction
    next nonempty =>
      have whole := Path.front_append_lastPart path
      have named : Path.lastPart path ≠ [] := by
        intro unnamed
        rw [unnamed, List.append_nil] at whole
        rcases Path.front_cases path with none | ⟨folder, ended⟩
        · exact nonempty (whole.symm.trans none)
        · rw [← whole, ended] at slashless
          simp [endsInSlash] at slashless
      have parts := Path.names_concat (Path.front path) _ (Path.lastPart_plain path) named
        (Path.front_cases path)
      rw [whole] at parts
      rw [parts] at found
      exact ⟨named, walk_concat found⟩

theorem lookup_eq {folder : List Text} (within : view.folder d path = some folder) :
    view.lookup d path = view.entry d folder (Path.lastPart path) := by
  rw [View.lookup, within]
  rfl

theorem lookup_of_entry {file : File} (found : d.entry path = .ok (.file file))
    (slashless : endsInSlash path = false) : view.lookup d path = some file := by
  obtain ⟨named, folder, within, last⟩ := exists_find found slashless
  rw [lookup_eq within]
  simp only [view, last, if_neg named]

theorem isSystemFolder_of_above (above : way <+: here) (system : isSystemFolder here = true) :
    way = [] ∨ isSystemFolder way = true := by
  unfold isSystemFolder at system
  split at system
  · rcases List.prefix_cons_iff.mp above with rfl | ⟨rest, rfl, nothing⟩
    · exact .inl rfl
    · obtain rfl := List.prefix_nil.mp nothing
      exact .inr rfl
  next name =>
    rcases List.prefix_cons_iff.mp above with rfl | ⟨rest, rfl, behind⟩
    · exact .inl rfl
    · rcases List.prefix_cons_iff.mp behind with rfl | ⟨rest, rfl, nothing⟩
      · exact .inr rfl
      · obtain rfl := List.prefix_nil.mp nothing
        exact .inr system
  · contradiction

/-- What a folder is in is a folder. -/
theorem isFolder_of_above (above : way <+: here) (inside : d.isFolder here = true) :
    d.isFolder way = true := by
  simp only [isFolder, Bool.or_eq_true, List.any_eq_true, Bool.and_eq_true, List.isPrefixOf_iff_prefix,
    decide_eq_true_eq, List.all_eq_true] at inside ⊢
  rcases inside with ((⟨folder, listed, begins⟩ | ⟨name, listed, begins, shorter⟩) | dots) | system
  · exact .inl (.inl (.inl ⟨folder, listed, above.trans begins⟩))
  · exact .inl (.inl (.inr ⟨name, listed, above.trans begins,
      Nat.lt_of_le_of_lt above.length_le shorter⟩))
  · exact .inl (.inr fun name member => dots name (above.subset member))
  · rcases isSystemFolder_of_above above system with rfl | system
    · exact .inl (.inr (by simp))
    · exact .inr system

theorem isFolder_up (inside : d.isFolder here = true) : d.isFolder (up here) = true := by
  rw [up]
  split
  next dots => simp [isFolder, dots]
  · split
    · exact inside
    · exact isFolder_of_above (List.dropLast_prefix here) inside

/-- What a name in a folder can be. -/
inductive Found (d : Directory) (here : List Text) (name : Text) : Entry → Prop where
  | same : Found d here name (.folder here)
  | above : Found d here name (.folder (up here))
  | folder (there : d.isFolder (here ++ [name]) = true) :
      Found d here name (.folder (here ++ [name]))
  | file (own : File) : Found d here name (.file own)
  | vacant (free : d.named? (here ++ [name]) = none) :
      Found d here name (.vacant (here ++ [name]))

theorem found_of_find {name : Text} (found : d.find here name = .ok e) : Found d here name e := by
  unfold find at found
  split at found
  · cases found; exact .same
  · split at found
    · cases found; exact .above
    · split at found
      · contradiction
      · dsimp only at found
        split at found
        next there => cases found; exact .folder there
        · split at found
          next own named => cases found; exact .file own
          next free => cases found; exact .vacant free

theorem isFolder_enter {name : Text} (inside : d.isFolder here = true)
    (entered : view.enter d here name = some way) : d.isFolder way = true := by
  simp only [view] at entered
  split at entered
  next found =>
    obtain rfl := Option.some.inj entered
    cases found_of_find found with
    | same => exact inside
    | above => exact isFolder_up inside
    | folder there => exact there
  · contradiction

/-- All names but the last lead to folders that are there. -/
theorem isFolder_folder (within : view.folder d path = some way) : d.isFolder way = true := by
  have start : d.isFolder (view.start d (Path.isAbsolute path)) = true := by
    cases Path.isAbsolute path <;> simp [view, root, isFolder, isSystemFolder]
  rw [View.folder] at within
  generalize view.start d (Path.isAbsolute path) = here, Path.names (Path.front path) = names
    at start within
  induction names generalizing here with
  | nil => exact Option.some.inj within ▸ start
  | cons name more ih =>
    obtain ⟨next, entered, later⟩ := Option.bind_eq_some_iff.mp within
    exact ih next (isFolder_enter start entered) later

/-- Looking up a name asks for nothing but folders and names. -/
theorem find_congr (folders : d'.isFolder = d.isFolder) (named : d'.named? = d.named?) :
    d'.find = d.find := by
  funext here name
  rw [find, find, folders, named]

theorem sameNames (found : d'.find = d.find) : view.SameNames d d' := by
  refine ⟨rfl, ?_, ?_⟩ <;> (funext here name; simp only [view, found])

/-! ### Writing to a file -/

theorem file?_overwrite (d : Directory) (key other : List Text) (text : Text) :
    (d.overwrite key text).file? other =
      (d.file? other).map fun held => if other = key then some text else held := by
  rw [file?, file?, overwrite]
  induction d.files with
  | nil => rfl
  | cons file files ih =>
    rw [List.map_cons, List.lookup_cons, List.lookup_cons]
    by_cases same : other = file.1
    · subst same; simp
    · have apart : (other == file.1) = false := beq_eq_false_iff_ne.mpr same
      simpa [apart] using ih

theorem find_overwrite (d : Directory) (key : List Text) (text : Text) :
    (d.overwrite key text).find = d.find := by
  have names : (d.overwrite key text).names = d.names := by simp [overwrite, Directory.names]
  refine find_congr ?_ ?_
  · funext way
    rw [isFolder, isFolder, names]
    rfl
  · funext name
    simp only [named?, file?_overwrite, Option.isSome_map]
    rfl

theorem held_overwrite (d : Directory) {key : List Text} (text : Text) {other : File}
    (differs : other ≠ .kept key) : (d.overwrite key text).held other = d.held other := by
  cases other with
  | device => rfl
  | kept name =>
    have apart : name ≠ key := fun same => differs (congrArg File.kept same)
    simp [held, file?_overwrite, apart]

theorem sameBut_fill (d : Directory) (text : Text) (file : File) :
    view.SameBut file d (d.fill text file).2 := by
  cases file with
  | device device => cases device <;> exact ⟨sameNames rfl, fun _ _ => rfl⟩
  | kept key =>
    unfold fill
    dsimp only
    split
    · exact ⟨sameNames (d.find_overwrite key text), fun _ => d.held_overwrite text⟩
    next room _ =>
      exact ⟨sameNames (d.find_overwrite key (text.take room)),
        fun _ => d.held_overwrite (text.take room)⟩

/-! ### Making a file -/

theorem isFolder_make {folder : List Text} {name : Text} (inside : d.isFolder folder = true) :
    (d.make (folder ++ [name])).isFolder = d.isFolder := by
  funext way
  have names : (d.make (folder ++ [name])).names = (folder ++ [name]) :: d.names := rfl
  cases own : way.isPrefixOf (folder ++ [name]) && decide (way.length < (folder ++ [name]).length) with
  | false =>
    rw [isFolder, isFolder, names, List.any_cons, own, Bool.false_or]
    rfl
  | true =>
    -- The new name makes folders of those that it is in, which were folders before.
    rw [Bool.and_eq_true, List.isPrefixOf_iff_prefix, decide_eq_true_eq] at own
    have above : way <+: folder := by
      refine (List.prefix_concat_iff.mp own.1).resolve_left ?_
      rintro rfl
      exact absurd own.2 (Nat.lt_irrefl _)
    rw [isFolder_of_above above inside, isFolder, names, List.any_cons,
      List.isPrefixOf_iff_prefix.mpr own.1, decide_eq_true own.2]
    simp

theorem file?_make (d : Directory) (key other : List Text) :
    (d.make key).file? other = if other = key then some (some []) else d.file? other := by
  rw [file?, make, List.lookup_cons]
  by_cases same : other = key
  · simp [same]
  · have apart : (other == key) = false := beq_eq_false_iff_ne.mpr same
    rw [apart, if_neg same]
    rfl

/-- A name that is free is neither that of a device nor that of a file. -/
theorem plain_of_vacant (vacant : d.named? key = none) : device? key = none ∧ d.file? key = none := by
  have plain : device? key = none := by
    cases device : device? key with
    | none => rfl
    | some device => simp [named?, device] at vacant
  refine ⟨plain, ?_⟩
  cases listed : d.file? key with
  | none => rfl
  | some held => simp [named?, plain, listed] at vacant

theorem named?_make_self (vacant : d.named? key = none) :
    (d.make key).named? key = some (.kept key) := by
  simp [named?, (plain_of_vacant vacant).1, file?_make]

/-- Names that led nowhere may lead to the new file. -/
theorem named?_make (vacant : d.named? key = none) (name : List Text) :
    (d.make key).named? name = d.named? name ∨
      d.named? name = none ∧ (d.make key).named? name = some (.kept key) := by
  have links : (d.make key).links = d.links := rfl
  by_cases same : name = key
  · subst same
    exact .inr ⟨vacant, named?_make_self vacant⟩
  · simp only [named?, file?_make, if_neg same, links]
    cases device? name with
    | some device => exact .inl rfl
    | none =>
      dsimp only
      split
      next listed => exact .inl (by simp only [Option.filter_some, if_neg same])
      · cases d.links.lookup name with
        | none => exact .inl rfl
        | some target =>
          by_cases own : target = key
          · subst own
            exact .inr (by simp [(plain_of_vacant vacant).2])
          · exact .inl (by simp only [Option.filter_some, if_neg own])

theorem find_make {folder : List Text} {name : Text} (inside : d.isFolder folder = true)
    (vacant : d.named? (folder ++ [name]) = none) (here : List Text) (other : Text) :
    (d.make (folder ++ [name])).find here other = d.find here other ∨
      d.find here other = .ok (.vacant (here ++ [other])) ∧
        (d.make (folder ++ [name])).find here other = .ok (.file (.kept (folder ++ [name]))) := by
  rw [find, find, isFolder_make inside]
  dsimp only
  split
  · exact .inl rfl
  · split
    · exact .inl rfl
    · split
      · exact .inl rfl
      · split
        · exact .inl rfl
        · rcases named?_make vacant (here ++ [other]) with same | ⟨none, new⟩
          · exact .inl (by rw [same])
          · exact .inr ⟨by rw [none], by rw [new]⟩

theorem find_vacant {name : Text} (found : d.find here name = .ok (.vacant key)) :
    key = here ++ [name] ∧ d.named? key = none := by
  cases found_of_find found with
  | vacant free => exact ⟨rfl, free⟩

theorem find_make_self {folder : List Text} {name : Text} (inside : d.isFolder folder = true)
    (found : d.find folder name = .ok (.vacant key)) :
    (d.make key).find folder name = .ok (.file (.kept key)) := by
  obtain ⟨rfl, vacant⟩ := find_vacant found
  rcases find_make inside vacant folder name with same | ⟨-, new⟩
  · -- It would still be free, but it is the name of the file.
    have free := (find_vacant (same.trans found)).2
    rw [named?_make_self vacant] at free
    contradiction
  · exact new

theorem touched_make (found : d.entry path = .ok (.vacant key))
    (slashless : endsInSlash path = false) : view.Touched path (.kept key) d (d.make key) := by
  obtain ⟨named, folder, within, last⟩ := exists_find found slashless
  obtain ⟨rfl, vacant⟩ := find_vacant last
  have inside := isFolder_folder within
  have enter : view.enter (d.make (folder ++ [Path.lastPart path])) = view.enter d := by
    funext here name
    simp only [view]
    rcases find_make inside vacant here name with same | ⟨before, after⟩
    · rw [same]
    · rw [before, after]
  have nothing : view.lookup d path = none := by
    rw [lookup_eq within]
    simp only [view, last]
  refine ⟨?_, rfl, enter, fun here name => ?_, fun _ => ?_, fun other differs => ?_⟩
  · have within' : view.folder (d.make (folder ++ [Path.lastPart path])) path = some folder := by
      rw [View.folder, enter]
      exact within
    rw [lookup_eq within']
    simp only [view, find_make_self inside last, if_neg named]
  · rcases find_make inside vacant here name with same | ⟨before, after⟩
    · exact .inl (by simp only [view, same])
    · by_cases unnamed : name = []
      · exact .inl (by simp only [view, before, after, if_pos unnamed])
      · exact .inr ⟨nothing, by simp only [view, before], by simp only [view, after, if_neg unnamed]⟩
  · exact (plain_of_vacant vacant).2
  · cases other with
    | device => rfl
    | kept name =>
      have apart : name ≠ folder ++ [Path.lastPart path] :=
        fun same => differs (congrArg File.kept same)
      exact (file?_make d _ name).trans (if_neg apart)

theorem touched_create {file : File} (created : d.create path = .ok (file, d')) :
    view.Touched path file d d' := by
  unfold create at created
  split at created
  · contradiction
  next e found =>
    cases slash : endsInSlash path with
    | true => simp [slash] at created
    | false =>
      rw [slash, if_neg Bool.false_ne_true] at created
      cases e with
      | folder => contradiction
      | vacant key => cases created; exact touched_make found slash
      | file own =>
        have leads := lookup_of_entry found slash
        cases own with
        | device device =>
          cases created
          exact ⟨leads, rfl, rfl, fun _ _ => .inl rfl, by simp [leads], fun _ _ => rfl⟩
        | kept key =>
          cases created
          have same := sameNames (d.find_overwrite key [])
          exact ⟨same.lookup ▸ leads, rfl, same.enter, fun _ _ => .inl (by rw [same.entry]),
            by simp [leads], fun _ => d.held_overwrite []⟩

theorem read_ok {text : Text} (read : d.read path = .ok text) :
    ∃ file, view.lookup d path = some file ∧ d.held file = some (some text) := by
  unfold Directory.read at read
  split at read
  · contradiction
  · contradiction
  · contradiction
  next file found =>
    split at read
    · contradiction
    next slashless =>
      split at read
      next own held =>
        cases read
        exact ⟨file, lookup_of_entry found (Bool.eq_false_iff.mpr slashless), held⟩
      · contradiction

theorem create_run (d : Directory) (path : Text) :
    (storage.create path).run d =
      match d.create path with
      | .ok (file, after) => (.ok file, after)
      | .error error => (.error error.message, d) := by
  have asked : (storage.create path).run d =
      (match d.create path with
        | .ok (file, after) => do set after; return .ok file
        | .error error => return .error error.message :
          StateM Directory (Except String File)).run d := rfl
  rw [asked]
  cases d.create path <;> rfl

/-- Directories in memory are a storage as a system is one. -/
theorem lawful : view.Lawful storage where
  enter_dot _ _ := rfl
  entry_dots d here name dots := by
    simp only [List.mem_cons, List.not_mem_nil, or_false] at dots
    obtain rfl | rfl | rfl := dots
    · simp only [view, if_true]
      split <;> rfl
    · rfl
    · rfl
  isPresent d _ := .refl d
  read d _ := .refl d
  read_ok d path text read := by
    have found : d.read path = .ok text := by
      change (d.read path).mapError FileError.message = .ok text at read
      cases own : d.read path with
      | error error => simp [own, Except.mapError] at read
      | ok other => simpa [own, Except.mapError] using read
    exact Directory.read_ok found
  create_error d after path error failed := by
    rw [create_run] at failed
    split at failed
    · cases failed
    · cases failed; exact .refl d
  create_ok d after path file created := by
    rw [create_run] at created
    split at created
    next made => cases created; exact touched_create made
    · cases created
  fill d file text := d.sameBut_fill text file

end IndentMarkup.Directory
