import IndentMarkup.CommandLine.Device
import IndentMarkup.CommandLine.Storage
import IndentMarkup.Text.Basic

/-!
# Directories in memory

A directory tree as the command line tool sees it: files by the names on the way to
them. Names are looked up as a system does it, so every name but the last has to be that
of a folder. Of the system around the tree, only the folders at its root and the devices
are known.
-/

namespace IndentMarkup

structure Directory where
  /-- A file without a text holds bytes that encode none. -/
  files : List (List Text × Option Text)
  /-- Further names of files, each with the name that the file is listed by. -/
  links : List (List Text × List Text) := []
  folders : List (List Text) := []
  /-- How many more characters files can be given, if there is a limit. -/
  room : Option Nat := none
  /-- What the two devices for output were given. -/
  stdout : Text := []
  stderr : Text := []
  deriving DecidableEq, Repr

namespace Directory

inductive File where
  | kept (key : List Text)
  | device (device : Device)
  deriving DecidableEq, Repr

/-- What a path leads to. -/
inductive Entry where
  | folder (way : List Text)
  | file (file : File)
  /-- A name that is free in a folder that is there. -/
  | vacant (key : List Text)
  deriving DecidableEq, Repr

def parent : Text := ['.', '.']

/-- Ways from the root of the system begin with an empty name, as their paths do. -/
def root : List Text := [[]]

/-- The way to a folder's own folder. The root is in itself. Above the top, such steps
pile up. -/
def up (here : List Text) : List Text :=
  if here.all (· = parent) then parent :: here
  else if here = root then here
  else here.dropLast

/-- Not in the tree, but in the system around it. -/
def isOutside (key : List Text) : Bool :=
  key.head? = some parent || key.head? = some []

def systemFolders : List String :=
  ["bin", "boot", "dev", "etc", "home", "lib", "media", "mnt", "opt", "proc", "root", "run",
   "sbin", "srv", "sys", "tmp", "usr", "var"]

def isSystemFolder : List Text → Bool
  | [[]] => true
  | [[], name] => systemFolders.any (·.toList = name)
  | _ => false

def device? : List Text → Option Device
  | [[], folder, name] => if folder = ['d', 'e', 'v'] then Device.ofName? name else none
  | _ => none

def file? (d : Directory) (key : List Text) : Option (Option Text) :=
  d.files.lookup key

def names (d : Directory) : List (List Text) :=
  d.files.map Prod.fst ++ d.links.map Prod.fst

/-- A folder is there if it is listed, if something listed is in it, if it is above the
top, or if it is the system's. -/
def isFolder (d : Directory) (way : List Text) : Bool :=
  d.folders.any (way.isPrefixOf ·) ||
    d.names.any (fun name => way.isPrefixOf name && way.length < name.length) ||
    way.all (· = parent) || isSystemFolder way

/-- The file that has the name. -/
def named? (d : Directory) (name : List Text) : Option File :=
  match device? name with
  | some device => some (.device device)
  | none =>
    let key := if (d.file? name).isSome then some name else d.links.lookup name
    (key.filter fun key => (d.file? key).isSome).map .kept

/-- In bytes of UTF-8. -/
def byteSize (text : Text) : Nat :=
  text.foldl (fun size c => size + c.utf8Size) 0

/-- The size of the longest name. -/
def maxNameSize : Nat := 255

/-- The size of the longest path. -/
def maxPathSize : Nat := 4095

/-- What a folder has under a name. -/
def find (d : Directory) (here : List Text) (name : Text) : Except FileError Entry :=
  if name = ['.'] then .ok (.folder here)
  else if name = parent then .ok (.folder (up here))
  else if maxNameSize < byteSize name then .error .nameTooLong
  else
    let way := here ++ [name]
    if d.isFolder way then .ok (.folder way)
    else match d.named? way with
      | some file => .ok (.file file)
      | none => .ok (.vacant way)

def walk (d : Directory) (here : List Text) : List Text → Except FileError Entry
  | [] => .ok (.folder here)
  | name :: more => do
    match ← d.find here name with
    | .folder next => walk d next more
    | .file file => if more = [] then .ok (.file file) else .error .notDirectory
    | .vacant key => if more = [] then .ok (.vacant key) else .error .noEntry

/-- What a path leads to. -/
def entry (d : Directory) (path : Text) : Except FileError Entry :=
  let names := (path.splitOn '/').filter (· ≠ [])
  if maxPathSize < byteSize path then .error .nameTooLong
  else match path with
    | [] => .error .noEntry
    | '/' :: _ => d.walk root names
    | _ => d.walk [] names

def endsInSlash (path : Text) : Bool :=
  path.getLast? = some '/'

def isPresent (d : Directory) (path : Text) : Bool :=
  match d.entry path with
  | .ok (.folder _) => true
  | .ok (.file _) => !endsInSlash path
  | _ => false

/-- What a file holds. Devices read as empty. -/
def held (d : Directory) : File → Option (Option Text)
  | .kept key => d.file? key
  | .device _ => some (some [])

def read (d : Directory) (path : Text) : Except FileError Text :=
  match d.entry path with
  | .error error => .error error
  | .ok (.folder _) => .error .isDirectory
  | .ok (.vacant _) => .error .noEntry
  | .ok (.file file) =>
    if endsInSlash path then .error .notDirectory
    else match d.held file with
      | some (some text) => .ok text
      | _ => .error .notText

def make (d : Directory) (key : List Text) : Directory :=
  { d with files := (key, some []) :: d.files }

def overwrite (d : Directory) (key : List Text) (text : Text) : Directory :=
  { d with files := d.files.map fun (name, held) => (name, if name = key then some text else held) }

def create (d : Directory) (path : Text) : Except FileError (File × Directory) :=
  match d.entry path with
  | .error error => .error error
  | .ok entry =>
    if endsInSlash path then .error .isDirectory
    else match entry with
      | .folder _ => .error .isDirectory
      | .file (.device device) => .ok (.device device, d)
      | .file (.kept key) => .ok (.kept key, d.overwrite key [])
      | .vacant key => .ok (.kept key, d.make key)

def send (d : Directory) (text : Text) : Device → Except FileError Unit × Directory
  | .null => (.ok (), d)
  | .full => (if text = [] then .ok () else .error .noSpace, d)
  | .stdout => (.ok (), { d with stdout := d.stdout ++ text })
  | .stderr => (.ok (), { d with stderr := d.stderr ++ text })

/-- Without room for all of the text, a file gets what there is room for. -/
def fill (d : Directory) (text : Text) : File → Except FileError Unit × Directory
  | .device device => d.send text device
  | .kept key =>
    match d.room with
    | none => (.ok (), d.overwrite key text)
    | some room =>
      (if text.length ≤ room then .ok () else .error .noSpace,
        { d.overwrite key (text.take room) with room := some (room - text.length) })

/-- A directory as the storage of a call. -/
def storage : Storage (StateM Directory) File where
  isPresent path := return (← get).isPresent path
  read path := return ((← get).read path).mapError FileError.message
  create path := do
    match (← get).create path with
    | .ok (file, after) => set after; return .ok file
    | .error error => return .error error.message
  fill file text := do
    let (result, after) := (← get).fill text file
    set after
    return result.mapError FileError.message

end Directory

end IndentMarkup
