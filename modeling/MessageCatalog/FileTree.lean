import MessageCatalog.Disk

/-!
# File trees

A disk held in memory: the files and directories below one directory, where
paths start. Paths may lead out of it, where nothing but directories around
it is known. The operations fail for the same reasons as those of a real
disk: every step of a path leaves a directory that exists.
-/

namespace MessageCatalog

/-- A file with its bytes, or a directory. -/
inductive FileEntry where
  | file (content : ByteArray)
  | directory

/-- The kind of an entry. -/
def FileEntry.kind : FileEntry → EntryKind
  | file _ => .file
  | directory => .directory

/-- A place: some levels above the directory where paths start, and from there
along names. -/
structure FilePlace where
  /-- How many levels to go up first. -/
  levels : Nat
  /-- The names on the way down. -/
  names : List String
  deriving DecidableEq

namespace FilePlace

/-- The directory where paths start. -/
def start : FilePlace := ⟨0, []⟩

/-- Where a path starts. The top of all directories is known only as one that
lies outside. -/
def base (path : String) : FilePlace := if Path.isAbsolute path then ⟨1, []⟩ else start

/-- The directory around a place. -/
def outer (place : FilePlace) : FilePlace :=
  if place.names.isEmpty then ⟨place.levels + 1, []⟩ else ⟨place.levels, place.names.dropLast⟩

/-- Go one step on: a dot stays, two dots go out, and a name goes in. -/
def step (place : FilePlace) (name : String) : FilePlace :=
  if name = "." then place
  else if name = ".." then place.outer
  else ⟨place.levels, place.names ++ [name]⟩

end FilePlace

/-- The files and directories around the one where paths start. -/
structure FileTree where
  /-- The entries with their places. -/
  entries : List (FilePlace × FileEntry)

namespace FileTree

/-- Nothing but the directory where paths start. -/
def empty : FileTree := ⟨[]⟩

/-- What is at a place. The directory where paths start exists, and so do those
around it. -/
def entry? (tree : FileTree) (place : FilePlace) : Option FileEntry :=
  if place.names.isEmpty then some .directory
  else (tree.entries.find? (·.1 == place)).map Prod.snd

/-- Put an entry at a place, instead of the one that is there. -/
def put (tree : FileTree) (place : FilePlace) (entry : FileEntry) : FileTree :=
  if tree.entries.any (·.1 == place) then
    ⟨tree.entries.map fun old => if old.1 == place then (place, entry) else old⟩
  else ⟨tree.entries ++ [(place, entry)]⟩

/-- Go from a place along the steps of a path. Every place that is left must be a
directory; the last one may not exist. -/
def walk (tree : FileTree) (place : FilePlace) : List String → Except DiskError FilePlace
  | [] => .ok place
  | step :: rest =>
    match tree.entry? place with
    | none => .error .notFound
    | some (.file _) => .error .notDirectory
    | some .directory => walk tree (place.step step) rest

/-- The place that a path names. -/
def find (tree : FileTree) (path : String) : Except DiskError FilePlace :=
  if path = "" then .error .notFound else tree.walk (.base path) (Path.steps path)

/-- The place that a path names, and what is there. A file may not be named like
a directory. -/
def locate (tree : FileTree) (path : String) :
    Except DiskError (FilePlace × FileEntry) :=
  match tree.find path with
  | .error fault => .error fault
  | .ok place =>
    match tree.entry? place with
    | none => .error .notFound
    | some (.file content) =>
      if Path.endsWithSlash path then .error .notDirectory else .ok (place, .file content)
    | some .directory => .ok (place, .directory)

/-- The bytes of a file. -/
def read (tree : FileTree) (path : String) : Except DiskError ByteArray :=
  match tree.locate path with
  | .error fault => .error fault
  | .ok (_, .file content) => .ok content
  | .ok (_, .directory) => .error .isDirectory

/-- The tree with other bytes in a file, which need not exist before. A path that
ends with a slash names no file, whether anything is there or not. -/
def write (tree : FileTree) (path : String) (content : ByteArray) : Except DiskError FileTree :=
  match tree.find path with
  | .error fault => .error fault
  | .ok place =>
    match Path.endsWithSlash path, tree.entry? place with
    | true, _ | _, some .directory => .error .isDirectory
    | false, _ => .ok (tree.put place (.file content))

/-- What a path names. -/
def kind (tree : FileTree) (path : String) : Except DiskError EntryKind :=
  (tree.locate path).map fun (_, entry) => entry.kind

/-- The names in the directory at a place. -/
def namesIn (tree : FileTree) (place : FilePlace) : List String :=
  tree.entries.filterMap fun (other, _) =>
    if other.outer == place then other.names.getLast? else none

/-- The names in a directory. -/
def list (tree : FileTree) (path : String) : Except DiskError (List String) :=
  match tree.locate path with
  | .error fault => .error fault
  | .ok (place, .directory) => .ok (tree.namesIn place)
  | .ok (_, .file _) => .error .notDirectory

/-- The tree with one more directory. -/
def makeDirectory (tree : FileTree) (path : String) : Except DiskError FileTree :=
  match tree.find path with
  | .error fault => .error fault
  | .ok place =>
    match tree.entry? place with
    | some _ => .error .alreadyExists
    | none => .ok (tree.put place .directory)

/-- The tree with one more directory, unless something is at its place. -/
def supply (tree : FileTree) (place : FilePlace) : FileTree :=
  match tree.entry? place with
  | some _ => tree
  | none => tree.put place .directory

/-- Put a file or directory somewhere, with the directories around it. -/
def place (tree : FileTree) (path : String) (entry : FileEntry) : FileTree :=
  let names := (Path.steps path).filter (· != ".")
  let around := (List.range names.length).map fun n => FilePlace.mk 0 (names.take n)
  (around.foldl supply tree).put ⟨0, names⟩ entry

/-- An operation that changes the tree or leaves it as it is. -/
def change (operation : FileTree → Except DiskError FileTree) :
    StateM FileTree (Except DiskError Unit) := fun tree =>
  match operation tree with
  | .ok changed => (.ok (), changed)
  | .error fault => (.error fault, tree)

/-- The tree as a disk. -/
def disk : Disk (StateM FileTree) where
  read path := fun tree => (tree.read path, tree)
  write path content := change fun tree => tree.write path content
  kind path := fun tree => (tree.kind path, tree)
  list path := fun tree => (tree.list path, tree)
  makeDirectory path := change fun tree => tree.makeDirectory path

/-- The files below the directory where paths start whose bytes are not those of
a tree before, with their bytes. -/
def changedSince (tree before : FileTree) : List (String × ByteArray) :=
  tree.entries.filterMap fun (place, entry) =>
    match entry with
    | .directory => none
    | .file content =>
      let same := match before.entry? place with
        | some (.file old) => old == content
        | _ => false
      if same || place.levels != 0 then none else some ("/".intercalate place.names, content)

end FileTree

end MessageCatalog
