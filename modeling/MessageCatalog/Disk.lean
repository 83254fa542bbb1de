/-!
# Disks

Paths are texts whose parts slashes separate; they are split and joined without
looking at any disk. The file operations that the program needs are those of a
disk, in whatever way they are carried out, with the reasons why they fail in
the sentences in which an operating system tells them. Whatever is built on
them is a function of their answers.
-/

namespace MessageCatalog

/-! ## Paths -/

namespace Path

/-- The parts between slashes; empty ones count. -/
def pieces (path : String) : List String := (path.toList.splitOn '/').map String.ofList

/-- Whether a part leads nowhere: it is empty or the place where one is. -/
def isIdle (piece : String) : Bool := piece == "" || piece == "."

/-- The parts that are not empty, each a step on the way that a path names. -/
def steps (path : String) : List String := (pieces path).filter (· != "")

/-- Whether a path starts at the top of all directories. -/
def isAbsolute (path : String) : Bool := path.toList.head? == some '/'

/-- Whether a path asks for a directory by ending with a slash. -/
def endsWithSlash (path : String) : Bool := path.toList.getLast? == some '/'

/-- The path that another path names from a directory on; an absolute one names
the same from everywhere. -/
def join (directory name : String) : String :=
  if isAbsolute name then name
  else if directory = "" ∨ endsWithSlash directory then directory ++ name
  else directory ++ "/" ++ name

/-- Leave out the last step, with the idle parts around it. -/
def parent (path : String) : String :=
  let outer := (((pieces path).reverse.dropWhile isIdle).drop 1).dropWhile isIdle
  "/".intercalate outer.reverse

/-- A path and the directories around it, innermost first, as many as it has
parts. -/
def outward (count : Nat) (path : String) : List String :=
  match count with
  | 0 => []
  | count + 1 => if path = "" then [] else path :: outward count (parent path)

/-- A path and all directories around it, innermost first. -/
def ancestors (path : String) : List String := outward path.length path

/-- The extension of a name: what stands behind its last dot, unless that dot is
the first character. -/
def extension? (name : String) : Option String :=
  let reversed := name.toList.reverse
  let ending := reversed.takeWhile (· != '.')
  match reversed.dropWhile (· != '.') with
  | [] => none
  | _ :: stem => if stem.isEmpty then none else some (String.ofList ending.reverse)

end Path

/-! ## File operations -/

/-- Why a file operation fails. -/
inductive DiskError where
  /-- Nothing exists under the path. -/
  | notFound
  /-- Something exists already under the path. -/
  | alreadyExists
  /-- A part of the path is a file. -/
  | notDirectory
  /-- The path names a directory. -/
  | isDirectory
  /-- Any other reason. -/
  | other (description : String)
  deriving DecidableEq

/-- The sentence that tells a fault. -/
def DiskError.message : DiskError → String
  | notFound => "No such file or directory (os error 2)"
  | alreadyExists => "File exists (os error 17)"
  | notDirectory => "Not a directory (os error 20)"
  | isDirectory => "Is a directory (os error 21)"
  | other description => description

/-- What a path may name. -/
inductive EntryKind where
  | file
  | directory
  deriving DecidableEq

/-- File operations. -/
structure Disk (m : Type → Type) where
  /-- The bytes of a file. -/
  read : String → m (Except DiskError ByteArray)
  /-- Create a file or replace its bytes. -/
  write : String → ByteArray → m (Except DiskError Unit)
  /-- What a path names. -/
  kind : String → m (Except DiskError EntryKind)
  /-- The names in a directory, in any order. -/
  list : String → m (Except DiskError (List String))
  /-- Create a directory inside an existing one. -/
  makeDirectory : String → m (Except DiskError Unit)

namespace Disk

variable {m : Type → Type} [Monad m]

/-- Two operations on a state are carried out one behind the other. -/
theorem run_bind {σ α β : Type} (first : StateM σ α) (next : α → StateM σ β) (state : σ) :
    (first >>= next) state = next (first state).1 (first state).2 := rfl

/-- Whether a path names a directory. -/
def isDirectory (disk : Disk m) (path : String) : m Bool := do
  match ← disk.kind path with
  | .ok .directory => pure true
  | _ => pure false

/-- Whether a path names a file. -/
def isFile (disk : Disk m) (path : String) : m Bool := do
  match ← disk.kind path with
  | .ok .file => pure true
  | _ => pure false

/-- Create the first of some directories, each of which lies in the next. One
that exists will do; the ones around it are created when they are missing. -/
def makeOutward (disk : Disk m) : List String → m (Except DiskError Unit)
  | [] => pure (.ok ())
  | path :: outer => do
    match ← disk.makeDirectory path with
    | .ok () => pure (.ok ())
    | .error .notFound =>
      match ← makeOutward disk outer with
      | .error fault => pure (.error fault)
      | .ok () =>
        match ← disk.makeDirectory path with
        | .ok () => pure (.ok ())
        | .error fault => if ← disk.isDirectory path then pure (.ok ()) else pure (.error fault)
    | .error fault => if ← disk.isDirectory path then pure (.ok ()) else pure (.error fault)

/-- Create a directory with all that are missing around it. -/
def makeDirectories (disk : Disk m) (path : String) : m (Except DiskError Unit) :=
  disk.makeOutward (Path.ancestors path)

end Disk

end MessageCatalog
