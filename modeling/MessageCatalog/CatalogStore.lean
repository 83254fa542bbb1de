import MessageCatalog.CatalogReader
import MessageCatalog.CatalogWriter
import MessageCatalog.Disk
import MessageCatalog.TranslatorSet

/-!
# Catalogs on disk

Reading and writing catalog files, and reading all catalogs of a directory.
A directory is read in the order of the file names, whatever order the disk
lists them in, and the first file that fails decides.
-/

namespace MessageCatalog

variable {m : Type → Type} [Monad m]

namespace Catalog

/-- Read a catalog file under the lenient policy. -/
def load (disk : Disk m) (path : String) : m (Except CatalogError Catalog) := do
  match ← disk.read path with
  | .error cause => pure (.error (.unreadable path cause))
  | .ok bytes => pure ((Report.ofBytes .lenient bytes).map Report.catalog)

/-- Write a catalog file. -/
def save (disk : Disk m) (path : String) (catalog : Catalog) : m (Except CatalogError Unit) := do
  match ← disk.write path catalog.toText.toUTF8 with
  | .error cause => pure (.error (.unwritable path cause))
  | .ok () => pure (.ok ())

end Catalog

namespace TranslatorSet

/-- Whether a name is that of a catalog file. -/
def isCatalogName (name : String) : Bool := Path.extension? name == some "ts"

/-- Add the catalog in the bytes of a file. -/
def insertFile (policy : Policy) (includeUnfinished : Bool) (set : TranslatorSet)
    (path : String) (bytes : ByteArray) : Except CatalogError TranslatorSet :=
  match Report.ofBytes policy bytes with
  | .error fault => .error fault
  | .ok report =>
    match report.catalog.language with
    | none => .error (.missingLanguage path)
    | some _ =>
      match Translator.ofCatalog report.catalog includeUnfinished with
      | .error fault => .error fault
      | .ok translator => set.insert translator

/-- Add the catalogs in some files, in their order. -/
def insertFiles (disk : Disk m) (policy : Policy) (includeUnfinished : Bool)
    (set : TranslatorSet) : List String → m (Except CatalogError TranslatorSet)
  | [] => pure (.ok set)
  | path :: rest => do
    match ← disk.read path with
    | .error cause => pure (.error (.unreadable path cause))
    | .ok bytes =>
      match set.insertFile policy includeUnfinished path bytes with
      | .error fault => pure (.error fault)
      | .ok set => insertFiles disk policy includeUnfinished set rest

/-- The catalog files among some names of a directory, in the order of the
names. -/
def catalogFiles (disk : Disk m) (directory : String) (names : List String) :
    m (List String) :=
  ((names.filter isCatalogName).mergeSort (· ≤ ·)).filterMapM fun name => do
    let path := Path.join directory name
    if ← disk.isFile path then pure (some path) else pure none

/-- Read every catalog file of a directory; there are none in one that does not
exist. -/
def loadDirectory (disk : Disk m) (policy : Policy) (includeUnfinished : Bool)
    (directory : String) : m (Except CatalogError TranslatorSet) := do
  match ← disk.list directory with
  | .error .notFound => pure (.ok empty)
  | .error cause => pure (.error (.unlistable directory cause))
  | .ok names =>
    insertFiles disk policy includeUnfinished empty (← catalogFiles disk directory names)

end TranslatorSet

end MessageCatalog
