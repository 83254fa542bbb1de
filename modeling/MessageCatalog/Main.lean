import MessageCatalog.Execution

/-!
# The program

The disk of the machine, and the program that runs on it.
-/

namespace MessageCatalog

/-- The reason that an operating system gives for a failure. -/
def DiskError.ofSystem : IO.Error → DiskError
  | .noFileOrDirectory .. => notFound
  | .alreadyExists .. => alreadyExists
  | .inappropriateType _ code _ =>
    if code = 20 then notDirectory
    else if code = 21 then isDirectory
    else other "Inappropriate type"
  | fault => other (toString fault)

/-- Carry out an operation and catch its failure. -/
def attempt (operation : IO α) : IO (Except DiskError α) := do
  try
    pure (.ok (← operation))
  catch fault => pure (.error (.ofSystem fault))

/-- The names in a directory. -/
def systemList (path : String) : IO (List String) := do
  let entries ← ((← IO.currentDir) / path).readDir
  return entries.toList.map fun entry => entry.fileName

/-- What a path names: a directory can be listed, a file can be opened. -/
def systemKind (path : String) : IO (Except DiskError EntryKind) := do
  match ← attempt (systemList path) with
  | .ok _ => pure (.ok .directory)
  | .error .notDirectory =>
    match ← attempt (IO.FS.Handle.mk path .read) with
    | .ok _ => pure (.ok .file)
    | .error fault => pure (.error fault)
  | .error fault => pure (.error fault)

/-- The disk of the machine. -/
def systemDisk : Disk IO where
  read path := attempt (IO.FS.readBinFile path)
  write path content := attempt (IO.FS.writeBinFile path content)
  kind := systemKind
  list path := attempt (systemList path)
  makeDirectory path := attempt (IO.FS.createDir path)

end MessageCatalog

/-- Run the program with the arguments it was started with. -/
def main (arguments : List String) : IO UInt32 := do
  let outcome ← MessageCatalog.runArguments MessageCatalog.systemDisk arguments
  (← IO.getStdout).putStr outcome.output
  (← IO.getStdout).flush
  (← IO.getStderr).putStr outcome.errors
  return outcome.code.toUInt32
