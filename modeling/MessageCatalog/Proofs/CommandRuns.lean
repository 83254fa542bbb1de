import MessageCatalog.Execution
import MessageCatalog.Proofs.ConfigurationFile
import MessageCatalog.Proofs.SurroundingDirectories

/-!
# Commands on a file tree

What commands have in common: the configuration is read before anything is done, a
catalog file is read without a change, and a catalog is saved by writing its document
behind the directories around it.
-/

namespace MessageCatalog

namespace FileTree

variable {tree ready after : FileTree}

/-- A file can be written under a path: the directories around it can be created,
and the path is not that of a directory. -/
def Writable (tree : FileTree) (path : String) : Prop :=
  ∃ ready place, tree.withDirectories (Path.parent path) = .ok ready ∧
    ready.find path = .ok place ∧ ready.entry? place ≠ some .directory ∧
    Path.endsWithSlash path = false

/-- A catalog is saved by writing its document behind the directories around it. -/
theorem saveCatalog_disk {path : String} {catalog : Catalog}
    (around : tree.withDirectories (Path.parent path) = .ok ready)
    (written : ready.write path catalog.toText.toUTF8 = .ok after) :
    Command.saveCatalog disk path catalog tree = (.ok (), after) := by
  have makes := withDirectories_eq_ok.mp around
  rw [Command.saveCatalog, Disk.run_bind, makes]
  dsimp only
  rw [Disk.run_bind, Catalog.save, Disk.run_bind, write_disk written]
  rfl

/-- A catalog is saved where a file can be written, and every other file keeps its bytes. -/
theorem saveCatalog_of_writable {path : String} (writable : tree.Writable path)
    (catalog : Catalog) :
    ∃ after, Command.saveCatalog disk path catalog tree = (.ok (), after) ∧
      after.read path = .ok catalog.toText.toUTF8 ∧
      ∀ other bytes, tree.read other = .ok bytes → after.find other ≠ after.find path →
        after.read other = .ok bytes := by
  obtain ⟨ready, place, around, found, free, file⟩ := writable
  have written := write_of_free found free file catalog.toText.toUTF8
  refine ⟨_, saveCatalog_disk around written, read_of_write written, fun other bytes read differs => ?_⟩
  obtain ⟨there, led, entry, file'⟩ := read_eq_ok.mp read
  have grows := withDirectories_extends around
  have kept : ready.read other = .ok bytes :=
    read_eq_ok.mpr ⟨there, find_of_keeps grows.keeps led, grows there _ entry, file'⟩
  exact read_other_of_write written kept differs

/-- What is read of a catalog file. -/
def report (tree : FileTree) (policy : Policy) (path : String) : Except Reasons Report :=
  match tree.read path with
  | .error cause => .error ["failed to read " ++ path, cause.message]
  | .ok bytes =>
    match Report.ofBytes policy bytes with
    | .error fault => .error (("failed to parse " ++ path) :: fault.reasons)
    | .ok report => .ok report

variable {policy : Policy} {path : String} {bytes : ByteArray}

/-- A file that is a catalog under the policy is read as the catalog. -/
theorem report_of_parsed {report : Report} (read : tree.read path = .ok bytes)
    (parsed : Report.ofBytes policy bytes = .ok report) : tree.report policy path = .ok report := by
  rw [FileTree.report, read]
  dsimp only
  rw [parsed]

/-- A file that is none under the policy is told with the fault. -/
theorem report_of_unparsed {fault : CatalogError} (read : tree.read path = .ok bytes)
    (unparsed : Report.ofBytes policy bytes = .error fault) :
    tree.report policy path = .error (("failed to parse " ++ path) :: fault.reasons) := by
  rw [FileTree.report, read]
  dsimp only
  rw [unparsed]

/-- A file that cannot be read is told with the cause. -/
theorem report_of_unread {cause : DiskError} (unread : tree.read path = .error cause)
    (policy : Policy) :
    tree.report policy path = .error ["failed to read " ++ path, cause.message] := by
  rw [FileTree.report, unread]

/-- Reading a catalog file changes nothing. -/
theorem loadReport_disk (tree : FileTree) (policy : Policy) (path : String) :
    Command.loadReport disk policy path tree = (tree.report policy path, tree) := by
  have reads : disk.read path tree = (tree.read path, tree) := rfl
  rw [Command.loadReport, Disk.run_bind, reads, report]
  cases tree.read path with
  | error cause => rfl
  | ok bytes =>
    dsimp only
    cases Report.ofBytes policy bytes <;> rfl

/-- The configuration is read first, and reading it changes nothing. -/
theorem run_invocation (named : Option String) (command : Command) (tree : FileTree) :
    Invocation.run disk ⟨named, command⟩ tree =
      match tree.configuration named with
      | .error fault => (.failure "" "" fault.reasons, tree)
      | .ok settings => command.run disk settings tree := by
  unfold Invocation.run
  dsimp only
  cases named with
  | some path =>
    dsimp only
    rw [Disk.run_bind, load_disk, configuration]
    cases tree.configurationIn path <;> rfl
  | none =>
    dsimp only
    rw [Disk.run_bind, loadOrDefault_disk]
    cases tree.configuration none <;> rfl

end FileTree

end MessageCatalog
