import MessageCatalog.Proofs.CommandRuns
import MessageCatalog.Proofs.Pruning
import MessageCatalog.Proofs.RoundTrip
import MessageCatalog.Proofs.Utf8Text

/-!
# Rewriting catalogs

Normalizing and pruning put the document of a catalog in place of the one that
the catalog was read from. Unless all that was read is fine, they change nothing
and print nothing. Otherwise the destination receives the document, which is
read back as it is, and rewriting it once more gives the same bytes.
-/

namespace MessageCatalog

namespace Report

/-- The bytes of a written catalog are read as the catalog under every policy. -/
theorem ofBytes_written (policy : Policy) (catalog : Catalog) :
    ofBytes policy catalog.toText.toUTF8 = .ok ⟨catalog, []⟩ := by
  rw [ofBytes, Utf8.decode_eq_ok_iff.mpr rfl]
  exact ofText_written policy catalog

end Report

/-- The commands that rewrite a catalog. -/
inductive Rewriting where
  /-- Write the catalog as it is. -/
  | normalizing
  /-- Write the catalog without the messages that are history. -/
  | pruning

/-- The file that a rewritten catalog goes to, if it goes to one. -/
def Destination.path? (input : String) : Destination → Option String
  | output => none
  | inPlace => some input
  | file path => some path

namespace Rewriting

/-- What becomes of a catalog. -/
def change : Rewriting → Catalog → Catalog
  | normalizing => id
  | pruning => Catalog.pruned

/-- The command. -/
def command (rewriting : Rewriting) (input : String) (destination : Destination) : Command :=
  match rewriting with
  | normalizing => .normalize input destination
  | pruning => .prune input destination

/-- Run the program with the command, and maybe with a configuration file that is named. -/
def run (rewriting : Rewriting) (named : Option String) (input : String)
    (destination : Destination) (tree : FileTree) : Outcome × FileTree :=
  Invocation.run FileTree.disk ⟨named, rewriting.command input destination⟩ tree

/-- What was changed once is not changed again. -/
theorem change_change (rewriting : Rewriting) (catalog : Catalog) :
    rewriting.change (rewriting.change catalog) = rewriting.change catalog := by
  cases rewriting with
  | normalizing => rfl
  | pruning => exact catalog.pruned_pruned

/-- Why a catalog is not rewritten. -/
inductive Refused (tree : FileTree) (named : Option String) (input : String) : Prop
  /-- There is no configuration. -/
  | unconfigured {fault : ConfigurationError} (unloaded : tree.configuration named = .error fault)
  /-- The file cannot be read. -/
  | unreadable {settings : Configuration} {cause : DiskError}
    (loaded : tree.configuration named = .ok settings) (unread : tree.read input = .error cause)
  /-- The file is no catalog under the configured policy. -/
  | unparsable {settings : Configuration} {bytes : ByteArray} {fault : CatalogError}
    (loaded : tree.configuration named = .ok settings) (read : tree.read input = .ok bytes)
    (unparsed : Report.ofBytes settings.policy bytes = .error fault)
  /-- Something in the file is not part of the catalog. -/
  | irregular {settings : Configuration} {bytes : ByteArray} {report : Report}
    (loaded : tree.configuration named = .ok settings) (read : tree.read input = .ok bytes)
    (parsed : Report.ofBytes settings.policy bytes = .ok report) (warned : report.warnings ≠ [])

/-- The catalog in a file is read without a warning. -/
def Accepted (tree : FileTree) (named : Option String) (input : String) (catalog : Catalog) : Prop :=
  ∃ settings bytes, tree.configuration named = .ok settings ∧ tree.read input = .ok bytes ∧
    Report.ofBytes settings.policy bytes = .ok ⟨catalog, []⟩

variable {rewriting : Rewriting} {tree : FileTree} {named : Option String} {input : String}
  {destination : Destination} {catalog : Catalog}

/-- A catalog is rewritten, or there is a reason why not. -/
theorem refused_or_accepted (tree : FileTree) (named : Option String) (input : String) :
    Refused tree named input ∨ ∃ catalog, Accepted tree named input catalog := by
  cases loaded : tree.configuration named with
  | error fault => exact .inl (.unconfigured loaded)
  | ok settings =>
    cases read : tree.read input with
    | error cause => exact .inl (.unreadable loaded read)
    | ok bytes =>
      cases parsed : Report.ofBytes settings.policy bytes with
      | error fault => exact .inl (.unparsable loaded read parsed)
      | ok report =>
        obtain ⟨catalog, warnings⟩ := report
        cases warnings with
        | nil => exact .inr ⟨catalog, settings, bytes, loaded, read, parsed⟩
        | cons first rest => exact .inl (.irregular loaded read parsed (List.cons_ne_nil first rest))

/-- The configuration is read first. -/
theorem run_eq (rewriting : Rewriting) (named : Option String) (input : String)
    (destination : Destination) (tree : FileTree) :
    rewriting.run named input destination tree =
      match tree.configuration named with
      | .error fault => (.failure "" "" fault.reasons, tree)
      | .ok settings =>
        Command.runTransform FileTree.disk settings rewriting.change input destination tree := by
  have goes (settings : Configuration) : Command.run FileTree.disk settings
      (rewriting.command input destination) =
        Command.runTransform FileTree.disk settings rewriting.change input destination := by
    cases rewriting <;> rfl
  rw [run, FileTree.run_invocation]
  cases tree.configuration named with
  | error fault => rfl
  | ok settings => exact congrFun (goes settings) tree

/-- Then the catalog file is read, and only a catalog without warnings is written. -/
theorem runTransform_disk (settings : Configuration) (change : Catalog → Catalog) (input : String)
    (destination : Destination) (tree : FileTree) :
    Command.runTransform FileTree.disk settings change input destination tree =
      match tree.report settings.policy input with
      | .error reasons => (.failure "" "" reasons, tree)
      | .ok report =>
        if report.warnings.isEmpty then
          match destination.path? input with
          | none => (.success (change report.catalog).toText, tree)
          | some path =>
            match Command.saveCatalog FileTree.disk path (change report.catalog) tree with
            | (.error reasons, after) => (.failure "" "" reasons, after)
            | (.ok (), after) => (.success "", after)
        else
          (.failure "" (Command.warningLines input report.warnings)
            ["refusing to rewrite " ++ input ++ ": " ++ report.warnings.length.repr ++
              " schema warning(s) would drop content"], tree) := by
  unfold Command.runTransform
  rw [Disk.run_bind, FileTree.loadReport_disk]
  cases tree.report settings.policy input with
  | error reasons => rfl
  | ok report =>
    dsimp only
    cases report.warnings.isEmpty with
    | false => rfl
    | true =>
      simp only [if_true]
      cases destination with
      | output => rfl
      | inPlace | file path =>
        dsimp only [Destination.path?]
        rw [Disk.run_bind]
        generalize Command.saveCatalog FileTree.disk _ (change report.catalog) tree = saved
        obtain ⟨_ | _, after⟩ := saved <;> rfl

/-- What is refused ends with exit code 1, prints nothing but its reasons and changes
nothing. -/
theorem run_refused (h : Refused tree named input) :
    ∃ errors, rewriting.run named input destination tree = (⟨1, "", errors⟩, tree) := by
  rw [run_eq]
  cases h with
  | unconfigured unloaded =>
    rw [unloaded]
    exact ⟨_, rfl⟩
  | unreadable loaded unread =>
    rw [loaded]
    dsimp only
    rw [runTransform_disk, FileTree.report_of_unread unread]
    exact ⟨_, rfl⟩
  | unparsable loaded read unparsed =>
    rw [loaded]
    dsimp only
    rw [runTransform_disk, FileTree.report_of_unparsed read unparsed]
    exact ⟨_, rfl⟩
  | irregular loaded read parsed warned =>
    rw [loaded]
    dsimp only
    rw [runTransform_disk, FileTree.report_of_parsed read parsed]
    dsimp only
    rw [if_neg (by simpa using warned)]
    exact ⟨_, rfl⟩

/-- A run puts a document where it belongs: it prints the document, or it writes the
document to the file, if it can be written, and leaves every other file as it was. -/
def Delivers (rewriting : Rewriting) (named : Option String) (input : String)
    (destination : Destination) (tree : FileTree) (document : String) : Prop :=
  match destination.path? input with
  | none => rewriting.run named input destination tree = (.success document, tree)
  | some path => tree.Writable path → ∃ after,
    rewriting.run named input destination tree = (.success "", after) ∧
      after.read path = .ok document.toUTF8 ∧
      ∀ other bytes, tree.read other = .ok bytes → after.find other ≠ after.find path →
        after.read other = .ok bytes

/-- What is accepted goes on to be written. -/
theorem run_accepted (rewriting : Rewriting) (destination : Destination)
    (h : Accepted tree named input catalog) :
    rewriting.run named input destination tree =
      match destination.path? input with
      | none => (.success (rewriting.change catalog).toText, tree)
      | some path =>
        match Command.saveCatalog FileTree.disk path (rewriting.change catalog) tree with
        | (.error reasons, after) => (.failure "" "" reasons, after)
        | (.ok (), after) => (.success "", after) := by
  obtain ⟨settings, bytes, loaded, read, parsed⟩ := h
  rw [run_eq, loaded]
  dsimp only
  rw [runTransform_disk, FileTree.report_of_parsed read parsed]
  dsimp only
  rw [List.isEmpty_nil, if_pos rfl]
  cases destination.path? input with
  | none => rfl
  | some path =>
    dsimp only
    generalize Command.saveCatalog FileTree.disk path (rewriting.change catalog) tree = saved
    obtain ⟨_ | _, after⟩ := saved <;> rfl

/-- What is accepted is delivered. -/
theorem delivers_of_accepted (rewriting : Rewriting) (destination : Destination)
    (h : Accepted tree named input catalog) :
    Delivers rewriting named input destination tree (rewriting.change catalog).toText := by
  have ran := run_accepted rewriting destination h
  unfold Delivers
  cases goes : destination.path? input with
  | none =>
    rw [goes] at ran
    exact ran
  | some path =>
    rw [goes] at ran
    intro writable
    obtain ⟨after, saved, read, others⟩ :=
      FileTree.saveCatalog_of_writable writable (rewriting.change catalog)
    dsimp only at ran
    rw [saved] at ran
    exact ⟨after, ran, read, others⟩

/-- A catalog that was rewritten in place is rewritten in place without a change. -/
theorem run_inPlace (h : Accepted tree named input catalog) :
    ∃ after, rewriting.run named input .inPlace tree = (.success "", after) ∧
      after.read input = .ok (rewriting.change catalog).toText.toUTF8 ∧
      rewriting.run named input .inPlace after = (.success "", after) := by
  have first := run_accepted rewriting .inPlace h
  obtain ⟨settings, bytes, loaded, read, parsed⟩ := h
  obtain ⟨place, found, entry, file⟩ := FileTree.read_eq_ok.mp read
  have written := FileTree.write_of_free found (by simp [entry]) file
    (rewriting.change catalog).toText.toUTF8
  have stored := FileTree.read_of_write written
  have again : Accepted _ named input (rewriting.change catalog) :=
    ⟨settings, _, FileTree.configuration_of_write loaded read parsed written, stored,
      Report.ofBytes_written _ _⟩
  have second := run_accepted rewriting .inPlace again
  rw [rewriting.change_change] at second
  dsimp only [Destination.path?] at first second
  rw [FileTree.saveCatalog_disk (FileTree.withDirectories_of_read read) written] at first
  rw [FileTree.saveCatalog_disk (FileTree.withDirectories_of_read stored)
    (FileTree.write_again written)] at second
  exact ⟨_, first, stored, second⟩

/-- The rewriting commands are all or nothing, and what they write is canonical.
Either there is a reason why a catalog is refused, and nothing is printed or
changed, or the destination receives the document of the changed catalog. This
document is read back strictly as the same catalog, and whenever a configuration
can be loaded, rewriting the document delivers the same bytes again. In place a
catalog can always be rewritten, and the second time nothing changes. -/
theorem all_or_nothing (rewriting : Rewriting) (named : Option String) (input : String)
    (destination : Destination) (tree : FileTree) :
    (Refused tree named input ∨ ∃ catalog, Accepted tree named input catalog) ∧
    (Refused tree named input →
      ∃ errors, rewriting.run named input destination tree = (⟨1, "", errors⟩, tree)) ∧
    ∀ catalog, Accepted tree named input catalog →
      Delivers rewriting named input destination tree (rewriting.change catalog).toText ∧
      Report.ofText .strict (rewriting.change catalog).toText =
        .ok ⟨rewriting.change catalog, []⟩ ∧
      (∀ tree' named' input' destination' settings, tree'.configuration named' = .ok settings →
        tree'.read input' = .ok (rewriting.change catalog).toText.toUTF8 →
        Delivers rewriting named' input' destination' tree' (rewriting.change catalog).toText) ∧
      (destination = .inPlace → ∃ after,
        rewriting.run named input destination tree = (.success "", after) ∧
          after.read input = .ok (rewriting.change catalog).toText.toUTF8 ∧
          rewriting.run named input destination after = (.success "", after)) := by
  refine ⟨refused_or_accepted tree named input, run_refused, fun catalog accepted => ?_⟩
  refine ⟨delivers_of_accepted rewriting destination accepted, ?_, ?_, ?_⟩
  · exact Report.ofText_written .strict _
  · intro tree' named' input' destination' settings loaded read
    have again : Accepted tree' named' input' (rewriting.change catalog) :=
      ⟨settings, _, loaded, read, Report.ofBytes_written _ _⟩
    have delivered := delivers_of_accepted rewriting destination' again
    rw [rewriting.change_change] at delivered
    exact delivered
  · rintro rfl
    exact run_inPlace accepted

end Rewriting

end MessageCatalog
