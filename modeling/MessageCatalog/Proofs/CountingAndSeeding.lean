import Mathlib.Data.List.Forall2
import MessageCatalog.Proofs.JsonPrinting
import MessageCatalog.Proofs.Rewriting
import MessageCatalog.Proofs.SeedingAndPruning

/-!
# Files that are counted and files that are seeded

Counting goes through all files before it prints anything: either each of them has an
entry, in their order, or nothing is printed. The entry of a file says the same in a line
of text and in JSON, where it is read back from the text that is printed. Seeding reads one catalog and writes another, and it does not touch
the disk before it knows what to write.
-/

namespace MessageCatalog

namespace FileTree

/-- A file can be read and is a catalog under the policy. -/
def HasCatalog (tree : FileTree) (policy : Policy) (path : String) (catalog : Catalog) : Prop :=
  ∃ bytes warnings, tree.read path = .ok bytes ∧
    Report.ofBytes policy bytes = .ok ⟨catalog, warnings⟩

/-- There is no catalog in a file. -/
inductive LacksCatalog (tree : FileTree) (policy : Policy) (path : String) : Prop
  /-- The file cannot be read. -/
  | unreadable {cause : DiskError} (unread : tree.read path = .error cause)
  /-- The file is no catalog under the policy. -/
  | unparsable {bytes : ByteArray} {fault : CatalogError} (read : tree.read path = .ok bytes)
    (unparsed : Report.ofBytes policy bytes = .error fault)

variable {tree : FileTree} {policy : Policy} {path : String} {catalog : Catalog}

/-- A file has a catalog or lacks one. -/
theorem hasCatalog_or_lacksCatalog (tree : FileTree) (policy : Policy) (path : String) :
    (∃ catalog, tree.HasCatalog policy path catalog) ∨ tree.LacksCatalog policy path := by
  cases read : tree.read path with
  | error cause => exact .inr (.unreadable read)
  | ok bytes =>
    cases parsed : Report.ofBytes policy bytes with
    | error fault => exact .inr (.unparsable read parsed)
    | ok report => exact .inl ⟨report.catalog, bytes, report.warnings, read, parsed⟩

/-- The catalog of a file is reported. -/
theorem HasCatalog.report (has : tree.HasCatalog policy path catalog) :
    ∃ warnings, tree.report policy path = .ok ⟨catalog, warnings⟩ := by
  obtain ⟨bytes, warnings, read, parsed⟩ := has
  exact ⟨warnings, report_of_parsed read parsed⟩

/-- It is told why a file lacks a catalog. -/
theorem LacksCatalog.report (lacks : tree.LacksCatalog policy path) :
    ∃ reasons, tree.report policy path = .error reasons := by
  cases lacks with
  | unreadable unread => exact ⟨_, report_of_unread unread policy⟩
  | unparsable read unparsed => exact ⟨_, report_of_unparsed read unparsed⟩

/-- The first of some files is read before the others, and reading changes nothing. -/
theorem loadAll_cons (tree : FileTree) (policy : Policy) (path : String) (rest : List String) :
    Command.loadAll disk policy (path :: rest) tree =
      match tree.report policy path with
      | .error reasons => (.error reasons, tree)
      | .ok report =>
        match Command.loadAll disk policy rest tree with
        | (.error reasons, after) => (.error reasons, after)
        | (.ok others, after) => (.ok ((path, report.catalog) :: others), after) := by
  rw [Command.loadAll, Disk.run_bind, loadReport_disk]
  cases tree.report policy path with
  | error reasons => rfl
  | ok report =>
    dsimp only
    rw [Disk.run_bind]
    rcases Command.loadAll disk policy rest tree with ⟨_ | _, after⟩ <;> rfl

/-- If one of the files lacks a catalog, none is read. -/
theorem loadAll_of_lacks {paths : List String} (member : path ∈ paths)
    (lacks : tree.LacksCatalog policy path) :
    ∃ reasons, Command.loadAll disk policy paths tree = (.error reasons, tree) := by
  induction paths with
  | nil => exact absurd member List.not_mem_nil
  | cons first rest ih =>
    rw [loadAll_cons]
    rcases List.mem_cons.mp member with rfl | later
    · obtain ⟨reasons, reported⟩ := lacks.report
      exact ⟨reasons, by rw [reported]⟩
    · obtain ⟨reasons, fails⟩ := ih later
      rw [fails]
      cases tree.report policy first with
      | error own => exact ⟨own, rfl⟩
      | ok report => exact ⟨reasons, rfl⟩

end FileTree

/-- What is told of a file whose messages are counted. -/
structure CountedFile where
  /-- The path of the file. -/
  path : String
  /-- The language of the catalog. -/
  language : Option String
  /-- The seven counts. -/
  tally : Tally
  deriving DecidableEq

namespace CountedFile

/-- A file with its catalog. -/
def ofCatalog (path : String) (catalog : Catalog) : CountedFile :=
  ⟨path, catalog.language, catalog.tally⟩

/-- The entry of a file in a line of text. -/
def line (file : CountedFile) : String :=
  file.path ++ " [" ++ file.language.getD "?" ++ "]: " ++
    file.tally.messages.repr ++ " message(s) in " ++ file.tally.contexts.repr ++ " context(s), " ++
    file.tally.finished.repr ++ " finished, " ++ file.tally.unfinished.repr ++ " unfinished, " ++
    file.tally.obsolete.repr ++ " obsolete, " ++ file.tally.vanished.repr ++ " vanished, " ++
    file.tally.plural.repr ++ " plural (" ++ file.tally.roundedCompleteness ++ "% complete)"

/-- Read a language, for which null stands if there is none. -/
def language? : Json → Option (Option String)
  | .null => some none
  | .string (some language) => some (some language)
  | _ => none

/-- Read a count. -/
def count? : Json → Option Nat
  | .integer (.ofNat count) => some count
  | _ => none

/-- Read the entry of a file in JSON: the path, the language, which may be null but not
missing, and the seven counts. -/
def ofJson? (entry : Json) : Option CountedFile := do
  let count? (name : String) : Option Nat := entry.member? name >>= count?
  let path ← entry.member? "path" >>= Json.asText?
  let language ← entry.member? "language" >>= language?
  let contexts ← count? "contexts"
  let messages ← count? "messages"
  let finished ← count? "finished"
  let unfinished ← count? "unfinished"
  let obsolete ← count? "obsolete"
  let vanished ← count? "vanished"
  let plural ← count? "plural"
  some ⟨path, language, contexts, messages, finished, unfinished, obsolete, vanished, plural⟩

/-- What is printed for a file in a line of text is its entry. -/
theorem tallyLine_eq (path : String) (catalog : Catalog) :
    Command.tallyLine path catalog = (ofCatalog path catalog).line := rfl

/-- What is printed for a file in JSON is read as its entry. -/
theorem ofJson?_tallyJson (path : String) (catalog : Catalog) :
    ofJson? (Command.tallyJson path catalog) = some (ofCatalog path catalog) := by
  unfold Command.tallyJson ofCatalog
  cases catalog.language <;> rfl

/-- What is printed for a file in JSON has a text of its own: counts are integers, and the
percentage is a decimal. -/
theorem isPrintable_tallyJson (path : String) (catalog : Catalog) :
    (Command.tallyJson path catalog).IsPrintable := by
  have count (n : Nat) : (Json.natural n).IsPrintable := .integer n
  have percentage : (Json.decimal catalog.tally.exactCompleteness).IsPrintable :=
    .decimal (BinaryFloat.isDecimal_shortest _)
  refine .record ?_
  simp only [List.forall_mem_cons]
  exact ⟨.string path, .textOrNull catalog.language, count _, count _, count _, count _, count _,
    count _, count _, percentage, by simp⟩

/-- So has what is printed for several files. -/
theorem isPrintable_rows (read : List (String × Catalog)) :
    (Json.array (read.map fun file => Command.tallyJson file.1 file.2)).IsPrintable := by
  refine .array fun row member => ?_
  obtain ⟨file, _, rfl⟩ := List.mem_map.mp member
  exact isPrintable_tallyJson file.1 file.2

/-- A file is counted if it has a catalog, and its entry tells of that catalog. -/
def Counts (tree : FileTree) (policy : Policy) (path : String) (file : CountedFile) : Prop :=
  ∃ catalog, tree.HasCatalog policy path catalog ∧ file = ofCatalog path catalog

variable {tree : FileTree} {policy : Policy} {paths : List String} {files : List CountedFile}

/-- All files are counted, or one of them lacks a catalog. -/
theorem allCount_or_lacksCatalog (tree : FileTree) (policy : Policy) (paths : List String) :
    (∃ files, List.Forall₂ (Counts tree policy) paths files) ∨
      ∃ path ∈ paths, tree.LacksCatalog policy path := by
  induction paths with
  | nil => exact .inl ⟨[], .nil⟩
  | cons first rest ih =>
    rcases tree.hasCatalog_or_lacksCatalog policy first with ⟨catalog, has⟩ | lacks
    · rcases ih with ⟨files, all⟩ | ⟨path, member, lacks⟩
      · exact .inl ⟨ofCatalog first catalog :: files, .cons ⟨catalog, has, rfl⟩ all⟩
      · exact .inr ⟨path, List.mem_cons_of_mem _ member, lacks⟩
    · exact .inr ⟨first, List.mem_cons_self, lacks⟩

/-- Files that are all counted are read with the catalogs that their entries tell of. -/
theorem loadAll_of_counts (all : List.Forall₂ (Counts tree policy) paths files) :
    ∃ read, Command.loadAll FileTree.disk policy paths tree = (.ok read, tree) ∧
      files = read.map fun file => ofCatalog file.1 file.2 := by
  induction all with
  | nil => exact ⟨[], rfl, rfl⟩
  | @cons path file paths files counts _ ih =>
    obtain ⟨catalog, has, rfl⟩ := counts
    obtain ⟨warnings, reported⟩ := has.report
    obtain ⟨read, others, rfl⟩ := ih
    refine ⟨(path, catalog) :: read, ?_, rfl⟩
    rw [FileTree.loadAll_cons, reported, others]

/-- What is printed for some files in JSON is read as their entries. -/
theorem mapM_ofJson?_tallyJson (read : List (String × Catalog)) :
    (read.map fun file => Command.tallyJson file.1 file.2).mapM ofJson? =
      some (read.map fun file => ofCatalog file.1 file.2) := by
  induction read with
  | nil => rfl
  | cons file rest ih =>
    rw [List.map_cons, List.mapM_cons, ofJson?_tallyJson, ih]
    rfl

end CountedFile

namespace Command

variable {tree : FileTree} {settings : Configuration} {named : Option String}

/-- Counting, with text printed or JSON. -/
def runCounting (named : Option String) (inputs : List String) (json : Bool) (tree : FileTree) :
    Outcome × FileTree :=
  Invocation.run FileTree.disk ⟨named, .stats inputs json⟩ tree

/-- Seeding one file from another. -/
def runSeeding (named : Option String) (input language output : String) (tree : FileTree) :
    Outcome × FileTree :=
  Invocation.run FileTree.disk ⟨named, .init input language output⟩ tree

/-- Counting reads all files and prints their entries, or prints nothing. -/
theorem runCounting_eq (loaded : tree.configuration named = .ok settings) (inputs : List String)
    (json : Bool) : runCounting named inputs json tree =
      match loadAll FileTree.disk settings.policy inputs tree with
      | (.error reasons, after) => (.failure "" "" reasons, after)
      | (.ok files, after) => (.success (if json then
            (Json.array (files.map fun file => tallyJson file.1 file.2)).pretty ++ "\n"
          else lines (files.map fun file => tallyLine file.1 file.2)), after) := by
  rw [runCounting, FileTree.run_invocation, loaded]
  dsimp only
  rw [run, runStats, Disk.run_bind]
  rcases loadAll FileTree.disk settings.policy inputs tree with ⟨_ | _, after⟩
  · rfl
  · cases json <;> rfl

/-- Seeding reads a catalog, seeds another and writes it. -/
theorem runSeeding_eq (loaded : tree.configuration named = .ok settings)
    (input language output : String) : runSeeding named input language output tree =
      match tree.report settings.policy input with
      | .error reasons => (.failure "" "" reasons, tree)
      | .ok report =>
        match report.catalog.seeded language with
        | .error fault =>
          (.failure "" "" (("cannot seed a catalog for '" ++ language ++ "'") :: fault.reasons), tree)
        | .ok seeded =>
          match saveCatalog FileTree.disk output seeded tree with
          | (.error reasons, after) => (.failure "" "" reasons, after)
          | (.ok (), after) => (.success ("Created " ++ language ++ " catalog " ++ output ++ " (" ++
              seeded.tally.unfinished.repr ++ " message(s) to translate)\n"), after) := by
  rw [runSeeding, FileTree.run_invocation, loaded]
  dsimp only
  rw [run, runInit, Disk.run_bind, FileTree.loadReport_disk]
  cases tree.report settings.policy input with
  | error reasons => rfl
  | ok report =>
    dsimp only
    cases report.catalog.seeded language with
    | error fault => rfl
    | ok seeded =>
      dsimp only
      rw [Disk.run_bind]
      rcases saveCatalog FileTree.disk output seeded tree with ⟨_ | _, after⟩ <;> rfl

/-- If all files are counted, their entries are printed in their order, in JSON as well as
in lines of text. -/
theorem runCounting_of_counts (loaded : tree.configuration named = .ok settings)
    {inputs : List String} {files : List CountedFile}
    (all : List.Forall₂ (CountedFile.Counts tree settings.policy) inputs files) :
    runCounting named inputs false tree = (.success (lines (files.map CountedFile.line)), tree) ∧
      ∃ rows, runCounting named inputs true tree =
          (.success ((Json.array rows).pretty ++ "\n"), tree) ∧
        Json.parse ((Json.array rows).pretty ++ "\n") = .ok (.array rows) ∧
        rows.mapM CountedFile.ofJson? = some files := by
  obtain ⟨read, gathered, rfl⟩ := CountedFile.loadAll_of_counts all
  constructor
  · rw [runCounting_eq loaded, gathered]
    simp only [CountedFile.tallyLine_eq, List.map_map]
    rfl
  · refine ⟨read.map fun file => tallyJson file.1 file.2, ?_,
      Json.parse_pretty (CountedFile.isPrintable_rows read),
      CountedFile.mapM_ofJson?_tallyJson read⟩
    rw [runCounting_eq loaded, gathered]
    rfl

/-- If one of the files lacks a catalog, nothing is printed. -/
theorem runCounting_of_lacks (loaded : tree.configuration named = .ok settings)
    {inputs : List String} {path : String} (member : path ∈ inputs)
    (lacks : tree.LacksCatalog settings.policy path) (json : Bool) :
    ∃ errors, runCounting named inputs json tree = (⟨1, "", errors⟩, tree) := by
  obtain ⟨reasons, fails⟩ := FileTree.loadAll_of_lacks member lacks
  rw [runCounting_eq loaded, fails]
  exact ⟨_, rfl⟩

/-- Without a catalog or without a language nothing is seeded. -/
theorem runSeeding_refused (loaded : tree.configuration named = .ok settings)
    {input language : String} (output : String)
    (refused : tree.LacksCatalog settings.policy input ∨
      ∃ fault, LanguageTag.parse language = .error fault) :
    ∃ errors, runSeeding named input language output tree = (⟨1, "", errors⟩, tree) := by
  rw [runSeeding_eq loaded]
  rcases refused with lacks | ⟨fault, invalid⟩
  · obtain ⟨reasons, reported⟩ := lacks.report
    rw [reported]
    exact ⟨_, rfl⟩
  · cases tree.report settings.policy input with
    | error reasons => exact ⟨_, rfl⟩
    | ok report =>
      have fails : report.catalog.seeded language = .error (.invalidLanguage language fault) := by
        rw [Catalog.seeded, pluralRuleOf, PluralRule.ofLanguage, invalid]
        rfl
      dsimp only
      rw [fails]
      exact ⟨_, rfl⟩

/-- A catalog that is seeded is written, where it can be, and announced with the number of
the live messages that it was seeded from. -/
theorem runSeeding_of_writable (loaded : tree.configuration named = .ok settings)
    {input language : String} {catalog : Catalog} {tag : LanguageTag}
    (has : tree.HasCatalog settings.policy input catalog)
    (valid : LanguageTag.parse language = .ok tag) (output : String) :
    ∃ seeded, catalog.seeded language = .ok seeded ∧ (tree.Writable output → ∃ after,
      runSeeding named input language output tree =
        (.success ("Created " ++ language ++ " catalog " ++ output ++ " (" ++
          (catalog.messages.countP Message.isLive).repr ++ " message(s) to translate)\n"), after) ∧
      after.read output = .ok seeded.toText.toUTF8 ∧
      ∀ other bytes, tree.read other = .ok bytes → after.find other ≠ after.find output →
        after.read other = .ok bytes) := by
  have ruled : PluralRule.ofLanguage language = .ok (.ofTag tag) := by
    rw [PluralRule.ofLanguage, valid]
    rfl
  have made : catalog.seeded language = .ok
      { catalog.cleared (PluralRule.ofTag tag).formCount with language := some language } :=
    Catalog.seeded_of_rule ruled
  refine ⟨_, made, fun writable => ?_⟩
  obtain ⟨warnings, reported⟩ := has.report
  obtain ⟨after, saved, read, others⟩ := FileTree.saveCatalog_of_writable writable
    { catalog.cleared (PluralRule.ofTag tag).formCount with language := some language }
  have count := (catalog.seedsTo_cleared (PluralRule.ofTag tag).formCount language).tally
  refine ⟨after, ?_, read, others⟩
  rw [runSeeding_eq loaded, reported]
  dsimp only
  rw [made]
  dsimp only
  rw [saved, count]

/-- Nothing is done in part. Counting either finds that a file has no catalog, and then it
prints nothing, or it prints one entry for each file, in their order, and the text that it
prints in JSON is read back as rows that tell the same paths, languages and counts as the
lines that it prints as text. Seeding
changes nothing if there is no catalog or no language; otherwise the file that it writes,
where it can be written, is read strictly as the seeded catalog, and the number announced is
that of the live messages. -/
theorem nothing_done_in_part (loaded : tree.configuration named = .ok settings) :
    (∀ inputs,
      ((∃ files, List.Forall₂ (CountedFile.Counts tree settings.policy) inputs files) ∨
        ∃ path ∈ inputs, tree.LacksCatalog settings.policy path) ∧
      (∀ path ∈ inputs, tree.LacksCatalog settings.policy path → ∀ json, ∃ errors,
        runCounting named inputs json tree = (⟨1, "", errors⟩, tree)) ∧
      ∀ files, List.Forall₂ (CountedFile.Counts tree settings.policy) inputs files →
        runCounting named inputs false tree =
          (.success (lines (files.map CountedFile.line)), tree) ∧
        ∃ rows, runCounting named inputs true tree =
            (.success ((Json.array rows).pretty ++ "\n"), tree) ∧
          Json.parse ((Json.array rows).pretty ++ "\n") = .ok (.array rows) ∧
          rows.mapM CountedFile.ofJson? = some files) ∧
    ∀ input language output,
      (tree.LacksCatalog settings.policy input ∨
          (∃ fault, LanguageTag.parse language = .error fault) →
        ∃ errors, runSeeding named input language output tree = (⟨1, "", errors⟩, tree)) ∧
      ∀ catalog tag, tree.HasCatalog settings.policy input catalog →
        LanguageTag.parse language = .ok tag →
        ∃ seeded, catalog.seeded language = .ok seeded ∧
          Report.ofBytes .strict seeded.toText.toUTF8 = .ok ⟨seeded, []⟩ ∧
          (tree.Writable output → ∃ after,
            runSeeding named input language output tree =
              (.success ("Created " ++ language ++ " catalog " ++ output ++ " (" ++
                (catalog.messages.countP Message.isLive).repr ++
                " message(s) to translate)\n"), after) ∧
            after.read output = .ok seeded.toText.toUTF8 ∧
            ∀ other bytes, tree.read other = .ok bytes → after.find other ≠ after.find output →
              after.read other = .ok bytes) := by
  refine ⟨fun inputs => ⟨?_, ?_, ?_⟩, fun input language output => ⟨?_, ?_⟩⟩
  · exact CountedFile.allCount_or_lacksCatalog tree settings.policy inputs
  · exact fun path member lacks json => runCounting_of_lacks loaded member lacks json
  · exact fun files all => runCounting_of_counts loaded all
  · exact runSeeding_refused loaded output
  · intro catalog tag has valid
    obtain ⟨seeded, made, written⟩ := runSeeding_of_writable loaded has valid output
    exact ⟨seeded, made, Report.ofBytes_written .strict seeded, written⟩

/-- A catalog with a finished message, and one with nothing in it. -/
def twoCatalogs : FileTree where
  entries :=
    [(⟨0, ["a.ts"]⟩, .file ("<TS language=\"de\"><context><name>A</name><message>" ++
      "<source>x</source><translation>y</translation></message></context></TS>").toUTF8),
    (⟨0, ["b.ts"]⟩, .file "<TS/>".toUTF8)]

/-- Both files are counted, in lines of text and in JSON; a third that does not exist leaves nothing printed. No catalog is
seeded for a tag that names no language, but one for French can be. -/
theorem two_counted_and_one_seeded :
    runCounting none ["a.ts", "b.ts"] false twoCatalogs =
      (.success (lines [CountedFile.line ⟨"a.ts", some "de", 1, 1, 1, 0, 0, 0, 0⟩,
        CountedFile.line ⟨"b.ts", none, 0, 0, 0, 0, 0, 0, 0⟩]), twoCatalogs) ∧
    (∃ text rows, runCounting none ["a.ts", "b.ts"] true twoCatalogs =
        (.success text, twoCatalogs) ∧ Json.parse text = .ok (.array rows) ∧
      rows.mapM CountedFile.ofJson? = some [⟨"a.ts", some "de", 1, 1, 1, 0, 0, 0, 0⟩,
        ⟨"b.ts", none, 0, 0, 0, 0, 0, 0, 0⟩]) ∧
    (∃ errors, runCounting none ["a.ts", "c.ts", "b.ts"] true twoCatalogs =
      (⟨1, "", errors⟩, twoCatalogs)) ∧
    (∃ errors, runSeeding none "a.ts" "?" "fr.ts" twoCatalogs = (⟨1, "", errors⟩, twoCatalogs)) ∧
    ∃ after, runSeeding none "a.ts" "fr" "fr.ts" twoCatalogs =
        (.success "Created fr catalog fr.ts (1 message(s) to translate)\n", after) ∧
      (after.read "fr.ts").map (Report.ofBytes .strict) = .ok (.ok ⟨⟨"2.0", some "fr", none,
        [⟨"A", [⟨[], "x", none, none, none, none, .singular "", .unfinished⟩]⟩]⟩, []⟩) := by
  have loaded : twoCatalogs.configuration none = .ok .default := rfl
  have first : twoCatalogs.HasCatalog .lenient "a.ts" ⟨"2.0", some "de", none,
      [⟨"A", [⟨[], "x", none, none, none, none, .singular "y", .finished⟩]⟩]⟩ :=
    ⟨_, [], rfl, by decide +kernel⟩
  have second : twoCatalogs.HasCatalog .lenient "b.ts" ⟨"2.0", none, none, []⟩ :=
    ⟨_, [], rfl, by decide +kernel⟩
  have missing : twoCatalogs.LacksCatalog .lenient "c.ts" := .unreadable rfl
  have writable : twoCatalogs.Writable "fr.ts" :=
    ⟨twoCatalogs, _, rfl, rfl, nofun, rfl⟩
  obtain ⟨counts, seeds⟩ := nothing_done_in_part loaded
  obtain ⟨_, _, both⟩ := counts ["a.ts", "b.ts"]
  obtain ⟨_, fails, _⟩ := counts ["a.ts", "c.ts", "b.ts"]
  obtain ⟨refuses, _⟩ := seeds "a.ts" "?" "fr.ts"
  obtain ⟨_, made⟩ := seeds "a.ts" "fr" "fr.ts"
  obtain ⟨seeded, own, strict, written⟩ := made _ _ first rfl
  obtain ⟨after, ran, read, _⟩ := written writable
  obtain ⟨lines, rows, printed, parsed, entries⟩ :=
    both _ (.cons ⟨_, first, rfl⟩ (.cons ⟨_, second, rfl⟩ .nil))
  refine ⟨lines, ⟨_, rows, printed, parsed, entries⟩,
    fails "c.ts" (by simp) missing true, refuses (.inr ⟨_, rfl⟩), after, ran, ?_⟩
  rw [read]
  change Except.ok (Report.ofBytes .strict seeded.toText.toUTF8) = _
  rw [strict, ← Except.ok.inj own]
  rfl

end Command

end MessageCatalog
