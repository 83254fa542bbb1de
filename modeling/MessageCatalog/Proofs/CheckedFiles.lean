import Mathlib.Data.List.Forall2
import MessageCatalog.Proofs.CommandRuns

/-!
# Files that are checked

A check goes through its files in their order. Each file adds its lines and its numbers
to those of the files before, and the first that fails ends the check. So a check of
several files prints what checks of each alone print, one after the other, and the
summary and the exit code depend on nothing but the totals. No check changes a file.
-/

namespace MessageCatalog

/-- A run that fails tells its one reason behind what it has told before. -/
theorem Outcome.failure_of_one (output errors reason : String) :
    failure output errors [reason] = ⟨1, output, errors ++ ("Error: " ++ reason ++ "\n")⟩ := by
  simp [failure, String.append_assoc]

/-- A file that went through a check. -/
structure CheckedFile where
  /-- The path of the file. -/
  path : String
  /-- What was irregular in the document. -/
  warnings : List Warning
  /-- What was found in the catalog. -/
  findings : List Finding
  deriving DecidableEq

namespace CheckedFile

/-- The lines for warnings. -/
def warningTexts (path : String) (warnings : List Warning) : List String :=
  warnings.map fun warning => path ++ ": warning: " ++ warning.text

/-- The lines of a file: those for its warnings, then those for its findings, or one line
if it has neither. -/
def lines (file : CheckedFile) : List String :=
  if file.warnings = [] ∧ file.findings = [] then [file.path ++ ": OK"]
  else warningTexts file.path file.warnings ++
    file.findings.map fun finding => file.path ++ ": " ++ finding.text

/-- The number of findings in all files. -/
def issueCount (files : List CheckedFile) : Nat := (files.flatMap (·.findings)).length

/-- The number of warnings in all files. -/
def warningCount (files : List CheckedFile) : Nat := (files.flatMap (·.warnings)).length

/-- A file can be read, is a catalog under the policy and can be reviewed. -/
def Passes (tree : FileTree) (policy : Policy) (checks : Checks) (path : String)
    (file : CheckedFile) : Prop :=
  ∃ bytes catalog, tree.read path = .ok bytes ∧
    Report.ofBytes policy bytes = .ok ⟨catalog, file.warnings⟩ ∧
    catalog.review checks = .ok file.findings ∧ file.path = path

/-- Files pass one by one. -/
abbrev AllPass (tree : FileTree) (policy : Policy) (checks : Checks) :
    List String → List CheckedFile → Prop :=
  List.Forall₂ (Passes tree policy checks)

/-- A file does not go through a check. The warnings are those that are printed before the
check ends with the reasons. -/
inductive Fails (tree : FileTree) (policy : Policy) (checks : Checks) (path : String) :
    List Warning → Reasons → Prop
  /-- The file cannot be read. -/
  | unreadable {cause : DiskError} (unread : tree.read path = .error cause) :
    Fails tree policy checks path [] ["failed to read " ++ path, cause.message]
  /-- The file is no catalog under the policy. -/
  | unparsable {bytes : ByteArray} {fault : CatalogError} (read : tree.read path = .ok bytes)
    (unparsed : Report.ofBytes policy bytes = .error fault) :
    Fails tree policy checks path [] (("failed to parse " ++ path) :: fault.reasons)
  /-- The catalog cannot be reviewed. -/
  | unreviewed {bytes : ByteArray} {report : Report} {fault : CatalogError}
    (read : tree.read path = .ok bytes) (parsed : Report.ofBytes policy bytes = .ok report)
    (fails : report.catalog.review checks = .error fault) :
    Fails tree policy checks path report.warnings
      (("failed to validate " ++ path) :: fault.reasons)

/-- A file goes through a check or does not. -/
theorem passes_or_fails (tree : FileTree) (policy : Policy) (checks : Checks) (path : String) :
    (∃ file, Passes tree policy checks path file) ∨
      ∃ warnings reasons, Fails tree policy checks path warnings reasons := by
  cases read : tree.read path with
  | error cause => exact .inr ⟨_, _, .unreadable read⟩
  | ok bytes =>
    cases parsed : Report.ofBytes policy bytes with
    | error fault => exact .inr ⟨_, _, .unparsable read parsed⟩
    | ok report =>
      cases reviewed : report.catalog.review checks with
      | error fault => exact .inr ⟨_, _, .unreviewed read parsed reviewed⟩
      | ok findings =>
        exact .inl ⟨⟨path, report.warnings, findings⟩, bytes, report.catalog, read, parsed,
          reviewed, rfl⟩

/-- All files go through a check, or there is a first one that does not. -/
theorem all_pass_or_first_fails (tree : FileTree) (policy : Policy) (checks : Checks)
    (paths : List String) :
    (∃ files, AllPass tree policy checks paths files) ∨
      ∃ before path behind files warnings reasons, paths = before ++ path :: behind ∧
        AllPass tree policy checks before files ∧
        Fails tree policy checks path warnings reasons := by
  induction paths with
  | nil => exact .inl ⟨[], .nil⟩
  | cons first rest ih =>
    rcases passes_or_fails tree policy checks first with ⟨file, passes⟩ | ⟨warnings, reasons, fails⟩
    · rcases ih with ⟨files, all⟩ | ⟨before, path, behind, files, warnings, reasons, rfl, all, fails⟩
      · exact .inl ⟨file :: files, .cons passes all⟩
      · exact .inr ⟨first :: before, path, behind, file :: files, warnings, reasons, rfl,
          .cons passes all, fails⟩
    · exact .inr ⟨[], first, rest, [], warnings, reasons, rfl, .nil, fails⟩

end CheckedFile

namespace Command

open CheckedFile

/-- Lines behind lines. -/
theorem lines_append (texts others : List String) :
    lines (texts ++ others) = lines texts ++ lines others := by
  rw [lines, List.map_append, String.join_append]
  rfl

/-- What is printed for a file are its lines. -/
theorem lines_checkedFile (file : CheckedFile) :
    warningLines file.path file.warnings ++
      findingLines file.path file.warnings file.findings = lines file.lines := by
  rw [warningLines, findingLines, CheckedFile.lines]
  by_cases quiet : file.warnings = [] ∧ file.findings = []
  · simp [quiet, lines, String.join, String.append_assoc]
  · rw [if_neg quiet, if_neg (by simpa using quiet), String.append_empty, lines_append]
    rfl

/-- What the files before and some more files have shown. -/
def CheckTotals.add (totals : CheckTotals) (files : List CheckedFile) : CheckTotals where
  output := totals.output ++ lines (files.flatMap CheckedFile.lines)
  issues := totals.issues + issueCount files
  warnings := totals.warnings + warningCount files

@[simp] theorem CheckTotals.add_nil (totals : CheckTotals) : totals.add [] = totals := by
  simp [add, lines, issueCount, warningCount, String.join]

/-- What some files have shown with none before. -/
theorem CheckTotals.start_add (files : List CheckedFile) : CheckTotals.add ⟨"", 0, 0⟩ files =
    ⟨lines (files.flatMap CheckedFile.lines), issueCount files, warningCount files⟩ := by
  simp [add]

/-- What the files before and one more have shown. -/
theorem CheckTotals.add_singleton (totals : CheckTotals) (file : CheckedFile) : totals.add [file] =
    { output := totals.output ++ warningLines file.path file.warnings ++
        findingLines file.path file.warnings file.findings
      issues := totals.issues + file.findings.length
      warnings := totals.warnings + file.warnings.length } := by
  rw [String.append_assoc, lines_checkedFile]
  simp [add, issueCount, warningCount]

/-- The files add up one by one. -/
theorem CheckTotals.add_cons (totals : CheckTotals) (file : CheckedFile) (files : List CheckedFile) :
    totals.add (file :: files) = (totals.add [file]).add files := by
  simp [add, lines_append, issueCount, warningCount, String.append_assoc, Nat.add_assoc]

variable {tree : FileTree} {policy : Policy} {checks : Checks} {path : String}
  {file : CheckedFile} {before : List String} {files : List CheckedFile}

/-- A file that passes is added, and the check goes on. -/
theorem checkFiles_of_passes (passes : Passes tree policy checks path file)
    (totals : CheckTotals) (rest : List String) :
    checkFiles FileTree.disk policy checks totals (path :: rest) tree =
      checkFiles FileTree.disk policy checks (totals.add [file]) rest tree := by
  obtain ⟨bytes, catalog, read, parsed, reviewed, rfl⟩ := passes
  rw [checkFiles, Disk.run_bind, FileTree.loadReport_disk,
    FileTree.report_of_parsed read parsed, CheckTotals.add_singleton]
  dsimp only
  rw [reviewed]

/-- A file that fails ends the check. -/
theorem checkFiles_of_fails {warnings : List Warning} {reasons : Reasons}
    (fails : Fails tree policy checks path warnings reasons) (totals : CheckTotals)
    (rest : List String) :
    checkFiles FileTree.disk policy checks totals (path :: rest) tree =
      (.error (totals.output ++ lines (warningTexts path warnings), reasons), tree) := by
  have silent : totals.output ++ lines (warningTexts path []) = totals.output :=
    String.append_empty
  rw [checkFiles, Disk.run_bind, FileTree.loadReport_disk]
  cases fails with
  | unreadable unread =>
    rw [FileTree.report_of_unread unread, silent]
    rfl
  | unparsable read unparsed =>
    rw [FileTree.report_of_unparsed read unparsed, silent]
    rfl
  | unreviewed read parsed fails =>
    rw [FileTree.report_of_parsed read parsed]
    dsimp only
    rw [fails]
    rfl

/-- Files that pass are added in their order, and the check goes on behind them. Each file
that passes moves into the totals, whatever they are. -/
theorem checkFiles_append (all : AllPass tree policy checks before files)
    (totals : CheckTotals) (behind : List String) :
    checkFiles FileTree.disk policy checks totals (before ++ behind) tree =
      checkFiles FileTree.disk policy checks (totals.add files) behind tree := by
  induction all generalizing totals with
  | nil => rw [List.nil_append, CheckTotals.add_nil]
  | cons passes _ ih =>
    rw [List.cons_append, checkFiles_of_passes passes, ih, ← CheckTotals.add_cons]

end Command

/-- A check: which configuration and files it is made with, and how strict it is. -/
structure Checking where
  /-- The configuration file, if one is named. -/
  named : Option String
  /-- The files. -/
  inputs : List String
  /-- Whether catalogs must be regular. -/
  strict : Bool
  /-- Whether the check fails if anything was found. -/
  failOnIssues : Bool

namespace Checking

open CheckedFile

/-- Run the program for the check. -/
def run (checking : Checking) (tree : FileTree) : Outcome × FileTree :=
  Invocation.run FileTree.disk
    ⟨checking.named, .check checking.inputs checking.strict checking.failOnIssues⟩ tree

/-- The same check of one file. -/
def alone (checking : Checking) (path : String) : Checking := { checking with inputs := [path] }

/-- The policy under which files are read. -/
def policy (checking : Checking) (settings : Configuration) : Policy :=
  if checking.strict then .strict else settings.policy

/-- How a check ends if all files pass. -/
def outcome (checking : Checking) (files : List CheckedFile) : Outcome :=
  let total := issueCount files + warningCount files
  { code := if 0 < total ∧ checking.failOnIssues = true then 1 else 0
    output := Command.lines (files.flatMap CheckedFile.lines)
    errors :=
      (if 0 < total then
        "Found " ++ (issueCount files).repr ++ " issue(s) and " ++ (warningCount files).repr ++
          " schema warning(s) in " ++ files.length.repr ++ " file(s)\n"
      else "") ++
      if 0 < total ∧ checking.failOnIssues = true then "Error: catalog issues detected\n" else "" }

variable {checking : Checking} {tree : FileTree} {settings : Configuration} {path : String}
  {paths : List String} {files : List CheckedFile}

/-- The configuration is read first. -/
theorem run_eq (checking : Checking) (tree : FileTree) :
    checking.run tree =
      match tree.configuration checking.named with
      | .error fault => (.failure "" "" fault.reasons, tree)
      | .ok settings => Command.runCheck FileTree.disk settings checking.inputs checking.strict
          checking.failOnIssues tree :=
  FileTree.run_invocation _ _ tree

/-- If all files pass, the check ends with what they have shown together. -/
theorem run_of_pass (loaded : tree.configuration checking.named = .ok settings)
    (all : AllPass tree (checking.policy settings) settings.checks checking.inputs files) :
    checking.run tree = (checking.outcome files, tree) := by
  have goes := Command.checkFiles_append all ⟨"", 0, 0⟩ []
  rw [List.append_nil, Command.CheckTotals.start_add, Command.checkFiles, policy] at goes
  rw [run_eq, loaded]
  dsimp only
  rw [Command.runCheck, Disk.run_bind, goes, outcome, all.length_eq]
  dsimp only [pure, StateT.pure]
  by_cases quiet : issueCount files + warningCount files = 0
  · simp only [quiet, Nat.lt_irrefl, false_and, if_true, if_false]
    rfl
  · have positive : 0 < issueCount files + warningCount files := Nat.pos_of_ne_zero quiet
    rw [if_neg quiet]
    simp only [positive, true_and, if_true]
    cases checking.failOnIssues with
    | false => simp only [Bool.false_eq_true, if_false, String.append_empty]; rfl
    | true => simp only [if_true, Outcome.failure_of_one]; rfl

/-- The first file that fails ends the check behind what the files before have shown. -/
theorem run_of_fails (loaded : tree.configuration checking.named = .ok settings)
    {before behind : List String} {warnings : List Warning} {reasons : Reasons}
    (inputs : checking.inputs = before ++ path :: behind)
    (all : AllPass tree (checking.policy settings) settings.checks before files)
    (fails : Fails tree (checking.policy settings) settings.checks path warnings reasons) :
    checking.run tree = (.failure (Command.lines
      (files.flatMap CheckedFile.lines ++ warningTexts path warnings)) "" reasons, tree) := by
  have goes := Command.checkFiles_append all ⟨"", 0, 0⟩ (path :: behind)
  rw [Command.CheckTotals.start_add, Command.checkFiles_of_fails fails, ← inputs,
    ← Command.lines_append, policy] at goes
  rw [run_eq, loaded]
  dsimp only
  rw [Command.runCheck, Disk.run_bind, goes]
  rfl

/-- The lines of files that pass are those that checks of each alone print. -/
theorem output_alone (checking : Checking) (loaded : tree.configuration checking.named = .ok settings)
    (all : AllPass tree (checking.policy settings) settings.checks paths files) :
    String.join (paths.map fun path => ((checking.alone path).run tree).1.output) =
      Command.lines (files.flatMap CheckedFile.lines) := by
  induction all with
  | nil => rfl
  | cons passes _ ih =>
    have own := (checking.alone _).run_of_pass loaded (.cons passes .nil)
    rw [List.map_cons, String.join_cons, ih, own, List.flatMap_cons, Command.lines_append]
    simp [outcome]

/-- If all files pass, the exit code is 0 unless something was found that must not be. -/
theorem code_outcome (checking : Checking) (files : List CheckedFile) :
    (checking.outcome files).code = 0 ↔
      (checking.failOnIssues = true → issueCount files + warningCount files = 0) := by
  unfold outcome
  cases checking.failOnIssues <;> simp

/-- Files that pass lead to an exit code of 0 if each alone does. -/
theorem code_alone (checking : Checking) (loaded : tree.configuration checking.named = .ok settings)
    (all : AllPass tree (checking.policy settings) settings.checks paths files) :
    (checking.outcome files).code = 0 ↔
      ∀ path ∈ paths, ((checking.alone path).run tree).1.code = 0 := by
  induction all with
  | nil => simp [outcome, issueCount, warningCount]
  | @cons path file paths files passes _ ih =>
    have own := (checking.alone path).run_of_pass loaded (.cons passes .nil)
    have first : ((checking.alone path).outcome [file]).code = 0 ↔
        (checking.failOnIssues = true → issueCount [file] + warningCount [file] = 0) :=
      (checking.alone path).code_outcome [file]
    have adds : issueCount (file :: files) + warningCount (file :: files) =
        (issueCount [file] + warningCount [file]) + (issueCount files + warningCount files) := by
      simp only [issueCount, warningCount, List.flatMap_cons, List.flatMap_nil, List.length_append,
        List.append_nil]
      omega
    rw [List.forall_mem_cons, ← ih, own, first, code_outcome, code_outcome, adds,
      Nat.add_eq_zero_iff]
    exact imp_and

/-- A check changes nothing. -/
theorem run_keeps (checking : Checking) (tree : FileTree) : (checking.run tree).2 = tree := by
  cases loaded : tree.configuration checking.named with
  | error fault => rw [run_eq, loaded]
  | ok settings =>
    rcases all_pass_or_first_fails tree (checking.policy settings) settings.checks checking.inputs
      with ⟨files, all⟩ | ⟨before, path, behind, files, warnings, reasons, inputs, all, fails⟩
    · rw [run_of_pass loaded all]
    · rw [run_of_fails loaded inputs all fails]

/-- A check of several files is made of checks of each alone, in their order, and changes
nothing. If the configuration can be loaded, either all files pass or there is a first one
that fails. If all pass, the check ends with what they have shown together. Its output is
that of checks of each file alone, and it succeeds if each of these does. If one fails, the
check ends with exit code 1 behind the lines of the files before it, and those for its
warnings if it was read. Its output is that of checks of the files up to that one. -/
theorem files_checked_in_order (checking : Checking) (tree : FileTree) :
    (checking.run tree).2 = tree ∧
    (∀ fault, tree.configuration checking.named = .error fault →
      (checking.run tree).1 = .failure "" "" fault.reasons) ∧
    ∀ settings, tree.configuration checking.named = .ok settings →
      ((∃ files, AllPass tree (checking.policy settings) settings.checks checking.inputs files) ∨
        ∃ before path behind files warnings reasons, checking.inputs = before ++ path :: behind ∧
          AllPass tree (checking.policy settings) settings.checks before files ∧
          Fails tree (checking.policy settings) settings.checks path warnings reasons) ∧
      (∀ files, AllPass tree (checking.policy settings) settings.checks checking.inputs files →
        (checking.run tree).1 = checking.outcome files ∧
          (checking.run tree).1.output = String.join
            (checking.inputs.map fun path => ((checking.alone path).run tree).1.output) ∧
          ((checking.run tree).1.code = 0 ↔
            ∀ path ∈ checking.inputs, ((checking.alone path).run tree).1.code = 0)) ∧
      ∀ before path behind files warnings reasons, checking.inputs = before ++ path :: behind →
        AllPass tree (checking.policy settings) settings.checks before files →
        Fails tree (checking.policy settings) settings.checks path warnings reasons →
        (checking.run tree).1 = .failure (Command.lines
            (files.flatMap CheckedFile.lines ++ warningTexts path warnings)) "" reasons ∧
          (checking.run tree).1.output = String.join
            ((before ++ [path]).map fun path => ((checking.alone path).run tree).1.output) := by
  refine ⟨run_keeps checking tree, fun fault unloaded => ?_, fun settings loaded => ⟨?_, ?_, ?_⟩⟩
  · rw [run_eq, unloaded]
  · exact all_pass_or_first_fails tree _ settings.checks checking.inputs
  · intro files all
    rw [run_of_pass loaded all, checking.output_alone loaded all]
    exact ⟨rfl, rfl, checking.code_alone loaded all⟩
  · intro before path behind files warnings reasons inputs all fails
    have only : (checking.alone path).inputs = [] ++ path :: [] := rfl
    have own := (checking.alone path).run_of_fails loaded only .nil fails
    rw [run_of_fails loaded inputs all fails, List.map_append, String.join_append,
      checking.output_alone loaded all, List.map_singleton, own, Command.lines_append]
    simp [Outcome.failure]

/-- A regular catalog, one with an element that is not expected, and one with such an
element whose language is none. -/
def mixedFiles : FileTree where
  entries :=
    [(⟨0, ["a.ts"]⟩, .file "<TS/>".toUTF8), (⟨0, ["b.ts"]⟩, .file "<TS><b/></TS>".toUTF8),
      (⟨0, ["c.ts"]⟩, .file "<TS language=\"?\"><b/></TS>".toUTF8)]

/-- The second file is irregular, which makes the check fail behind its summary. The third
cannot be reviewed, so nothing behind it is checked. -/
theorem mixed_files_checked_in_order :
    (run ⟨none, ["a.ts", "b.ts"], false, true⟩ mixedFiles).1 =
      ⟨1, "a.ts: OK\nb.ts: warning: line 1, column 9: unexpected <b> inside <TS>\n",
        "Found 0 issue(s) and 1 schema warning(s) in 2 file(s)\nError: catalog issues detected\n"⟩ ∧
    (run ⟨none, ["a.ts", "c.ts", "b.ts"], false, true⟩ mixedFiles).1 =
      ⟨1, "a.ts: OK\nc.ts: warning: line 1, column 22: unexpected <b> inside <TS>\n",
        "Error: failed to validate c.ts: language tag '?' is invalid: " ++
          "The given language subtag is invalid\n"⟩ := by
  have loaded : mixedFiles.configuration none = .ok .default := rfl
  have regular : Passes mixedFiles .lenient .all "a.ts" ⟨"a.ts", [], []⟩ :=
    ⟨_, ⟨"2.0", none, none, []⟩, rfl, by decide +kernel, rfl, rfl⟩
  have irregular : Passes mixedFiles .lenient .all "b.ts"
      ⟨"b.ts", [⟨⟨1, 9⟩, .unexpectedElement "b" "TS"⟩], []⟩ :=
    ⟨_, ⟨"2.0", none, none, []⟩, rfl, by decide +kernel, rfl, rfl⟩
  have parsed : Report.ofBytes .lenient "<TS language=\"?\"><b/></TS>".toUTF8 =
      .ok ⟨⟨"2.0", some "?", none, []⟩, [⟨⟨1, 22⟩, .unexpectedElement "b" "TS"⟩]⟩ := by
    decide +kernel
  have untagged : Fails mixedFiles .lenient .all "c.ts" _ _ := .unreviewed rfl parsed rfl
  obtain ⟨_, _, both⟩ := files_checked_in_order ⟨none, ["a.ts", "b.ts"], false, true⟩ mixedFiles
  obtain ⟨_, _, three⟩ :=
    files_checked_in_order ⟨none, ["a.ts", "c.ts", "b.ts"], false, true⟩ mixedFiles
  have passed := ((both _ loaded).2.1 _ (.cons regular (.cons irregular .nil))).1
  have stopped := ((three _ loaded).2.2 ["a.ts"] "c.ts" ["b.ts"] _ _ _ rfl
    (.cons regular .nil) untagged).1
  exact ⟨passed.trans (by decide +kernel), stopped.trans (by decide +kernel)⟩

end Checking

end MessageCatalog
