import MessageCatalog.Arguments
import MessageCatalog.CatalogJson
import MessageCatalog.CatalogStore
import MessageCatalog.Catalog
import MessageCatalog.Configuration
import MessageCatalog.Json

/-!
# Executing commands

What each command reads, writes and prints, and the exit code with which it
ends. A failing command prints its reason with the reasons behind it. Commands
that write a catalog do so only after everything that can be wrong with what
they read was looked at.
-/

namespace MessageCatalog

/-- How a run of the program ends. -/
structure Outcome where
  /-- The exit code. -/
  code : Nat
  /-- What is printed to standard output. -/
  output : String
  /-- What is printed to standard error. -/
  errors : String
  deriving DecidableEq

/-- A reason with the reasons behind it, outermost first. -/
abbrev Reasons := List String

namespace Outcome

/-- A run that succeeds. -/
def success (output : String) : Outcome := ⟨0, output, ""⟩

/-- A run that fails after it has printed something. -/
def failure (output errors : String) (reasons : Reasons) : Outcome :=
  ⟨1, output, errors ++ "Error: " ++ ": ".intercalate reasons ++ "\n"⟩

end Outcome

/-- A fault with the one behind it. -/
def CatalogError.reasons (error : CatalogError) : Reasons :=
  error.message :: (error.cause?.map DiskError.message).toList

/-- A fault with the one behind it. -/
def ConfigurationError.reasons (error : ConfigurationError) : Reasons :=
  [error.message, error.cause]

namespace Command

variable {m : Type → Type} [Monad m]

/-- Lines of text, each with its end. -/
def lines (texts : List String) : String := String.join (texts.map (· ++ "\n"))

/-- Read a catalog file, or tell why not. -/
def loadReport (disk : Disk m) (policy : Policy) (path : String) :
    m (Except Reasons Report) := do
  match ← disk.read path with
  | .error cause => pure (.error ["failed to read " ++ path, cause.message])
  | .ok bytes =>
    match Report.ofBytes policy bytes with
    | .error fault => pure (.error (("failed to parse " ++ path) :: fault.reasons))
    | .ok report => pure (.ok report)

/-- Write a catalog file and the directories around it, or tell why not. -/
def saveCatalog (disk : Disk m) (path : String) (catalog : Catalog) :
    m (Except Reasons Unit) := do
  let directory := Path.parent path
  match ← disk.makeDirectories directory with
  | .error cause => pure (.error ["failed to create " ++ directory, cause.message])
  | .ok () =>
    match ← catalog.save disk path with
    | .error fault => pure (.error (("failed to save " ++ path) :: fault.reasons))
    | .ok () => pure (.ok ())

/-- Read several catalog files, all or none. -/
def loadAll (disk : Disk m) (policy : Policy) :
    List String → m (Except Reasons (List (String × Catalog)))
  | [] => pure (.ok [])
  | path :: rest => do
    match ← loadReport disk policy path with
    | .error reasons => pure (.error reasons)
    | .ok report =>
      match ← loadAll disk policy rest with
      | .error reasons => pure (.error reasons)
      | .ok others => pure (.ok ((path, report.catalog) :: others))

/-- The numbers of a catalog in one line. -/
def tallyLine (path : String) (catalog : Catalog) : String :=
  let tally := catalog.tally
  path ++ " [" ++ catalog.language.getD "?" ++ "]: " ++
    tally.messages.repr ++ " message(s) in " ++ tally.contexts.repr ++ " context(s), " ++
    tally.finished.repr ++ " finished, " ++ tally.unfinished.repr ++ " unfinished, " ++
    tally.obsolete.repr ++ " obsolete, " ++ tally.vanished.repr ++ " vanished, " ++
    tally.plural.repr ++ " plural (" ++ tally.roundedCompleteness ++ "% complete)"

/-- The numbers of a catalog in JSON. -/
def tallyJson (path : String) (catalog : Catalog) : Json :=
  let tally := catalog.tally
  .record [("path", .text path), ("language", .textOrNull catalog.language),
    ("contexts", .natural tally.contexts), ("messages", .natural tally.messages),
    ("finished", .natural tally.finished), ("unfinished", .natural tally.unfinished),
    ("obsolete", .natural tally.obsolete), ("vanished", .natural tally.vanished),
    ("plural", .natural tally.plural), ("completeness", .decimal tally.exactCompleteness)]

/-- Count the messages of catalogs. Nothing is printed unless all can be read. -/
def runStats (disk : Disk m) (configuration : Configuration) (inputs : List String)
    (json : Bool) : m Outcome := do
  match ← loadAll disk configuration.policy inputs with
  | .error reasons => pure (.failure "" "" reasons)
  | .ok catalogs =>
    if json then
      let rows := catalogs.map fun (path, catalog) => tallyJson path catalog
      pure (.success ((Json.array rows).pretty ++ "\n"))
    else pure (.success (lines (catalogs.map fun (path, catalog) => tallyLine path catalog)))

/-- What the files checked so far have shown. -/
structure CheckTotals where
  /-- The text printed. -/
  output : String
  /-- The number of findings. -/
  issues : Nat
  /-- The number of warnings. -/
  warnings : Nat

/-- The lines for the warnings of a file. -/
def warningLines (path : String) (warnings : List Warning) : String :=
  lines (warnings.map fun warning => path ++ ": warning: " ++ warning.text)

/-- The lines for the findings of a file, and the one for a file without any. -/
def findingLines (path : String) (warnings : List Warning) (findings : List Finding) : String :=
  lines (findings.map fun finding => path ++ ": " ++ finding.text) ++
    if warnings.isEmpty && findings.isEmpty then path ++ ": OK\n" else ""

/-- Check files one after the other; the first that fails ends the run. -/
def checkFiles (disk : Disk m) (policy : Policy) (checks : Checks) (totals : CheckTotals) :
    List String → m (Except (String × Reasons) CheckTotals)
  | [] => pure (.ok totals)
  | path :: rest => do
    match ← loadReport disk policy path with
    | .error reasons => pure (.error (totals.output, reasons))
    | .ok report =>
      let output := totals.output ++ warningLines path report.warnings
      match report.catalog.review checks with
      | .error fault => pure (.error (output, ("failed to validate " ++ path) :: fault.reasons))
      | .ok findings =>
        checkFiles disk policy checks
          { output := output ++ findingLines path report.warnings findings
            issues := totals.issues + findings.length
            warnings := totals.warnings + report.warnings.length } rest

/-- Read and check catalogs. -/
def runCheck (disk : Disk m) (configuration : Configuration) (inputs : List String)
    (strict failOnIssues : Bool) : m Outcome := do
  let policy := if strict then .strict else configuration.policy
  match ← checkFiles disk policy configuration.checks ⟨"", 0, 0⟩ inputs with
  | .error (output, reasons) => pure (.failure output "" reasons)
  | .ok totals =>
    if totals.issues + totals.warnings = 0 then pure (.success totals.output)
    else
      let summary := "Found " ++ totals.issues.repr ++ " issue(s) and " ++
        totals.warnings.repr ++ " schema warning(s) in " ++ inputs.length.repr ++ " file(s)\n"
      if failOnIssues then pure (.failure totals.output summary ["catalog issues detected"])
      else pure ⟨0, totals.output, summary⟩

/-- Look a message up. -/
def runLookup (disk : Disk m) (configuration : Configuration) (input context source : String)
    (comment : Option String) (count : Option Nat) : m Outcome := do
  match ← loadReport disk configuration.policy input with
  | .error reasons => pure (.failure "" "" reasons)
  | .ok report =>
    match Translator.ofCatalog report.catalog configuration.includeUnfinished with
    | .error fault => pure (.failure "" "" fault.reasons)
    | .ok translator =>
      let text := match count with
        | some count => translator.lookupPlural context source comment count
        | none => translator.lookup context source comment
      pure (.success (text ++ "\n"))

/-- Write a changed catalog out, unless anything of what was read would be lost. -/
def runTransform (disk : Disk m) (configuration : Configuration) (transform : Catalog → Catalog)
    (input : String) (destination : Destination) : m Outcome := do
  match ← loadReport disk configuration.policy input with
  | .error reasons => pure (.failure "" "" reasons)
  | .ok report =>
    if report.warnings.isEmpty then
      let catalog := transform report.catalog
      let path := match destination with
        | .output => none
        | .inPlace => some input
        | .file path => some path
      match path with
      | none => pure (.success catalog.toText)
      | some path =>
        match ← saveCatalog disk path catalog with
        | .error reasons => pure (.failure "" "" reasons)
        | .ok () => pure (.success "")
    else
      pure (.failure "" (warningLines input report.warnings)
        ["refusing to rewrite " ++ input ++ ": " ++ report.warnings.length.repr ++
          " schema warning(s) would drop content"])

/-- Write a catalog to start another language from. -/
def runInit (disk : Disk m) (configuration : Configuration) (input language output : String) :
    m Outcome := do
  match ← loadReport disk configuration.policy input with
  | .error reasons => pure (.failure "" "" reasons)
  | .ok report =>
    match report.catalog.seeded language with
    | .error fault =>
      pure (.failure "" "" (("cannot seed a catalog for '" ++ language ++ "'") :: fault.reasons))
    | .ok seeded =>
      match ← saveCatalog disk output seeded with
      | .error reasons => pure (.failure "" "" reasons)
      | .ok () =>
        pure (.success ("Created " ++ language ++ " catalog " ++ output ++ " (" ++
          seeded.tally.unfinished.repr ++ " message(s) to translate)\n"))

/-- Execute a command under a configuration. -/
def run (disk : Disk m) (configuration : Configuration) : Command → m Outcome
  | stats inputs json => runStats disk configuration inputs json
  | check inputs strict failOnIssues => runCheck disk configuration inputs strict failOnIssues
  | lookup input context source comment count =>
    runLookup disk configuration input context source comment count
  | normalize input destination => runTransform disk configuration id input destination
  | prune input destination =>
    runTransform disk configuration Catalog.pruned input destination
  | init input language output => runInit disk configuration input language output

end Command

variable {m : Type → Type} [Monad m]

/-- Read the configuration and execute the command. -/
def Invocation.run (disk : Disk m) (invocation : Invocation) : m Outcome := do
  let configuration ← match invocation.configuration with
    | some path => Configuration.load disk path
    | none => Configuration.loadOrDefault disk Configuration.fileName
  match configuration with
  | .error fault => pure (.failure "" "" fault.reasons)
  | .ok configuration => invocation.command.run disk configuration

/-- The name and the version of the program. -/
def versionText : String := "lingcat 0.1.0\n"

/-- How to use the program. -/
def usageText : String :=
  "Usage: lingcat [OPTIONS] <COMMAND>\n\n" ++
  "Commands:\n" ++
  "  stats      Count messages per status\n" ++
  "  check      Parse and validate catalogs\n" ++
  "  lookup     Resolve one message the way a running application would\n" ++
  "  normalize  Rewrite a catalog in canonical layout\n" ++
  "  init       Create an empty catalog for another language from an existing one\n" ++
  "  prune      Drop obsolete and vanished messages\n" ++
  "  help       Print this message\n\n" ++
  "Options:\n" ++
  "      --config <FILE>  Configuration file; defaults to lingcat.json\n" ++
  "  -v, --verbose...     Log more\n" ++
  "  -h, --help           Print help\n" ++
  "  -V, --version        Print version\n"

/-- Run the program with some arguments. -/
def runArguments (disk : Disk m) (arguments : List String) : m Outcome :=
  match Invocation.ofArguments arguments with
  | .ok invocation => invocation.run disk
  | .error .help => pure (.success usageText)
  | .error .version => pure (.success versionText)
  | .error .usage => pure ⟨2, "", "error: invalid arguments\n\n" ++ usageText⟩

end MessageCatalog
