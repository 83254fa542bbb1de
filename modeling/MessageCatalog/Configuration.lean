import MessageCatalog.CatalogReader
import MessageCatalog.CatalogReview
import MessageCatalog.Disk
import MessageCatalog.JsonReader

/-!
# Configuration

What a user may set for all commands: the policy of reading, whether
unfinished translations are used, and which checks are made. Everything has a
default, and a configuration file that does not exist sets nothing.
-/

namespace MessageCatalog

namespace Policy

/-- The word for a policy. -/
def label : Policy → String
  | lenient => "lenient"
  | strict => "strict"

/-- Read a policy. -/
def reader : JsonReader Policy :=
  .alternative ([lenient, strict].map fun policy => (policy.label, policy))

end Policy

namespace Checks

/-- The switches by name. -/
def fields : List (JsonField Checks) :=
  [⟨"numerus_arity", fun checks => do
      pure { checks with numerusArity := ← .boolean }⟩,
    ⟨"place_markers", fun checks => do
      pure { checks with placeMarkers := ← .boolean }⟩,
    ⟨"duplicates", fun checks => do
      pure { checks with duplicates := ← .boolean }⟩,
    ⟨"empty_finished", fun checks => do
      pure { checks with emptyFinished := ← .boolean }⟩]

/-- Read the switches of the checks; all are on unless switched off. -/
def reader : JsonReader Checks := .record "struct CheckConfig" fields .all

/-- The switches that a JSON text sets. -/
def ofText (text : String) : Except JsonError Checks := reader.ofText text

/-- The switches in JSON. -/
def toJson (checks : Checks) : Json :=
  .record [("numerus_arity", .bool checks.numerusArity),
    ("place_markers", .bool checks.placeMarkers),
    ("duplicates", .bool checks.duplicates),
    ("empty_finished", .bool checks.emptyFinished)]

end Checks

/-- The settings of all commands. -/
structure Configuration where
  /-- What to do about irregularities. -/
  policy : Policy
  /-- Whether unfinished translations are used. -/
  includeUnfinished : Bool
  /-- The checks that are made. -/
  checks : Checks
  deriving DecidableEq

/-- Why there is no configuration. -/
inductive ConfigurationError where
  /-- The file cannot be read. -/
  | unreadable (path : String) (cause : DiskError)
  /-- The file is no JSON text of a configuration. -/
  | unparsable (path : String) (cause : JsonError)

namespace ConfigurationError

/-- What is behind a fault. -/
def cause : ConfigurationError → String
  | unreadable _ cause => cause.message
  | unparsable _ error => error.message

/-- The sentence that tells a fault. -/
def message (error : ConfigurationError) : String :=
  match error with
  | unreadable path _ => "failed to read configuration " ++ path ++ ": " ++ error.cause
  | unparsable path _ => "failed to parse configuration " ++ path ++ ": " ++ error.cause

end ConfigurationError

namespace Configuration

/-- The settings without a configuration file. -/
def default : Configuration := ⟨.lenient, true, .all⟩

/-- The name of the configuration file that is used unless another is named. -/
def fileName : String := "lingcat.json"

/-- The settings by name. -/
def fields : List (JsonField Configuration) :=
  [⟨"schema_policy", fun configuration => do
      pure { configuration with policy := ← Policy.reader }⟩,
    ⟨"include_unfinished", fun configuration => do
      pure { configuration with includeUnfinished := ← .boolean }⟩,
    ⟨"checks", fun configuration => do
      pure { configuration with checks := ← Checks.reader }⟩]

/-- Read a configuration. -/
def reader : JsonReader Configuration := .record "struct LingcatConfig" fields default

/-- A configuration in JSON. -/
def toJson (configuration : Configuration) : Json :=
  .record [("schema_policy", .text configuration.policy.label),
    ("include_unfinished", .bool configuration.includeUnfinished),
    ("checks", configuration.checks.toJson)]

/-- Read the bytes of a configuration file. -/
def ofBytes (path : String) (bytes : ByteArray) : Except ConfigurationError Configuration :=
  match Utf8.decode bytes with
  | .error _ => .error (.unreadable path (.other "stream did not contain valid UTF-8"))
  | .ok text =>
    match reader.ofText text with
    | .error fault => .error (.unparsable path fault)
    | .ok configuration => .ok configuration

variable {m : Type → Type} [Monad m]

/-- Read a configuration file. -/
def load (disk : Disk m) (path : String) : m (Except ConfigurationError Configuration) := do
  match ← disk.read path with
  | .error cause => pure (.error (.unreadable path cause))
  | .ok bytes => pure (ofBytes path bytes)

/-- Read a configuration file, or use the defaults if it does not exist. -/
def loadOrDefault (disk : Disk m) (path : String) :
    m (Except ConfigurationError Configuration) := do
  match ← disk.kind path with
  | .ok _ => load disk path
  | .error .notFound => pure (.ok default)
  | .error cause => pure (.error (.unreadable path cause))

end Configuration

end MessageCatalog
