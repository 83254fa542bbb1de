import MessageCatalog.Disk
import MessageCatalog.LanguageTag
import MessageCatalog.Markup
import MessageCatalog.Utf8

/-!
# Faults of catalogs

What can be wrong with a document, as causes. An irregularity is well-formed
markup that does not belong where it stands; whether it ends the reading is a
matter of policy. Every other fault is fatal.
-/

namespace MessageCatalog

/-- Well-formed markup that is no proper part of a catalog. -/
inductive Irregularity where
  /-- An element that its parent does not know. -/
  | unexpectedElement (name parent : String)
  /-- An attribute that its element does not know. -/
  | unknownAttribute (element key : String)
  /-- Text between elements that is not layout. -/
  | strayText (parent : String)
  /-- A context without a name. -/
  | unnamedContext
  /-- A message without a source text. -/
  | missingSource
  /-- A message without a translation. -/
  | missingTranslation (source : String)
  /-- A line reference that is no number. -/
  | invalidLine (value : String)
  /-- Character data between plural forms. -/
  | looseData
  /-- An element for a control character that names none. -/
  | invalidByte (value : Option String)
  /-- A document without a catalog in it. -/
  | missingRoot
  deriving DecidableEq

/-- The sentence that tells an irregularity. -/
def Irregularity.message : Irregularity → String
  | unexpectedElement name parent => "unexpected <" ++ name ++ "> inside <" ++ parent ++ ">"
  | unknownAttribute element key => "unknown <" ++ element ++ "> attribute '" ++ key ++ "'"
  | strayText parent => "stray text inside <" ++ parent ++ ">"
  | unnamedContext => "<context> without <name>"
  | missingSource => "<message> without <source> skipped"
  | missingTranslation source => "message '" ++ source ++ "' has no <translation>"
  | invalidLine value => "invalid location line '" ++ value ++ "'"
  | looseData => "character data outside <numerusform>"
  | invalidByte value => "invalid <byte> value " ++ QuotedText.quoteOptional value
  | missingRoot => "document has no <TS> root element"

/-- An irregularity that was passed over. -/
structure Warning where
  /-- Where it was noticed. -/
  position : Position
  /-- What it is. -/
  reason : Irregularity
  deriving DecidableEq

/-- A warning for people to read. -/
def Warning.text (warning : Warning) : String :=
  warning.position.text ++ ": " ++ warning.reason.message

/-- Why an operation on catalogs fails. -/
inductive CatalogError where
  /-- A document is not well formed. -/
  | malformed (position : Position) (fault : MarkupFault)
  /-- A translation has an unknown status. -/
  | unknownStatus (position : Position) (mark : String)
  /-- A document is irregular and may not be. -/
  | irregular (position : Position) (reason : Irregularity)
  /-- A document is not text. -/
  | notUtf8 (offset : Nat)
  /-- A document declares another encoding. -/
  | unsupportedEncoding (label : String)
  /-- A language tag is malformed. -/
  | invalidLanguage (tag : String) (fault : LanguageTag.Fault)
  /-- A catalog file names no language. -/
  | missingLanguage (path : String)
  /-- A catalog names no language. -/
  | untagged
  /-- A language has a catalog already. -/
  | duplicateLanguage (language : String)
  /-- A file cannot be read. -/
  | unreadable (path : String) (cause : DiskError)
  /-- A file cannot be written. -/
  | unwritable (path : String) (cause : DiskError)
  /-- A directory cannot be listed. -/
  | unlistable (path : String) (cause : DiskError)
  deriving DecidableEq

namespace CatalogError

/-- The sentence that tells a fault. -/
def message : CatalogError → String
  | malformed position fault => "malformed XML at " ++ position.text ++ ": " ++ fault.message
  | unknownStatus position mark =>
    "unknown translation type '" ++ mark ++ "' at " ++ position.text
  | irregular position reason =>
    "invalid catalog structure at " ++ position.text ++ ": " ++ reason.message
  | notUtf8 offset =>
    "input is not valid UTF-8 (first invalid byte at offset " ++ offset.repr ++ ")"
  | unsupportedEncoding label =>
    "unsupported document encoding '" ++ label ++ "'; only UTF-8 catalogs are accepted"
  | invalidLanguage tag fault => "language tag '" ++ tag ++ "' is invalid: " ++ fault.message
  | missingLanguage path => "catalog " ++ path ++ " does not declare a language"
  | untagged => "catalog does not declare a language"
  | duplicateLanguage language => "duplicate catalog language " ++ language
  | unreadable path cause => "failed to read catalog " ++ path ++ ": " ++ cause.message
  | unwritable path cause => "failed to write catalog " ++ path ++ ": " ++ cause.message
  | unlistable path cause =>
    "failed to enumerate catalog directory " ++ path ++ ": " ++ cause.message

/-- The fault of the disk behind a fault, if there is one. -/
def cause? : CatalogError → Option DiskError
  | unreadable _ cause | unwritable _ cause | unlistable _ cause => some cause
  | _ => none

end CatalogError

end MessageCatalog
