import MessageCatalog.Numeral

/-!
# Messages

One translatable text of an application: where it is used, what it says, how
translators disambiguate it, its translation and how far that has come.
Absent optional texts and empty ones are different values throughout.
-/

namespace MessageCatalog

/-- The state of a translation. -/
inductive Status where
  /-- Translated and approved. -/
  | finished
  /-- Still being worked on. -/
  | unfinished
  /-- No longer used, the translation is kept as history. -/
  | obsolete
  /-- Gone from the source code. -/
  | vanished
  deriving DecidableEq

namespace Status

/-- The word for a status. -/
def label : Status → String
  | finished => "finished"
  | unfinished => "unfinished"
  | obsolete => "obsolete"
  | vanished => "vanished"

/-- All statuses, in the order of their declaration. -/
def all : List Status := [finished, unfinished, obsolete, vanished]

/-- The mark a translation carries in a document; a finished one carries none. -/
def mark? : Status → Option String
  | finished => none
  | status => some status.label

/-- The status that a mark, or the lack of one, stands for. -/
def ofMark? : Option String → Option Status
  | none => some finished
  | some "unfinished" => some unfinished
  | some "obsolete" => some obsolete
  | some "vanished" => some vanished
  | some _ => none

/-- Live messages still correspond to source code. -/
def isLive : Status → Bool
  | finished | unfinished => true
  | obsolete | vanished => false

end Status

/-- A place in the source code where a message is used. -/
structure Location where
  /-- The file; without one, the file of the location before it is meant. -/
  filename : Option String
  /-- The line in that file. -/
  line : Option LineNumber
  deriving DecidableEq

/-- A location for people to read. -/
def Location.text (location : Location) : String :=
  location.filename.getD "<unknown>" ++
    match location.line with
    | some line => ":" ++ line.text
    | none => ""

/-- What a message is translated to. -/
inductive Translation where
  /-- One text for every use. -/
  | singular (text : String)
  /-- One text for each plural form of the target language. -/
  | plural (forms : List String)
  deriving DecidableEq

namespace Translation

/-- Whether the translation has plural forms. -/
def isPlural : Translation → Bool
  | singular _ => false
  | plural _ => true

/-- Every text of the translation. -/
def texts : Translation → List String
  | singular text => [text]
  | plural forms => forms

/-- Whether no form carries any text. -/
def isEmpty (translation : Translation) : Bool :=
  translation.texts.all String.isEmpty

/-- The text used when no count is given: the first form. -/
def text? (translation : Translation) : Option String :=
  translation.texts.head?

/-- A translation of the same kind with nothing in it; a plural one gets the
given number of empty forms. -/
def blank (formCount : Nat) : Translation → Translation
  | singular _ => singular ""
  | plural _ => plural (List.replicate formCount "")

end Translation

/-- One translatable text with its translation. -/
structure Message where
  /-- Where the text is used. -/
  locations : List Location
  /-- The untranslated text. -/
  source : String
  /-- Tells apart equal source texts of one context. -/
  comment : Option String
  /-- A developer's remark to the translator. -/
  extraComment : Option String
  /-- A translator's own remark. -/
  translatorComment : Option String
  /-- A historical attribute, kept only to be written back. -/
  utf8 : Option String
  /-- The translated text or texts. -/
  translation : Translation
  /-- How far the translation has come. -/
  status : Status
  deriving DecidableEq

namespace Message

/-- The disambiguating comment; an absent one counts as empty. -/
def commentOrEmpty (message : Message) : String := message.comment.getD ""

/-- Whether the message still corresponds to source code. -/
def isLive (message : Message) : Bool := message.status.isLive

/-- Whether the message has plural forms. -/
def isPlural (message : Message) : Bool := message.translation.isPlural

/-- Clear the translation of a live message for work in a language with the
given number of plural forms. Messages that are not live stay as they are. -/
def seed (formCount : Nat) (message : Message) : Message :=
  if message.isLive then
    { message with
      status := .unfinished
      translatorComment := none
      translation := message.translation.blank formCount }
  else message

end Message

end MessageCatalog
