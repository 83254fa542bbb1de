import MessageCatalog.PluralRule
import Std.Data.HashMap

/-!
# Translators

A translator answers for one catalog what an application shows for a source
text. It finds messages through an index of positions by context name and
source text. Whatever cannot be answered is answered by the source text.
-/

namespace MessageCatalog

/-- The position of a message: the context's and that within the context. -/
abbrev MessagePosition := Nat × Nat

/-- The positions of live messages, in file order, by context name and source. -/
abbrev MessageIndex := Std.HashMap (String × String) (Array MessagePosition)

namespace Catalog

/-- The message at a position. -/
def messageAt? (catalog : Catalog) (position : MessagePosition) : Option Message :=
  catalog.contexts[position.1]? >>= fun context => context.messages[position.2]?

/-- Every live message with its position and the key it is looked up by, in file
order. -/
def livePositions (catalog : Catalog) : List ((String × String) × MessagePosition) :=
  catalog.contexts.zipIdx.flatMap fun (context, i) =>
    (context.messages.zipIdx.filter (·.1.isLive)).map fun (message, j) =>
      ((context.name, message.source), (i, j))

/-- Add a position behind those that have the same key. -/
def addPosition (index : MessageIndex) (entry : (String × String) × MessagePosition) :
    MessageIndex :=
  index.insert entry.1 ((index.getD entry.1 #[]).push entry.2)

/-- The index of a catalog. -/
def index (catalog : Catalog) : MessageIndex := catalog.livePositions.foldl addPosition ∅

end Catalog

/-- Put a count in place of every `%n`; `out` is the text before. -/
def substituteFrom (count out : String) : List Char → String
  | [] => out
  | '%' :: 'n' :: rest => substituteFrom count (out ++ count) rest
  | c :: rest => substituteFrom count (out.push c) rest

/-- Put a count in place of every `%n`. -/
def substituteCount (template : String) (count : Nat) : String :=
  substituteFrom count.repr "" template.toList

/-- The form of a translation for a count; a singular one is used for every
count. -/
def Translation.formFor? (translation : Translation) (rule : PluralRule) (count : Nat) :
    Option String :=
  match translation with
  | .singular text => some text
  | .plural forms => forms[rule.formIndex count]?

/-- A catalog that is looked up in. -/
structure Translator where
  /-- The catalog. -/
  catalog : Catalog
  /-- The plural rule of its language. -/
  rule : PluralRule
  /-- Where to find its live messages. -/
  index : MessageIndex
  /-- Whether unfinished translations are used. -/
  includeUnfinished : Bool

namespace Translator

/-- The translator of a catalog. Its language must be one. -/
def ofCatalog (catalog : Catalog) (includeUnfinished : Bool) : Except CatalogError Translator :=
  match catalog.pluralRule with
  | .ok rule => .ok ⟨catalog, rule, catalog.index, includeUnfinished⟩
  | .error fault => .error fault

/-- The same translator with or without unfinished translations. -/
def withUnfinished (translator : Translator) (includeUnfinished : Bool) : Translator :=
  { translator with includeUnfinished }

/-- The language of the catalog. -/
def language (translator : Translator) : Option String := translator.catalog.language

/-- Whether a message is used when a comment is wanted. -/
def isUsable (translator : Translator) (comment : String) (message : Message) : Bool :=
  message.commentOrEmpty == comment &&
    (translator.includeUnfinished || message.status == .finished)

/-- The first usable message among candidates. -/
def firstUsable? (translator : Translator) (comment : String) (candidates : List Message) :
    Option Message :=
  candidates.find? (translator.isUsable comment)

/-- The live messages of a context name and a source text, in file order. -/
def candidates (translator : Translator) (context source : String) : List Message :=
  (translator.index.getD (context, source) #[]).toList.filterMap translator.catalog.messageAt?

/-- The message for a source text: one with the wanted comment, or else one
without a comment. -/
def find? (translator : Translator) (context source : String) (comment : Option String) :
    Option Message :=
  let candidates := translator.candidates context source
  let wanted := comment.getD ""
  match translator.firstUsable? wanted candidates with
  | some message => some message
  | none => if wanted.isEmpty then none else translator.firstUsable? "" candidates

/-- A text that may be missing or empty, with the source text to fall back on. -/
def orSource (source : String) (text : Option String) : String :=
  (text.filter fun text => !text.isEmpty).getD source

/-- The translation of a source text. -/
def lookup (translator : Translator) (context source : String) (comment : Option String) :
    String :=
  orSource source ((translator.find? context source comment).bind (·.translation.text?))

/-- The translation of a source text for a count. -/
def lookupPlural (translator : Translator) (context source : String) (comment : Option String)
    (count : Nat) : String :=
  orSource source ((translator.find? context source comment).bind
    (·.translation.formFor? translator.rule count))

/-- The translation of a source text for a count, with the count in it. -/
def translatePlural (translator : Translator) (context source : String) (count : Nat) : String :=
  substituteCount (translator.lookupPlural context source none count) count

end Translator

end MessageCatalog
