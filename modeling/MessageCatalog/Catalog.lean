import MessageCatalog.BinaryFloat
import MessageCatalog.Message

/-!
# Catalogs

A catalog is the list of contexts of one document, in file order, under a
short header. Names of contexts may repeat. This module counts messages and
drops those that are history. The share of live messages that are finished is
a percentage whose division comes before its multiplication, and both round.
-/

namespace MessageCatalog

/-- The messages of one part of an application. -/
structure Context where
  /-- The name by which lookups address the context. -/
  name : String
  /-- The messages in file order. -/
  messages : List Message
  deriving DecidableEq

/-- The messages of a context that are not history. -/
def Context.live (context : Context) : List Message :=
  context.messages.filter Message.isLive

/-- The version that a document without a version has. -/
def defaultVersion : String := "2.0"

/-- All contexts of one document, in file order. -/
structure Catalog where
  /-- The version of the document format. -/
  version : String
  /-- The language that is translated to. -/
  language : Option String
  /-- The language of the source texts. -/
  sourceLanguage : Option String
  /-- The contexts in file order. -/
  contexts : List Context
  deriving DecidableEq

/-- The numbers of contexts and messages of a catalog. -/
structure Tally where
  /-- Contexts, empty ones included. -/
  contexts : Nat
  /-- Messages of every status. -/
  messages : Nat
  /-- Finished messages. -/
  finished : Nat
  /-- Unfinished messages. -/
  unfinished : Nat
  /-- Obsolete messages. -/
  obsolete : Nat
  /-- Vanished messages. -/
  vanished : Nat
  /-- Messages with plural forms, of every status. -/
  plural : Nat
  deriving DecidableEq

namespace Catalog

/-- A catalog without language and contexts. -/
def empty : Catalog := ⟨defaultVersion, none, none, []⟩

/-- The first context of a name. -/
def context? (catalog : Catalog) (name : String) : Option Context :=
  catalog.contexts.find? (·.name == name)

/-- Every message with its context, in file order. -/
def entries (catalog : Catalog) : List (Context × Message) :=
  catalog.contexts.flatMap fun context => context.messages.map fun message => (context, message)

/-- Every message, in file order. -/
def messages (catalog : Catalog) : List Message :=
  catalog.contexts.flatMap Context.messages

/-- Count the messages by status and kind. -/
def tally (catalog : Catalog) : Tally :=
  let messages := catalog.messages
  let having (status : Status) := messages.countP (·.status == status)
  { contexts := catalog.contexts.length
    messages := messages.length
    finished := having .finished
    unfinished := having .unfinished
    obsolete := having .obsolete
    vanished := having .vanished
    plural := messages.countP Message.isPlural }

/-- Drop the messages that are history, then the contexts left without any. -/
def pruned (catalog : Catalog) : Catalog :=
  { catalog with
    contexts :=
      (catalog.contexts.map fun context => { context with messages := context.live }).filter
        fun context => !context.messages.isEmpty }

end Catalog

/-! ## Completeness -/

namespace Tally

/-- Messages that are not history. -/
def live (tally : Tally) : Nat := tally.finished + tally.unfinished

/-- The percentage of live messages that are finished; a catalog without live
messages is complete. -/
def completeness (tally : Tally) : Float :=
  if tally.live = 0 then 100.0
  else Float.ofNat tally.finished / Float.ofNat tally.live * 100.0

/-- The percentage with one place. -/
def roundedCompleteness (tally : Tally) : String :=
  (BinaryFloat.ofFloat tally.completeness).fixed 1

/-- The percentage with the fewest places that tell it from other doubles. -/
def exactCompleteness (tally : Tally) : String :=
  (BinaryFloat.ofFloat tally.completeness).shortest

end Tally

end MessageCatalog
