import MessageCatalog.PluralRule
import MessageCatalog.PlaceMarker

/-!
# Reviewing catalogs

The checks that a catalog can be put through, each with a switch of its own.
Only live messages are checked. Findings come in file order; those of one
message in the order duplicate, number of forms or emptiness, markers.
-/

namespace MessageCatalog

/-- The switches of the checks. -/
structure Checks where
  /-- Check the number of plural forms. -/
  numerusArity : Bool
  /-- Compare the place markers of source and translation. -/
  placeMarkers : Bool
  /-- Look for messages that occur twice in a context. -/
  duplicates : Bool
  /-- Look for finished translations without text. -/
  emptyFinished : Bool
  deriving DecidableEq

/-- Every check. -/
def Checks.all : Checks := ⟨true, true, true, true⟩

/-- What is wrong with a message. -/
inductive Problem where
  /-- The number of plural forms is not that of the language. -/
  | numerusArity (expected found : Nat)
  /-- Only one of source and translation has a marker. -/
  | placeMarker (number : Nat)
  /-- The context has had the source and the comment before. -/
  | duplicate
  /-- A finished translation has no text. -/
  | emptyFinished
  deriving DecidableEq

namespace Problem

/-- The name of a kind of problem. -/
def label : Problem → String
  | numerusArity _ _ => "NumerusArity"
  | placeMarker _ => "PlaceMarkerMismatch"
  | duplicate => "DuplicateMessage"
  | emptyFinished => "EmptyFinished"

/-- A marker as it is written. -/
def markerText (number : Nat) : String := "%" ++ number.repr

/-- The sentence that tells a problem. -/
def message : Problem → String
  | numerusArity expected found =>
    "expected " ++ expected.repr ++ " numerus form(s), found " ++ found.repr
  | placeMarker number =>
    "place marker " ++ markerText number ++ " differs between source and translation"
  | duplicate => "duplicate message"
  | emptyFinished => "finished translation is empty"

end Problem

/-- A problem with the message that has it. -/
structure Finding where
  /-- The name of the context. -/
  context : String
  /-- The source text of the message. -/
  source : String
  /-- What is wrong. -/
  problem : Problem
  deriving DecidableEq

/-- A finding for people to read. -/
def Finding.text (finding : Finding) : String :=
  "[" ++ finding.context ++ "] " ++ QuotedText.quote finding.source ++ ": " ++
    finding.problem.message

namespace Message

/-- What tells a message from others of its context. -/
def key (message : Message) : String × String := (message.source, message.commentOrEmpty)

/-- The problem of a message's translation as a whole, if there is one. -/
def translationProblem? (checks : Checks) (formCount : Nat) (message : Message) :
    Option Problem :=
  match message.translation with
  | .plural forms =>
    if checks.numerusArity && forms.length != formCount then
      some (.numerusArity formCount forms.length)
    else none
  | .singular text =>
    if checks.emptyFinished && message.status == .finished && text.isEmpty then
      some .emptyFinished
    else none

/-- The problems of a message. `seen` holds the keys of the messages before it. -/
def problems (checks : Checks) (formCount : Nat) (seen : List (String × String))
    (message : Message) : List Problem :=
  (if checks.duplicates && seen.contains message.key then [Problem.duplicate] else []) ++
    (message.translationProblem? checks formCount).toList ++
    (if checks.placeMarkers then
      (PlaceMarker.mismatches message.source message.translation.texts).map Problem.placeMarker
    else [])

end Message

namespace Context

/-- The findings of live messages behind those whose keys are in `seen`. -/
def reviewFrom (checks : Checks) (formCount : Nat) (name : String)
    (seen : List (String × String)) : List Message → List Finding
  | [] => []
  | message :: rest =>
    ((message.problems checks formCount seen).map fun problem =>
        ⟨name, message.source, problem⟩) ++
      reviewFrom checks formCount name (message.key :: seen) rest

/-- The findings of a context. -/
def review (checks : Checks) (formCount : Nat) (context : Context) : List Finding :=
  reviewFrom checks formCount context.name [] context.live

end Context

/-- The findings of a catalog. Its language must be one. -/
def Catalog.review (checks : Checks) (catalog : Catalog) : Except CatalogError (List Finding) :=
  match catalog.pluralRule with
  | .ok rule => .ok (catalog.contexts.flatMap (Context.review checks rule.formCount))
  | .error fault => .error fault

/-- What a review finds under the plural rule of the catalog. -/
theorem Catalog.review_of_rule {catalog : Catalog} {rule : PluralRule}
    (ruled : catalog.pluralRule = .ok rule) (checks : Checks) :
    catalog.review checks =
      .ok (catalog.contexts.flatMap (Context.review checks rule.formCount)) := by
  rw [review, ruled]

end MessageCatalog
