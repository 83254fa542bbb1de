import MessageCatalog.Catalog
import MessageCatalog.Json

/-!
# Catalogs in JSON

Every part of a catalog as a JSON value, and back. A record is written as an
object. It is read from an object in any order, unknown members aside, or from
an array that lists the leading fields in the order of their declaration. A
known member may not occur twice. Every decoder answers nothing when a value is
none of its type. Absent optional fields are left out, lists are always written.
A value with alternatives is an object over one key that names the alternative.
-/

namespace MessageCatalog

/-! ## Records -/

namespace Json

/-- The fields of a record by name. -/
def fields? (names : List String) : Json → Option (String → Option Json)
  | .object members =>
    if members.all (·.1.isSome) &&
        names.all (fun name => (members.countP (·.1 == some name)) ≤ 1) then
      some fun name => (members.find? (·.1 == some name)).map Prod.snd
    else none
  | .array elements =>
    if elements.length ≤ names.length then some fun name => (names.zip elements).lookup name
    else none
  | _ => none

/-- Read a text. -/
def asText? : Json → Option String
  | .string text => text
  | _ => none

/-- Read an integer within bounds. -/
def asInteger? (least most : Int) : Json → Option Int
  | .integer value => if least ≤ value ∧ value ≤ most then some value else none
  | _ => none

/-- Read a list. -/
def asList? (decode : Json → Option α) : Json → Option (List α)
  | .array elements => elements.mapM decode
  | _ => none

/-- Read an optional field: a missing one and null both stand for no value. -/
def optionalField? (decode : Json → Option α) : Option Json → Option (Option α)
  | none | some .null => some none
  | some value => (decode value).map some

/-- Read a field that has a default. -/
def defaultField? (default : α) (decode : Json → Option α) : Option Json → Option α
  | none => some default
  | some value => decode value

/-- Read one of several words, which may also be the only key of an object over
null. -/
def asWord? (decode : String → Option α) : Json → Option α
  | .string (some word) => decode word
  | .object [(some word, .null)] => decode word
  | _ => none

end Json

/-! ## Parts of a catalog -/

namespace LineNumber

/-- A line reference in JSON. -/
def toJson : LineNumber → Json
  | absolute line => .record [("absolute", .natural line.toNat)]
  | relative delta => .record [("relative", .integer delta.toInt)]

/-- Read a line reference. -/
def ofJson? : Json → Option LineNumber
  | .object [(some "absolute", value)] =>
    (value.asInteger? 0 0xFFFFFFFF).map fun n => absolute (UInt32.ofNat n.toNat)
  | .object [(some "relative", value)] =>
    (value.asInteger? (-0x80000000) 0x7FFFFFFF).map fun n => relative (Int32.ofInt n)
  | _ => none

end LineNumber

namespace Location

/-- A location in JSON. -/
def toJson (location : Location) : Json :=
  .record (Json.optional "filename" .text location.filename ++
    Json.optional "line" LineNumber.toJson location.line)

/-- Read a location. -/
def ofJson? (value : Json) : Option Location := do
  let fields ← value.fields? ["filename", "line"]
  some {
    filename := ← Json.optionalField? Json.asText? (fields "filename")
    line := ← Json.optionalField? LineNumber.ofJson? (fields "line") }

end Location

namespace Translation

/-- A translation in JSON. -/
def toJson : Translation → Json
  | singular text => .record [("singular", .text text)]
  | plural forms => .record [("plural", .array (forms.map Json.text))]

/-- Read a translation. -/
def ofJson? : Json → Option Translation
  | .object [(some "singular", value)] => value.asText?.map singular
  | .object [(some "plural", value)] => (value.asList? Json.asText?).map plural
  | _ => none

end Translation

namespace Status

/-- The status of a label. -/
def ofLabel? (label : String) : Option Status := all.find? (·.label == label)

/-- A status in JSON. -/
def toJson (status : Status) : Json := .text status.label

/-- Read a status. -/
def ofJson? (value : Json) : Option Status := value.asWord? ofLabel?

end Status

namespace Message

/-- The fields of a message in the order of their declaration. -/
def fieldNames : List String :=
  ["locations", "source", "comment", "extra_comment", "translator_comment", "utf8",
    "translation", "status"]

/-- A message in JSON. -/
def toJson (message : Message) : Json :=
  .record (
    [("locations", .array (message.locations.map Location.toJson)),
      ("source", .text message.source)] ++
    Json.optional "comment" .text message.comment ++
    Json.optional "extra_comment" .text message.extraComment ++
    Json.optional "translator_comment" .text message.translatorComment ++
    Json.optional "utf8" .text message.utf8 ++
    [("translation", message.translation.toJson), ("status", message.status.toJson)])

/-- Read a message. -/
def ofJson? (value : Json) : Option Message := do
  let fields ← value.fields? fieldNames
  some {
    locations := ← Json.defaultField? [] (Json.asList? Location.ofJson?) (fields "locations")
    source := ← (← fields "source").asText?
    comment := ← Json.optionalField? Json.asText? (fields "comment")
    extraComment := ← Json.optionalField? Json.asText? (fields "extra_comment")
    translatorComment := ← Json.optionalField? Json.asText? (fields "translator_comment")
    utf8 := ← Json.optionalField? Json.asText? (fields "utf8")
    translation := ← Translation.ofJson? (← fields "translation")
    status := ← Status.ofJson? (← fields "status") }

end Message

namespace Context

/-- A context in JSON. -/
def toJson (context : Context) : Json :=
  .record [("name", .text context.name), ("messages", .array (context.messages.map Message.toJson))]

/-- Read a context. -/
def ofJson? (value : Json) : Option Context := do
  let fields ← value.fields? ["name", "messages"]
  some {
    name := ← (← fields "name").asText?
    messages := ← Json.defaultField? [] (Json.asList? Message.ofJson?) (fields "messages") }

end Context

namespace Catalog

/-- A catalog in JSON. -/
def toJson (catalog : Catalog) : Json :=
  .record (
    [("version", .text catalog.version)] ++
    Json.optional "language" .text catalog.language ++
    Json.optional "source_language" .text catalog.sourceLanguage ++
    [("contexts", .array (catalog.contexts.map Context.toJson))])

/-- Read a catalog. -/
def ofJson? (value : Json) : Option Catalog := do
  let fields ← value.fields? ["version", "language", "source_language", "contexts"]
  some {
    version := ← Json.defaultField? defaultVersion Json.asText? (fields "version")
    language := ← Json.optionalField? Json.asText? (fields "language")
    sourceLanguage := ← Json.optionalField? Json.asText? (fields "source_language")
    contexts := ← Json.defaultField? [] (Json.asList? Context.ofJson?) (fields "contexts") }

end Catalog

end MessageCatalog
