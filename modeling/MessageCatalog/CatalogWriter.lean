import MessageCatalog.Catalog
import MessageCatalog.Entity
import MessageCatalog.PlaceMarker

/-!
# Writing catalogs

One layout for every catalog: an element a line, four spaces for every level
below a context, double quotes around attribute values. What is absent is not
written at all; what is empty is written as such. A text is written run by run:
what is between two control characters is cut out by its bytes and escaped at
once.
-/

namespace MessageCatalog

namespace Written

/-- The value of an attribute. A run of text is escaped in the same way. -/
def attributeValue (value : String) : String :=
  String.ofList (value.toList.flatMap Entity.escapeMarkup)

/-- What is written for a control character of a text that ends a run. -/
def replacement? (c : Char) : Option String :=
  if c = '\t' ∨ c = '\n' then none
  else if c = '\r' then some "&#xd;"
  else if c.toNat < 0x20 then
    some ("<byte value=\"x" ++ String.ofList (Nat.toDigits 16 c.toNat) ++ "\"/>")
  else none

/-- Append to `out` what is left of a text. The run that is not written yet starts at
byte `runStart`, and the next character is at byte `offset`. There is no result if a
run is asked for that is none. -/
def appendFrom? (bytes : Array UInt8) (runStart offset : Nat) (out : String) :
    List Char → Option String
  | [] =>
    match PlaceMarker.slice? bytes runStart bytes.size with
    | none => none
    | some run => some (out ++ attributeValue run)
  | c :: rest =>
    let behind := offset + c.utf8Size
    match replacement? c with
    | none => appendFrom? bytes runStart behind out rest
    | some replacement =>
      match PlaceMarker.slice? bytes runStart offset with
      | none => none
      | some run =>
        appendFrom? bytes behind behind (out ++ attributeValue run ++ replacement) rest

/-- Append the content of a text element to `out`. -/
def appendText? (out content : String) : Option String :=
  appendFrom? content.toUTF8.data 0 0 out content.toList

/-- The content of a text element. -/
def text (content : String) : String := (appendText? "" content).getD ""

/-- An attribute behind the space that parts it from what is before. -/
def attributeText (name value : String) : String :=
  " " ++ name ++ "=\"" ++ attributeValue value ++ "\""

/-- An attribute that is left out when there is no value. -/
def optionalAttribute (name : String) : Option String → String
  | some value => attributeText name value
  | none => ""

/-- A text element on a line of its own, behind some indentation. -/
def element (indentation name content : String) : String :=
  indentation ++ "<" ++ name ++ ">" ++ text content ++ "</" ++ name ++ ">\n"

/-- A text element that is left out when there is no content. -/
def optionalElement (indentation name : String) : Option String → String
  | some content => element indentation name content
  | none => ""

/-- A location, which closes itself. -/
def location (location : Location) : String :=
  "        <location" ++ optionalAttribute "filename" location.filename ++
    optionalAttribute "line" (location.line.map LineNumber.text) ++ "/>\n"

/-- The content of a translation: a text, or its forms, a line each. -/
def translationContent : Translation → String
  | .singular content => text content
  | .plural [] => ""
  | .plural (first :: rest) =>
    "\n" ++ String.join ((first :: rest).map (element "            " "numerusform")) ++ "        "

/-- A translation with its status. -/
def translation (translation : Translation) (status : Status) : String :=
  "        <translation" ++ optionalAttribute "type" status.mark? ++ ">" ++
    translationContent translation ++ "</translation>\n"

/-- A message. -/
def message (message : Message) : String :=
  "    <message" ++ (if message.isPlural then attributeText "numerus" "yes" else "") ++
    optionalAttribute "utf8" message.utf8 ++ ">\n" ++
    String.join (message.locations.map location) ++
    element "        " "source" message.source ++
    optionalElement "        " "comment" message.comment ++
    optionalElement "        " "extracomment" message.extraComment ++
    optionalElement "        " "translatorcomment" message.translatorComment ++
    translation message.translation message.status ++
    "    </message>\n"

/-- A context. -/
def context (context : Context) : String :=
  "<context>\n" ++ element "    " "name" context.name ++
    String.join (context.messages.map message) ++ "</context>\n"

/-- What stands before the root element. -/
def prologue : String := "<?xml version=\"1.0\" encoding=\"utf-8\"?>\n<!DOCTYPE TS>\n"

end Written

/-- The document of a catalog. -/
def Catalog.toText (catalog : Catalog) : String :=
  Written.prologue ++ "<TS" ++ Written.attributeText "version" catalog.version ++
    Written.optionalAttribute "language" catalog.language ++
    Written.optionalAttribute "sourcelanguage" catalog.sourceLanguage ++ ">\n" ++
    String.join (catalog.contexts.map Written.context) ++ "</TS>\n"

end MessageCatalog
