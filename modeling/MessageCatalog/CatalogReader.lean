import MessageCatalog.Catalog
import MessageCatalog.CatalogError

/-!
# Reading catalogs

The reader stands at a place in the document and holds what it has collected
on the way there. Every event takes it to another place: a start tag leads
into an element, its end leads back out and puts what was collected where it
belongs. What an event shows to be irregular is noted without regard to the
policy; the policy then decides whether a note ends the reading or becomes a
warning.
-/

namespace MessageCatalog

/-- What to do about irregularities. -/
inductive Policy where
  /-- Pass over them with a warning. -/
  | lenient
  /-- Refuse the document. -/
  | strict
  deriving DecidableEq

/-- A catalog and what was passed over in its document. -/
structure Report where
  /-- What was read. -/
  catalog : Catalog
  /-- The irregularities in the order in which they were noticed. -/
  warnings : List Warning
  deriving DecidableEq

namespace Reader

/-- Why reading ends early. -/
inductive Fatal where
  /-- The document is not well formed. -/
  | malformed (fault : MarkupFault)
  /-- A translation has an unknown status. -/
  | unknownStatus (mark : String)
  /-- The document declares another encoding. -/
  | unsupportedEncoding (label : String)
  /-- The document is irregular and may not be. -/
  | irregular (reason : Irregularity)
  deriving DecidableEq

/-- The fault of a catalog with its place. -/
def Fatal.at (fatal : Fatal) (position : Position) : CatalogError :=
  match fatal with
  | malformed fault => .malformed position fault
  | unknownStatus mark => .unknownStatus position mark
  | unsupportedEncoding label => .unsupportedEncoding label
  | irregular reason => .irregular position reason

/-- What an event leads to: the irregularities that it shows, in order, and then
a result or a fatal fault. -/
structure Step (α : Type) where
  /-- The irregularities noticed before the result or the fault. -/
  notes : List Irregularity
  /-- The result or the fault. -/
  outcome : Except Fatal α

namespace Step

/-- A result without anything to note. -/
def done (result : α) : Step α := ⟨[], .ok result⟩

/-- A fault. -/
def fail (fatal : Fatal) : Step α := ⟨[], .error fatal⟩

/-- Note an irregularity. -/
def note (reason : Irregularity) : Step Unit := ⟨[reason], .ok ()⟩

/-- Go on with the result of a step. -/
def andThen (step : Step α) (next : α → Step β) : Step β :=
  match step.outcome with
  | .error fatal => ⟨step.notes, .error fatal⟩
  | .ok result => ⟨step.notes ++ (next result).notes, (next result).outcome⟩

instance : Monad Step where
  pure := done
  bind := andThen

/-- The attributes of a tag, read in full before any is looked at. -/
def attributes (tag : Tag) : Step (List (String × String)) :=
  match tag.attributeList with
  | .ok attributes => done attributes
  | .error fault => fail (.malformed (.ofTag fault))

end Step

/-- What was read of a catalog whose end is to come. -/
structure OpenCatalog where
  /-- The version of the document format. -/
  version : String
  /-- The language that is translated to. -/
  language : Option String
  /-- The language of the source texts. -/
  sourceLanguage : Option String
  /-- The contexts so far. -/
  contexts : Array Context

/-- What was read of a context whose end is to come. -/
structure OpenContext where
  /-- The catalog around it. -/
  outer : OpenCatalog
  /-- The last name so far. -/
  name : Option String
  /-- The messages so far. -/
  messages : Array Message

/-- What was read of a message whose end is to come. -/
structure OpenMessage where
  /-- The context around it. -/
  outer : OpenContext
  /-- Whether the message has plural forms. -/
  plural : Bool
  /-- The historical attribute. -/
  utf8 : Option String
  /-- The locations so far. -/
  locations : Array Location
  /-- The last source text so far. -/
  source : Option String
  /-- The last disambiguating comment so far. -/
  comment : Option String
  /-- The last developer's remark so far. -/
  extraComment : Option String
  /-- The last translator's remark so far. -/
  translatorComment : Option String
  /-- The last translation so far, with its status. -/
  translation : Option (Translation × Status)

/-- What was read of a plural translation whose end is to come. -/
structure OpenForms where
  /-- The message around it. -/
  outer : OpenMessage
  /-- The status of the translation. -/
  status : Status
  /-- The forms so far. -/
  forms : Array String

/-- The parts of a message that are one text. -/
inductive MessageText where
  | source
  | comment
  | extraComment
  | translatorComment
  /-- A translation without plural forms. -/
  | translation (status : Status)
  deriving DecidableEq

/-- The element that holds a part of a message. -/
def MessageText.element : MessageText → String
  | source => "source"
  | comment => "comment"
  | extraComment => "extracomment"
  | translatorComment => "translatorcomment"
  | translation _ => "translation"

/-- Where the content of a text element belongs. -/
inductive TextHost where
  /-- It names a context. -/
  | contextName (outer : OpenContext)
  /-- It is part of a message. -/
  | part (part : MessageText) (outer : OpenMessage)
  /-- It is a plural form. -/
  | form (outer : OpenForms)

/-- The name of a text element. -/
def TextHost.element : TextHost → String
  | contextName _ => "name"
  | part field _ => field.element
  | form _ => "numerusform"

/-- Where the reader stands, and what it has collected there. -/
inductive Place where
  /-- Outside every element; the catalog, once its element has ended. -/
  | document (catalog : Option Catalog)
  /-- In the root element. -/
  | root (catalog : OpenCatalog)
  /-- In a context. -/
  | context (context : OpenContext)
  /-- In a message. -/
  | message (message : OpenMessage)
  /-- In a location, whose content does not matter. -/
  | location (location : Location) (outer : OpenMessage)
  /-- In a translation with plural forms. -/
  | forms (forms : OpenForms)
  /-- In a text element, behind the given content. -/
  | text (host : TextHost) (content : String)
  /-- In the element for a control character, whose content does not matter. -/
  | byte (value : Option String) (host : TextHost) (content : String)
  /-- In an element that is passed over. -/
  | skipped (outer : Place)

namespace OpenMessage

/-- Take an attribute of the start tag. -/
def takeAttribute (message : OpenMessage) (entry : String × String) : Step OpenMessage :=
  match entry.1 with
  | "numerus" => pure { message with plural := entry.2 == "yes" }
  | "utf8" => pure { message with utf8 := some entry.2 }
  | key => do
    Step.note (.unknownAttribute "message" key)
    pure message

/-- The message at its start tag. -/
def start (outer : OpenContext) (tag : Tag) : Step Place := do
  let attributes ← Step.attributes tag
  let message ← attributes.foldlM takeAttribute
    ⟨outer, false, none, #[], none, none, none, none, none⟩
  pure (.message message)

/-- Put a text where it belongs, in place of an earlier one. -/
def set (message : OpenMessage) (part : MessageText) (content : String) : OpenMessage :=
  match part with
  | .source => { message with source := some content }
  | .comment => { message with comment := some content }
  | .extraComment => { message with extraComment := some content }
  | .translatorComment => { message with translatorComment := some content }
  | .translation status => { message with translation := some (.singular content, status) }

/-- The translation of a message that has none. -/
def blank (message : OpenMessage) : Translation × Status :=
  (if message.plural then .plural [] else .singular "", .unfinished)

/-- The message at its end tag. Without a source text it is left out. -/
def close (message : OpenMessage) : Step Place :=
  match message.source with
  | none => do
    Step.note .missingSource
    pure (.context message.outer)
  | some source => do
    let (translation, status) ← match message.translation with
      | some translation => pure translation
      | none => do
        Step.note (.missingTranslation source)
        pure message.blank
    let complete : Message :=
      { locations := message.locations.toList
        source := source
        comment := message.comment
        extraComment := message.extraComment
        translatorComment := message.translatorComment
        utf8 := message.utf8
        translation := translation
        status := status }
    pure (.context { message.outer with messages := message.outer.messages.push complete })

end OpenMessage

namespace OpenCatalog

/-- Take an attribute of the start tag. -/
def takeAttribute (catalog : OpenCatalog) (entry : String × String) : Step OpenCatalog :=
  match entry.1 with
  | "version" => pure { catalog with version := entry.2 }
  | "language" => pure { catalog with language := some entry.2 }
  | "sourcelanguage" => pure { catalog with sourceLanguage := some entry.2 }
  | key => do
    Step.note (.unknownAttribute "TS" key)
    pure catalog

/-- The catalog at its start tag. -/
def start (tag : Tag) : Step Place := do
  let attributes ← Step.attributes tag
  let catalog ← attributes.foldlM takeAttribute ⟨defaultVersion, none, none, #[]⟩
  pure (.root catalog)

/-- The catalog at its end tag. -/
def close (catalog : OpenCatalog) : Catalog :=
  ⟨catalog.version, catalog.language, catalog.sourceLanguage, catalog.contexts.toList⟩

end OpenCatalog

/-- The context at its end tag. -/
def OpenContext.close (context : OpenContext) : Step Place := do
  let name ← match context.name with
    | some name => pure name
    | none => do
      Step.note .unnamedContext
      pure ""
  let complete : Context := ⟨name, context.messages.toList⟩
  pure (.root { context.outer with contexts := context.outer.contexts.push complete })

/-- Take an attribute of a location. -/
def takeLocationAttribute (location : Location) (entry : String × String) :
    Step Location :=
  match entry.1 with
  | "filename" => pure { location with filename := some entry.2 }
  | "line" =>
    match LineNumber.parse? entry.2 with
    | some line => pure { location with line := some line }
    | none => do
      Step.note (.invalidLine entry.2)
      pure location
  | key => do
    Step.note (.unknownAttribute "location" key)
    pure location

/-- A location at its start tag. -/
def startLocation (outer : OpenMessage) (tag : Tag) : Step Place := do
  let attributes ← Step.attributes tag
  let location ← attributes.foldlM takeLocationAttribute ⟨none, none⟩
  pure (.location location outer)

/-- Take an attribute of a translation. -/
def takeStatusAttribute (status : Status) (entry : String × String) : Step Status :=
  match entry.1 with
  | "type" =>
    match Status.ofMark? (some entry.2) with
    | some status => pure status
    | none => Step.fail (.unknownStatus entry.2)
  | key => do
    Step.note (.unknownAttribute "translation" key)
    pure status

/-- A translation at its start tag. The message tells whether it has plural
forms. -/
def startTranslation (outer : OpenMessage) (tag : Tag) : Step Place := do
  let attributes ← Step.attributes tag
  let status ← attributes.foldlM takeStatusAttribute .finished
  if outer.plural then pure (.forms ⟨outer, status, #[]⟩)
  else pure (.text (.part (.translation status) outer) "")

/-- The element for a control character at its start tag. -/
def startByte (host : TextHost) (content : String) (tag : Tag) : Step Place := do
  let attributes ← Step.attributes tag
  let value := (attributes.find? (·.1 == "value")).map Prod.snd
  pure (.byte value host content)

/-- The character that a control character's element names: a decimal number, or
a hexadecimal one behind an `x`. -/
def byteCharacter? (value : String) : Option Char :=
  let code := match value.toList with
    | 'x' :: digits => Radix.hexadecimal.below? UInt32.size digits
    | digits => Radix.decimal.below? UInt32.size digits
  (code.filter fun code => decide code.isValidChar).map Char.ofNat

/-- White space between elements. -/
def isLayout (c : Char) : Bool := isTagSpace c || c == '\x0c'

namespace Place

/-- The element that the end of the document would cut short. Elements whose
content does not matter are not told apart. -/
def element : Place → String
  | document _ => "document"
  | root _ => "TS"
  | context _ => "context"
  | message _ => "message"
  | forms _ => "translation"
  | text host _ => host.element
  | location _ _ | byte _ _ _ | skipped _ => "element"

/-- Pass over an element that does not belong where it stands. -/
def skipUnexpected (place : Place) (tag : Tag) : Step Place := do
  Step.note (.unexpectedElement (String.ofList tag.name) place.element)
  pure (skipped place)

/-- Go into an element. -/
def enter (place : Place) (tag : Tag) : Step Place :=
  match place with
  | document none =>
    match String.ofList tag.name with
    | "TS" => OpenCatalog.start tag
    | _ => place.skipUnexpected tag
  | document (some _) => place.skipUnexpected tag
  | root catalog =>
    match String.ofList tag.name with
    | "context" => pure (context ⟨catalog, none, #[]⟩)
    | _ => place.skipUnexpected tag
  | context inner =>
    match String.ofList tag.name with
    | "name" => pure (text (.contextName inner) "")
    | "message" => OpenMessage.start inner tag
    | _ => place.skipUnexpected tag
  | message inner =>
    match String.ofList tag.name with
    | "location" => startLocation inner tag
    | "source" => pure (text (.part .source inner) "")
    | "comment" => pure (text (.part .comment inner) "")
    | "extracomment" => pure (text (.part .extraComment inner) "")
    | "translatorcomment" => pure (text (.part .translatorComment inner) "")
    | "translation" => startTranslation inner tag
    | _ => place.skipUnexpected tag
  | forms inner =>
    match String.ofList tag.name with
    | "numerusform" => pure (text (.form inner) "")
    | _ => place.skipUnexpected tag
  | text host content =>
    match String.ofList tag.name with
    | "byte" => startByte host content tag
    | _ => place.skipUnexpected tag
  | location _ _ | byte _ _ _ | skipped _ => pure (skipped place)

/-- Go out of the innermost element. -/
def leave : Place → Step Place
  | document catalog => pure (document catalog)
  | root catalog => pure (document (some catalog.close))
  | context inner => inner.close
  | message inner => inner.close
  | location complete outer =>
    pure (message { outer with locations := outer.locations.push complete })
  | forms inner =>
    pure (message { inner.outer with
      translation := some (.plural inner.forms.toList, inner.status) })
  | text (.contextName outer) content => pure (context { outer with name := some content })
  | text (.part part outer) content => pure (message (outer.set part content))
  | text (.form outer) content => pure (forms { outer with forms := outer.forms.push content })
  | byte value host content =>
    match value.bind byteCharacter? with
    | some c => pure (text host (content.push c))
    | none => do
      Step.note (.invalidByte value)
      pure (text host content)
  | skipped outer => pure outer

/-- Between elements, text may only lay them out. -/
def expectLayout (place : Place) (run : List Char) : Step Place :=
  if run.all isLayout then pure place
  else do
    Step.note (.strayText place.element)
    pure place

/-- Take a run of text. -/
def takeText (place : Place) (run : List Char) : Step Place :=
  match place with
  | text host content =>
    match Entity.unescape run with
    | .ok plain => pure (text host (content ++ plain))
    | .error fault => Step.fail (.malformed (.inEntity fault))
  | location _ _ | byte _ _ _ | skipped _ => pure place
  | _ => place.expectLayout run

/-- Take a section of character data. -/
def takeData (place : Place) (data : List Char) : Step Place :=
  match place with
  | text host content => pure (text host (content ++ String.ofList data))
  | forms _ => do
    Step.note .looseData
    pure place
  | _ => pure place

/-- Check the encoding that a declaration names; only UTF-8 is accepted. -/
def checkEncoding (attributes : List Char) : Step Unit :=
  match Tag.firstValue? "encoding".toList 3 attributes with
  | none => pure ()
  | some value =>
    let label := String.ofList (value.map Char.toLower)
    if label = "utf-8" ∨ label = "utf8" then pure ()
    else Step.fail (.unsupportedEncoding label)

/-- Take a declaration, which counts outside every element only. -/
def takeDeclaration (place : Place) (attributes : List Char) : Step Place :=
  match place with
  | document _ => do
    checkEncoding attributes
    pure place
  | _ => pure place

/-- Take one event. -/
def take (place : Place) (event : MarkupEvent) : Step Place :=
  match event with
  | .text run => place.takeText run
  | .data content => place.takeData content
  | .declaration attributes => place.takeDeclaration attributes
  | .remark => pure place
  | .start tag => place.enter tag
  | .stop => place.leave

/-- The catalog at the end of the document. -/
def finish (place : Place) : Except Fatal Catalog :=
  match place with
  | document (some catalog) => .ok catalog
  | document none => .error (.irregular .missingRoot)
  | _ => .error (.malformed (.endInside place.element))

end Place

/-- The place of the reader and what it has passed over. -/
structure State where
  /-- Where the reader stands. -/
  place : Place
  /-- The irregularities so far with their offsets. -/
  noted : Array (Nat × Irregularity)

namespace State

/-- The reader before the first event. -/
def initial : State := ⟨.document none, #[]⟩

/-- Take one event under a policy. The strict policy ends the reading at the
first irregularity, even if the event shows a fatal fault behind it. -/
def advance (policy : Policy) (state : State) (offset : Nat) (event : MarkupEvent) :
    Except (Nat × Fatal) State :=
  let step := state.place.take event
  match policy, step.notes with
  | .strict, reason :: _ => .error (offset, .irregular reason)
  | _, notes =>
    match step.outcome with
    | .error fatal => .error (offset, fatal)
    | .ok place =>
      .ok ⟨place, notes.foldl (fun noted reason => noted.push (offset, reason)) state.noted⟩

end State

end Reader

/-- Leave out a byte order mark at the start of a document. -/
def withoutByteOrderMark : List Char → List Char
  | '\uFEFF' :: rest => rest
  | text => text

namespace Report

/-- Read the characters of a document. -/
def ofChars (policy : Policy) (text : List Char) : Except CatalogError Report :=
  let place := Position.ofOffset text
  match (Cursor.ofText text).fold (Reader.State.advance policy)
      (fun offset fault => (offset, .malformed fault)) Reader.State.initial with
  | .error (offset, fatal) => .error (fatal.at (place offset))
  | .ok (offset, state) =>
    match state.place.finish with
    | .error fatal => .error (fatal.at (place offset))
    | .ok catalog =>
      .ok ⟨catalog, state.noted.toList.map fun (offset, reason) => ⟨place offset, reason⟩⟩

/-- Read a document. -/
def ofText (policy : Policy) (text : String) : Except CatalogError Report :=
  ofChars policy (withoutByteOrderMark text.toList)

/-- Read the bytes of a document. -/
def ofBytes (policy : Policy) (bytes : ByteArray) : Except CatalogError Report :=
  match Utf8.decode bytes with
  | .ok text => ofText policy text
  | .error offset => .error (.notUtf8 offset)

end Report

end MessageCatalog
