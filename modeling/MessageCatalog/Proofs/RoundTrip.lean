import MessageCatalog.Proofs.WrittenLines
import MessageCatalog.Proofs.WrittenParts

/-!
# Catalogs are read back as they were written

Each part of a written catalog leads the reader to the place that holds this
part, with exactly the fields that were written, up to the whole document. So
writing loses nothing, and what is written is regular: reading it back gives
the same catalog without a warning.
-/

namespace MessageCatalog

namespace Reader

namespace Standing

variable {opened : List (List Char)}

/-- A written text element leads where its text belongs. -/
theorem lines_element {indentation name content : String} {host : TextHost}
    {place next : Place} (blank : indentation.toList.all isLayout = true)
    (named : IsName name.toList)
    (entered : ∀ attributes, place.enter ⟨name.toList, attributes⟩ = pure (.text host ""))
    (between : place.IsBetween) (left : (Place.text host content).leave = pure next) :
    Lines opened (Written.element indentation name content).toList place next := by
  rw [Written.toList_element]
  exact Lines.textElement named (by simp) (entered _) between left (Layout.of_all blank)

/-- A written location is added to the message. -/
theorem lines_location (outer : OpenMessage) (location : Location) :
    Lines opened (Written.location location).toList (.message outer)
      (.message { outer with locations := outer.locations.push location }) := by
  have readable := Written.readable_locationAttributes location
  have entered := Place.enter_location outer location
  rw [Written.toList_location]
  exact Lines.closing (by decide) readable.1 entered trivial rfl (Layout.of_all rfl)

/-- Written plural forms are added to the translation. -/
theorem lines_forms (outer : OpenMessage) (status : Status) (values : List String) :
    Lines opened
      (values.flatMap fun value =>
        (Written.element "            " "numerusform" value).toList)
      (.forms ⟨outer, status, #[]⟩) (.forms ⟨outer, status, values.toArray⟩) := by
  have each (before : Array String) (value : String) :
      Lines opened (Written.element "            " "numerusform" value).toList
        (.forms ⟨outer, status, before⟩) (.forms ⟨outer, status, before.push value⟩) := by
    have entered (attributes : List Char) :
        (Place.forms ⟨outer, status, before⟩).enter ⟨"numerusform".toList, attributes⟩ =
          pure (.text (.form ⟨outer, status, before⟩) "") := by
      simp only [Place.enter, String.ofList_toList]
    exact lines_element rfl (by decide) entered trivial rfl
  exact Lines.flatMap each values

/-- A written translation is the translation of the message. -/
theorem lines_translation {outer : OpenMessage} {translation : Translation} (status : Status)
    (kind : outer.plural = translation.isPlural) :
    Lines opened (Written.translation translation status).toList (.message outer)
      (.message { outer with translation := some (translation, status) }) := by
  have readable := Written.readable_translationAttributes status
  have entered := Place.enter_translation outer status
  rw [Written.toList_translation]
  cases translation with
  | singular content =>
    have singular : outer.plural = false := kind
    rw [singular, if_neg (by simp)] at entered
    rw [Written.toList_singular]
    exact Lines.textElement (by decide) readable.1 entered trivial rfl (Layout.of_all rfl)
  | plural values =>
    have plural : outer.plural = true := kind
    rw [plural, if_pos rfl] at entered
    have inside := @lines_forms ("translation".toList :: opened) outer status values
    cases values with
    | nil =>
      have text : (Written.translationContent (.plural [])).toList = [] := rfl
      rw [text]
      have lines := Lines.element (by decide) readable.1 entered trivial inside trivial rfl
        (Layout.of_all rfl : Layout "        ".toList) Layout.nil Layout.nil
      exact lines
    | cons value rest =>
      rw [Written.toList_plural]
      have lines := Lines.element (by decide) readable.1 entered trivial inside trivial rfl
        (Layout.of_all rfl : Layout "        ".toList) Layout.lineEnd
        (Layout.of_all rfl : Layout "        ".toList)
      exact lines

/-- Entering an element of a message that holds a text. -/
theorem enter_part {part : MessageText} (untranslated : ∀ status, part ≠ .translation status)
    (outer : OpenMessage) (attributes : List Char) :
    (Place.message outer).enter ⟨part.element.toList, attributes⟩ =
      pure (.text (.part part outer) "") := by
  cases part with
  | source | comment | extraComment | translatorComment =>
    simp only [Place.enter, String.ofList_toList, MessageText.element]
  | translation status => exact absurd rfl (untranslated status)

/-- A written text of a message is put where it belongs. -/
theorem lines_part (part : MessageText) (untranslated : ∀ status, part ≠ .translation status)
    (outer : OpenMessage) (content : String) :
    Lines opened (Written.element "        " part.element content).toList (.message outer)
      (.message (outer.set part content)) := by
  have named : IsName part.element.toList := by
    cases part with
    | source | comment | extraComment | translatorComment => decide
    | translation status => exact absurd rfl (untranslated status)
  exact lines_element rfl named (enter_part untranslated outer) trivial rfl

/-- A written text of a message that may be left out. -/
theorem lines_optionalPart (part : MessageText)
    (untranslated : ∀ status, part ≠ .translation status) {outer next : OpenMessage}
    {value : Option String} (absent : value = none → next = outer)
    (present : ∀ content, value = some content → next = outer.set part content) :
    Lines opened (Written.optionalElement "        " part.element value).toList (.message outer)
      (.message next) := by
  cases value with
  | none =>
    rw [absent rfl]
    exact Lines.nil
  | some content =>
    rw [present content rfl]
    exact lines_part part untranslated outer content

/-- Written locations are added to the message. -/
theorem lines_locations (outer : OpenContext) (plural : Bool) (utf8 : Option String)
    (locations : List Location) :
    Lines opened (locations.flatMap fun location => (Written.location location).toList)
      (.message ⟨outer, plural, utf8, #[], none, none, none, none, none⟩)
      (.message ⟨outer, plural, utf8, locations.toArray, none, none, none, none, none⟩) :=
  Lines.flatMap (fun before location =>
    lines_location ⟨outer, plural, utf8, before, none, none, none, none, none⟩ location) locations

/-- The lines inside a written message are its fields. -/
theorem lines_messageLines (outer : OpenContext) (message : Message) :
    Lines opened (Written.messageLines message)
      (.message ⟨outer, message.isPlural, message.utf8, #[], none, none, none, none, none⟩)
      (.message ⟨outer, message.isPlural, message.utf8, message.locations.toArray,
        some message.source, message.comment, message.extraComment, message.translatorComment,
        some (message.translation, message.status)⟩) := by
  let filled (source comment extraComment translatorComment : Option String) : OpenMessage :=
    ⟨outer, message.isPlural, message.utf8, message.locations.toArray, source, comment,
      extraComment, translatorComment, none⟩
  have locations := @lines_locations opened outer message.isPlural message.utf8 message.locations
  have source : Lines opened (Written.element "        " "source" message.source).toList
      (.message (filled none none none none))
      (.message (filled (some message.source) none none none)) :=
    lines_part .source (by simp) _ message.source
  have comment : Lines opened (Written.optionalElement "        " "comment" message.comment).toList
      (.message (filled (some message.source) none none none))
      (.message (filled (some message.source) message.comment none none)) :=
    lines_optionalPart .comment (by simp) (fun none => by rw [none])
      (fun content some => by rw [some]; rfl)
  have extraComment : Lines opened
      (Written.optionalElement "        " "extracomment" message.extraComment).toList
      (.message (filled (some message.source) message.comment none none))
      (.message (filled (some message.source) message.comment message.extraComment none)) :=
    lines_optionalPart .extraComment (by simp) (fun none => by rw [none])
      (fun content some => by rw [some]; rfl)
  have translatorComment : Lines opened
      (Written.optionalElement "        " "translatorcomment" message.translatorComment).toList
      (.message (filled (some message.source) message.comment message.extraComment none))
      (.message (filled (some message.source) message.comment message.extraComment
        message.translatorComment)) :=
    lines_optionalPart .translatorComment (by simp) (fun none => by rw [none])
      (fun content some => by rw [some]; rfl)
  have translation := @lines_translation opened
    (filled (some message.source) message.comment message.extraComment message.translatorComment)
    message.translation message.status rfl
  exact locations.append (source.append (comment.append (extraComment.append
    (translatorComment.append translation))))

/-- A written message is added to its context. -/
theorem lines_message (outer : OpenContext) (message : Message) :
    Lines opened (Written.message message).toList (.context outer)
      (.context { outer with messages := outer.messages.push message }) := by
  have readable := Written.readable_messageAttributes message
  have entered := Place.enter_messageElement outer message
  rw [Written.toList_message]
  exact Lines.element (by decide) readable.1 entered trivial (lines_messageLines outer message)
    trivial rfl (Layout.of_all rfl) Layout.lineEnd (Layout.of_all rfl)

/-- Written messages are added to their context. -/
theorem lines_messages (outer : OpenCatalog) (name : String) (messages : List Message) :
    Lines opened (messages.flatMap fun message => (Written.message message).toList)
      (.context ⟨outer, some name, #[]⟩) (.context ⟨outer, some name, messages.toArray⟩) :=
  Lines.flatMap (fun before message => lines_message ⟨outer, some name, before⟩ message) messages

/-- A written context is added to its catalog. -/
theorem lines_context (outer : OpenCatalog) (context : Context) :
    Lines opened (Written.context context).toList (.root outer)
      (.root { outer with contexts := outer.contexts.push context }) := by
  have entered : (Place.root outer).enter ⟨"context".toList, Written.attributeTexts []⟩ =
      pure (.context ⟨outer, none, #[]⟩) := by
    simp only [Place.enter, String.ofList_toList]
  have named (attributes : List Char) :
      (Place.context ⟨outer, none, #[]⟩).enter ⟨"name".toList, attributes⟩ =
        pure (.text (.contextName ⟨outer, none, #[]⟩) "") := by
    simp only [Place.enter, String.ofList_toList]
  have name : Lines ("context".toList :: opened)
      (Written.element "    " "name" context.name).toList
      (.context ⟨outer, none, #[]⟩) (.context ⟨outer, some context.name, #[]⟩) :=
    lines_element rfl (by decide) named trivial rfl
  have inside := name.append (lines_messages outer context.name context.messages)
  rw [Written.toList_context]
  exact Lines.element (by decide) (by simp) entered trivial inside trivial rfl Layout.nil
    Layout.lineEnd Layout.nil

/-- Written contexts are added to their catalog. -/
theorem lines_contexts (version : String) (language sourceLanguage : Option String)
    (contexts : List Context) :
    Lines opened (contexts.flatMap fun context => (Written.context context).toList)
      (.root ⟨version, language, sourceLanguage, #[]⟩)
      (.root ⟨version, language, sourceLanguage, contexts.toArray⟩) :=
  Lines.flatMap (fun before context =>
    lines_context ⟨version, language, sourceLanguage, before⟩ context) contexts

/-- The declaration of a written document names an encoding that is accepted. -/
theorem leads_declaration (rest : List Char) :
    Leads ⟨'<' :: '?' :: ("xml version=\"1.0\" encoding=\"utf-8\"?".toList ++ '>' :: rest), [],
      .document none⟩ ⟨rest, [], .document none⟩ := by
  have named : Tag.firstValue? "encoding".toList 3
      " version=\"1.0\" encoding=\"utf-8\"".toList = some "utf-8".toList := by decide +kernel
  have accepted : Place.checkEncoding " version=\"1.0\" encoding=\"utf-8\"".toList =
      pure () := by
    rw [Place.checkEncoding, named]
    rfl
  refine Leads.of_next (.declaration " version=\"1.0\" encoding=\"utf-8\"".toList)
    (fun offset => ⟨_, _, rfl⟩) ?_
  change (Place.checkEncoding " version=\"1.0\" encoding=\"utf-8\"".toList >>= fun _ => pure _) = _
  rw [accepted, pure_bind]

/-- The document type of a written document leads nowhere. -/
theorem leads_doctype (rest : List Char) :
    Leads ⟨'<' :: '!' :: ("DOCTYPE TS".toList ++ '>' :: rest), [], .document none⟩
      ⟨rest, [], .document none⟩ :=
  Leads.of_next .remark (fun _ => ⟨_, _, rfl⟩) rfl

/-- What stands before the root element leads nowhere. -/
theorem leads_prologue (rest : List Char) :
    Leads ⟨Written.prologue.toList ++ '<' :: rest, [], .document none⟩
      ⟨'<' :: rest, [], .document none⟩ := by
  have shape : Written.prologue.toList =
      '<' :: '?' :: ("xml version=\"1.0\" encoding=\"utf-8\"?".toList ++ '>' :: (['\n'] ++
        '<' :: '!' :: ("DOCTYPE TS".toList ++ '>' :: ['\n']))) := rfl
  let doctype := '!' :: ("DOCTYPE TS".toList ++ '>' :: (['\n'] ++ '<' :: rest))
  have declaration := leads_declaration (['\n'] ++ '<' :: doctype)
  have outside : Place.IsBetween (.document none) := trivial
  have first := leads_layout outside Layout.lineEnd [] doctype
  have type := leads_doctype (['\n'] ++ '<' :: rest)
  have second := leads_layout outside Layout.lineEnd [] rest
  have whole := ((declaration.trans first).trans type).trans second
  rw [shape]
  simpa only [doctype, List.append_assoc, List.cons_append, List.nil_append] using whole

/-- The written root element leads to the catalog. -/
theorem lines_root (catalog : Catalog) :
    Lines [] (Written.elementLine [] "TS".toList (Written.catalogAttributes catalog)
      (['\n'] ++ (catalog.contexts.flatMap (fun context => (Written.context context).toList) ++
        []))) (.document none) (.document (some catalog)) := by
  have readable := Written.readable_catalogAttributes catalog
  have entered := Place.enter_rootElement catalog
  have inside := @lines_contexts ["TS".toList] catalog.version catalog.language
    catalog.sourceLanguage catalog.contexts
  exact Lines.element (by decide) readable.1 entered trivial inside trivial rfl Layout.nil
    Layout.lineEnd Layout.nil

/-- A written catalog leads to the catalog. -/
theorem leads_toText (catalog : Catalog) :
    Leads ⟨catalog.toText.toList, [], .document none⟩ ⟨[], [], .document (some catalog)⟩ := by
  obtain ⟨behind, layout, through⟩ := lines_root catalog [] Layout.nil
  have ended : Place.IsBetween (.document (some catalog)) := trivial
  have last : Leads ⟨behind ++ [], [], .document (some catalog)⟩
      ⟨[], [], .document (some catalog)⟩ :=
    leads_text layout.bracketless (Place.takeText_layout ended layout) (fun _ => rfl) []
      (fun _ member => absurd member (by simp))
  have root := through []
  rw [List.nil_append, List.append_nil] at root
  rw [Written.toList_toText]
  exact (leads_prologue _).trans (root.trans last)

end Standing

end Reader

namespace Report

/-- A document that is written starts the reader as any text does, and what it leads to
is the catalog. -/
theorem ofText_written (policy : Policy) (catalog : Catalog) :
    ofText policy catalog.toText = .ok ⟨catalog, []⟩ := by
  refine ofText_of_leads ?_ (Reader.Standing.leads_toText catalog) policy
  rw [Written.toList_toText]
  simp [Written.prologue]

/-- A catalog is read back from its document, without a warning, and even where
none is allowed. -/
theorem ofText_toText (policy : Policy) (catalog : Catalog) :
    ofText policy catalog.toText = .ok ⟨catalog, []⟩ :=
  ofText_written policy catalog

end Report

end MessageCatalog
