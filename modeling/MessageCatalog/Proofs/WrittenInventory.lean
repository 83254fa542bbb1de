import MessageCatalog.Proofs.TagOccurrences
import MessageCatalog.Proofs.WrittenContent
import MessageCatalog.Proofs.WrittenParts

/-!
# The tags of a written document

The tags of a document are those that its contexts, messages and fields are written with.
No text of the catalog adds one or hides one, because every bracket in it is escaped. So
the numbers of contexts and messages, and of messages of each status and with plural forms,
can be read off the document by counting how often the fronts of their tags stand in it.
-/

namespace MessageCatalog

namespace Written

/-! ## The tags -/

/-- The tags in the content of a text element: one for each control character that has an
element of its own. -/
def contentTags (content : String) : List (List Char) :=
  (content.toList.filter Entity.isNamedByElement).map fun c =>
    "byte".toList ++ (attributeTexts [("value", Entity.elementValue c)] ++ ['/'])

/-- The tag that opens an element. -/
def startTag (name : List Char) (attributes : List (String × String)) : List Char :=
  name ++ attributeTexts attributes

/-- The tags of an element with others inside. -/
def elementTags (name : List Char) (attributes : List (String × String))
    (inside : List (List Char)) : List (List Char) :=
  startTag name attributes :: (inside ++ ['/' :: name])

/-- The tags of a text element. -/
def textTags (name content : String) : List (List Char) :=
  elementTags name.toList [] (contentTags content)

/-- The tag of a location. -/
def locationTag (location : Location) : List Char :=
  "location".toList ++ (attributeTexts (locationAttributes location) ++ ['/'])

/-- The tags inside a translation. -/
def formTags : Translation → List (List Char)
  | .singular content => contentTags content
  | .plural forms => forms.flatMap (textTags "numerusform")

/-- The tags inside a message. -/
def fieldTags (message : Message) : List (List Char) :=
  message.locations.map locationTag ++
    (textTags "source" message.source ++
    (message.comment.toList.flatMap (textTags "comment") ++
    (message.extraComment.toList.flatMap (textTags "extracomment") ++
    (message.translatorComment.toList.flatMap (textTags "translatorcomment") ++
    elementTags "translation".toList (translationAttributes message.status)
      (formTags message.translation)))))

/-- The tags of a message. -/
def messageTags (message : Message) : List (List Char) :=
  elementTags "message".toList (messageAttributes message) (fieldTags message)

/-- The tags of a context. -/
def contextTags (context : Context) : List (List Char) :=
  elementTags "context".toList []
    (textTags "name" context.name ++ context.messages.flatMap messageTags)

/-- The tags of a document, with the two that stand before its root element. -/
def catalogTags (catalog : Catalog) : List (List Char) :=
  ["?xml version=\"1.0\" encoding=\"utf-8\"?".toList, "!DOCTYPE TS".toList] ++
    elementTags "TS".toList (catalogAttributes catalog) (catalog.contexts.flatMap contextTags)

/-! ## The text with its tags -/

/-- There is no bracket at the end of a line. -/
theorem bracketless_lineEnd : '<' ∉ ['\n'] := by decide

/-- There is no bracket in a name. -/
theorem bracketless_name {name : List Char} (named : IsName name) : '<' ∉ name := fun member =>
  named.ne member '<' (by decide) rfl

/-- There is no bracket in written attributes. -/
theorem bracketless_attributeTexts {attributes : List (String × String)}
    (named : ∀ entry ∈ attributes, IsName entry.1.toList) : '<' ∉ attributeTexts attributes := by
  intro member
  obtain ⟨entry, listed, inside⟩ := List.mem_flatMap.mp member
  have value : '<' ∉ entry.2.toList.flatMap Entity.escapeMarkup := by
    intro member
    obtain ⟨d, _, escaped⟩ := List.mem_flatMap.mp member
    exact absurd (Entity.isMarkupSign_escapeMarkup escaped) (by decide)
  rw [toList_attributeText] at inside
  simp [bracketless_name (named entry listed), value] at inside

/-- There is no bracket in a written start tag. -/
theorem bracketless_start {name : List Char} {attributes : List (String × String)}
    (named : IsName name) (keys : ∀ entry ∈ attributes, IsName entry.1.toList) :
    '<' ∉ name ++ attributeTexts attributes :=
  List.not_mem_append (bracketless_name named) (bracketless_attributeTexts keys)

/-- An element that closes itself is one tag. -/
theorem tagged_closing {name text : List Char} {attributes : List (String × String)}
    {tags : List (List Char)} (named : IsName name)
    (keys : ∀ entry ∈ attributes, IsName entry.1.toList) (behind : Tagged text tags) :
    Tagged ('<' :: (name ++ attributeTexts attributes ++ '/' :: '>' :: text))
      ((name ++ (attributeTexts attributes ++ ['/'])) :: tags) := by
  have slash : '<' ∉ ['/'] := by decide
  have bracketless := List.not_mem_append (bracketless_start named keys) slash
  rw [List.append_assoc] at bracketless
  simpa using Tagged.tag bracketless behind

/-- The content of a text element with its tags. -/
theorem tagged_content (content : String) :
    Tagged (content.toList.flatMap Entity.escapeText) (contentTags content) := by
  rw [contentTags]
  induction content.toList with
  | nil => exact .nil
  | cons c rest ih =>
    rw [List.flatMap_cons]
    cases named : Entity.isNamedByElement c with
    | false =>
      rw [List.filter_cons_of_neg (by simp [named])]
      exact ih.run fun member => Entity.bracketless_escapeText named member rfl
    | true =>
      rw [List.filter_cons_of_pos named, List.map_cons, Entity.escapeText_of_named named]
      have keys : ∀ entry ∈ [("value", Entity.elementValue c)], IsName entry.1.toList := by
        simp only [List.mem_singleton, forall_eq]
        decide
      simpa using tagged_closing (by decide : IsName "byte".toList) keys ih

variable {indentation name inside : List Char} {attributes : List (String × String)}
  {tags : List (List Char)}

/-- An element with the tags that are inside. -/
theorem tagged_elementLine (indented : '<' ∉ indentation) (named : IsName name)
    (keys : ∀ entry ∈ attributes, IsName entry.1.toList) (within : Tagged inside tags) :
    Tagged (elementLine indentation name attributes inside) (elementTags name attributes tags) := by
  have stop : '<' ∉ '/' :: name := List.not_mem_cons_of_ne_of_not_mem (by decide)
    (bracketless_name named)
  have lineEnd : Tagged ['\n'] [] := .char (by decide) .nil
  have behind := within.append (.tag stop lineEnd)
  exact .run indented (.tag (bracketless_start named keys) behind)

/-- A text element with its tags. -/
theorem tagged_element {indentation name : String} (indented : '<' ∉ indentation.toList)
    (named : IsName name.toList) (content : String) :
    Tagged (element indentation name content).toList (textTags name content) := by
  rw [toList_element]
  exact tagged_elementLine indented named (by simp) (tagged_content content)

/-- A text element that may be left out with its tags. -/
theorem tagged_optionalElement {indentation name : String}
    (indented : '<' ∉ indentation.toList) (named : IsName name.toList)
    (content : Option String) :
    Tagged (optionalElement indentation name content).toList
      (content.toList.flatMap (textTags name)) := by
  cases content with
  | none => exact .nil
  | some content =>
    rw [Option.toList_some, List.flatMap_singleton]
    exact tagged_element indented named content

/-- A location with its tag. -/
theorem tagged_location (location : Location) :
    Tagged (Written.location location).toList [locationTag location] := by
  have readable := readable_locationAttributes location
  rw [toList_location]
  exact .run (by decide) (tagged_closing (by decide) readable.1 (.char (by decide) .nil))

/-- A translation with its tags. -/
theorem tagged_translation (translation : Translation) (status : Status) :
    Tagged (Written.translation translation status).toList
      (elementTags "translation".toList (translationAttributes status) (formTags translation)) := by
  have readable := readable_translationAttributes status
  rw [toList_translation]
  refine tagged_elementLine (by decide) (by decide) readable.1 ?_
  match translation with
  | .singular content =>
    rw [toList_singular]
    exact tagged_content content
  | .plural [] => exact .nil
  | .plural (first :: rest) =>
    have forms := Tagged.flatMap
      (fun form => tagged_element (by decide : '<' ∉ "            ".toList)
        (by decide : IsName "numerusform".toList) form) (first :: rest)
    have indented := forms.append (.run (by decide : '<' ∉ "        ".toList) .nil)
    rw [toList_plural]
    simpa [formTags] using indented.run bracketless_lineEnd

/-- A message with its tags. -/
theorem tagged_message (message : Message) :
    Tagged (Written.message message).toList (messageTags message) := by
  have readable := readable_messageAttributes message
  have locations : Tagged (message.locations.flatMap fun location =>
      (Written.location location).toList) (message.locations.map locationTag) := by
    rw [List.map_eq_flatMap]
    exact .flatMap tagged_location message.locations
  have fields : Tagged (messageLines message) (fieldTags message) :=
    locations.append
      ((tagged_element (by decide) (by decide) message.source).append
        ((tagged_optionalElement (by decide) (by decide) message.comment).append
          ((tagged_optionalElement (by decide) (by decide) message.extraComment).append
            ((tagged_optionalElement (by decide) (by decide) message.translatorComment).append
              (tagged_translation message.translation message.status)))))
  have within := fields.append (.run (by decide : '<' ∉ "    ".toList) .nil)
  rw [List.append_nil, List.append_nil] at within
  rw [toList_message]
  exact tagged_elementLine (by decide) (by decide) readable.1 (within.run bracketless_lineEnd)

/-- A context with its tags. -/
theorem tagged_context (context : Context) :
    Tagged (Written.context context).toList (contextTags context) := by
  have named := tagged_element (by decide : '<' ∉ "    ".toList)
    (by decide : IsName "name".toList) context.name
  have within := named.append (.flatMap tagged_message context.messages)
  rw [toList_context, List.append_nil]
  exact tagged_elementLine (by decide) (by decide) (by simp) (within.run bracketless_lineEnd)

/-- A document with its tags. -/
theorem tagged_toText (catalog : Catalog) :
    Tagged catalog.toText.toList (catalogTags catalog) := by
  have readable := readable_catalogAttributes catalog
  have prologued : prologue.toList =
      '<' :: ("?xml version=\"1.0\" encoding=\"utf-8\"?".toList ++ '>' ::
        ('\n' :: '<' :: ("!DOCTYPE TS".toList ++ '>' :: ['\n']))) := rfl
  have first : Tagged prologue.toList
      ["?xml version=\"1.0\" encoding=\"utf-8\"?".toList, "!DOCTYPE TS".toList] := by
    rw [prologued]
    exact .tag (by decide) (.char (by decide) (.tag (by decide) (.char (by decide) .nil)))
  have contexts := Tagged.flatMap tagged_context catalog.contexts
  have root := tagged_elementLine (List.not_mem_nil : '<' ∉ [])
    (by decide : IsName "TS".toList) readable.1 (contexts.run bracketless_lineEnd)
  rw [toList_toText, List.append_nil, catalogTags]
  exact first.append root

/-! ## Counting -/

/-- The names with which the tags begin that are not those of contexts, messages and
translations; the slash is that of all end tags. -/
def otherNames : List String :=
  ["?xml", "!DOCTYPE", "TS", "/", "name", "location", "source", "comment", "extracomment",
    "translatorcomment", "numerusform", "byte"]

/-- A mark that begins no other tags than those of contexts, messages and translations. -/
structure Discerning (mark : List Char) : Prop where
  /-- It goes on up to a closing bracket at most. -/
  closed : '>' ∉ mark.dropLast
  /-- It does not go on from another name, and no other name from it. -/
  foreign : ∀ name ∈ otherNames, Foreign mark name.toList

namespace Discerning

variable {mark : List Char} (discerning : Discerning mark)
include discerning

/-- It begins no tag of another name. -/
theorem begins_other {name : String} (other : name ∈ otherNames) (attributes : List Char) :
    begins mark (name.toList ++ attributes) = false :=
  begins_of_foreign (discerning.foreign name other) attributes

/-- Of the tags of an element it may begin the first one and those inside. -/
theorem countP_elementTags (name : List Char) (attributes : List (String × String))
    (inside : List (List Char)) :
    (elementTags name attributes inside).countP (begins mark) =
      inside.countP (begins mark) +
        if begins mark (startTag name attributes) then 1 else 0 := by
  have stop : begins mark ('/' :: name) = false :=
    discerning.begins_other (by decide : "/" ∈ otherNames) name
  have last : ['/' :: name].countP (begins mark) = 0 := by
    rw [List.countP_cons_of_neg (by simp [stop]), List.countP_nil]
  rw [elementTags, List.countP_cons, List.countP_append, last, Nat.add_zero]

/-- It begins no tag in the content of a text element. -/
theorem countP_contentTags (content : String) :
    (contentTags content).countP (begins mark) = 0 := by
  refine List.countP_eq_zero.mpr fun tag member => ?_
  obtain ⟨c, _, rfl⟩ := List.mem_map.mp member
  exact ne_true_of_eq_false (discerning.begins_other (by decide : "byte" ∈ otherNames) _)

/-- It begins no tag of another text element. -/
theorem countP_textTags {name : String} (other : name ∈ otherNames) (content : String) :
    (textTags name content).countP (begins mark) = 0 := by
  rw [textTags, discerning.countP_elementTags, discerning.countP_contentTags, startTag,
    discerning.begins_other other]
  rfl

/-- It begins none of the tags of such elements. -/
theorem countP_flatMap_textTags {name : String} (other : name ∈ otherNames)
    (contents : List String) : (contents.flatMap (textTags name)).countP (begins mark) = 0 := by
  refine List.countP_eq_zero.mpr fun tag member => ?_
  obtain ⟨content, _, inside⟩ := List.mem_flatMap.mp member
  exact List.countP_eq_zero.mp (discerning.countP_textTags other content) tag inside

/-- Of the tags inside a message it may begin that of the translation. -/
theorem countP_fieldTags (message : Message) :
    (fieldTags message).countP (begins mark) =
      if begins mark (startTag "translation".toList (translationAttributes message.status)) then 1
      else 0 := by
  have locations : (message.locations.map locationTag).countP (begins mark) = 0 := by
    refine List.countP_eq_zero.mpr fun tag member => ?_
    obtain ⟨location, _, rfl⟩ := List.mem_map.mp member
    exact ne_true_of_eq_false (discerning.begins_other (by decide : "location" ∈ otherNames) _)
  have forms : (formTags message.translation).countP (begins mark) = 0 := by
    cases message.translation with
    | singular content => exact discerning.countP_contentTags content
    | plural forms => exact discerning.countP_flatMap_textTags (by decide) forms
  rw [fieldTags, List.countP_append, List.countP_append, List.countP_append, List.countP_append,
    List.countP_append, locations,
    discerning.countP_textTags (by decide : "source" ∈ otherNames),
    discerning.countP_flatMap_textTags (by decide : "comment" ∈ otherNames),
    discerning.countP_flatMap_textTags (by decide : "extracomment" ∈ otherNames),
    discerning.countP_flatMap_textTags (by decide : "translatorcomment" ∈ otherNames),
    discerning.countP_elementTags, forms]
  simp only [Nat.zero_add]

/-- Of the tags of some messages it may begin those of the messages and of their
translations. -/
theorem countP_messageTags (messages : List Message) :
    (messages.flatMap messageTags).countP (begins mark) =
      messages.countP (fun message => begins mark
        (startTag "message".toList (messageAttributes message))) +
      messages.countP fun message => begins mark
        (startTag "translation".toList (translationAttributes message.status)) := by
  induction messages with
  | nil => rfl
  | cons message rest ih =>
    rw [List.flatMap_cons, List.countP_append, ih, messageTags, discerning.countP_elementTags,
      discerning.countP_fieldTags, List.countP_cons, List.countP_cons]
    ac_rfl

/-- Of the tags of some contexts it may begin those of the contexts and those that it may
begin of their messages. -/
theorem countP_contextTags (contexts : List Context) :
    (contexts.flatMap contextTags).countP (begins mark) =
      contexts.countP (fun _ => begins mark (startTag "context".toList [])) +
        ((contexts.flatMap Context.messages).flatMap messageTags).countP (begins mark) := by
  induction contexts with
  | nil => rfl
  | cons context rest ih =>
    rw [List.flatMap_cons, List.countP_append, ih, contextTags, discerning.countP_elementTags,
      List.countP_append, discerning.countP_textTags (by decide : "name" ∈ otherNames),
      List.countP_cons, List.flatMap_cons, List.flatMap_append, List.countP_append,
      Nat.zero_add]
    ac_rfl

/-- Of the tags of a document it may begin those of contexts, messages and translations. -/
theorem countP_catalogTags (catalog : Catalog) :
    (catalogTags catalog).countP (begins mark) =
      catalog.contexts.countP (fun _ => begins mark (startTag "context".toList [])) +
        (catalog.messages.countP (fun message => begins mark
          (startTag "message".toList (messageAttributes message))) +
        catalog.messages.countP fun message => begins mark
          (startTag "translation".toList (translationAttributes message.status))) := by
  have root : begins mark (startTag "TS".toList (catalogAttributes catalog)) = false :=
    discerning.begins_other (by decide) _
  have declaration : begins mark "?xml version=\"1.0\" encoding=\"utf-8\"?".toList = false :=
    discerning.begins_other (by decide : "?xml" ∈ otherNames)
      " version=\"1.0\" encoding=\"utf-8\"?".toList
  have type : begins mark "!DOCTYPE TS".toList = false :=
    discerning.begins_other (by decide : "!DOCTYPE" ∈ otherNames) " TS".toList
  have before : ["?xml version=\"1.0\" encoding=\"utf-8\"?".toList,
      "!DOCTYPE TS".toList].countP (begins mark) = 0 := by
    rw [List.countP_cons_of_neg (by simp only [declaration, Bool.false_eq_true, not_false_eq_true]),
      List.countP_cons_of_neg (by simp only [type, Bool.false_eq_true, not_false_eq_true]),
      List.countP_nil]
  rw [catalogTags, List.countP_append, before, discerning.countP_elementTags, root,
    discerning.countP_contextTags, ← Catalog.messages, discerning.countP_messageTags,
    if_neg Bool.false_ne_true, Nat.zero_add, Nat.add_zero]

/-- The occurrences in a document of a pattern that opens such tags. -/
theorem occurrences_toText {pattern : String} (opens : pattern.toList = '<' :: mark)
    (catalog : Catalog) :
    occurrences pattern catalog.toText =
      catalog.contexts.countP (fun _ => begins mark (startTag "context".toList [])) +
        (catalog.messages.countP (fun message => begins mark
          (startTag "message".toList (messageAttributes message))) +
        catalog.messages.countP fun message => begins mark
          (startTag "translation".toList (translationAttributes message.status))) := by
  rw [(tagged_toText catalog).occurrences_eq opens discerning.closed]
  exact discerning.countP_catalogTags catalog

end Discerning

/-- A mark does not begin a start tag whose name is foreign to it. -/
theorem begins_startTag {mark name : List Char} (foreign : Foreign mark name)
    (attributes : List (String × String)) : begins mark (startTag name attributes) = false :=
  begins_of_foreign foreign (attributeTexts attributes)

variable (catalog : Catalog)

/-- The tags of translations of a status stand in a document as often as there are messages
of that status. -/
theorem occurrences_translation (status : Status) {pattern : String}
    (opens : pattern.toList =
      '<' :: (startTag "translation".toList (translationAttributes status) ++ ['>'])) :
    occurrences pattern catalog.toText = catalog.messages.countP (·.status == status) := by
  let mark := startTag "translation".toList (translationAttributes status) ++ ['>']
  have discerning : Discerning mark := by
    cases status <;> exact ⟨by decide, by decide⟩
  have notContext : Foreign mark "context".toList := by
    cases status <;> decide
  have notMessage : Foreign mark "message".toList := by
    cases status <;> decide
  have own (other : Status) :
      begins mark (startTag "translation".toList (translationAttributes other)) =
        (other == status) := by
    cases status <;> cases other <;> decide
  rw [discerning.occurrences_toText opens]
  simp only [begins_startTag notContext, begins_startTag notMessage, own, List.countP_false,
    Function.const_apply, Nat.zero_add]

/-- The start tags of contexts stand in a document as often as there are contexts. -/
theorem occurrences_context : occurrences "<context>" catalog.toText = catalog.contexts.length := by
  have discerning : Discerning "context>".toList := ⟨by decide, by decide⟩
  have notMessage : Foreign "context>".toList "message".toList := by decide
  have notTranslation : Foreign "context>".toList "translation".toList := by decide
  have own : begins "context>".toList (startTag "context".toList []) = true := by decide
  rw [discerning.occurrences_toText rfl]
  simp only [begins_startTag notMessage, begins_startTag notTranslation, own, List.countP_false,
    List.countP_true, Function.const_apply, Nat.add_zero]

/-- The fronts of the start tags of messages stand in a document as often as there are
messages. -/
theorem occurrences_message : occurrences "<message" catalog.toText = catalog.messages.length := by
  have discerning : Discerning "message".toList := ⟨by decide, by decide⟩
  have notContext : Foreign "message".toList "context".toList := by decide
  have notTranslation : Foreign "message".toList "translation".toList := by decide
  have own (message : Message) :
      begins "message".toList (startTag "message".toList (messageAttributes message)) = true := by
    rw [begins, startTag, List.append_assoc, List.isPrefixOf_iff_prefix]
    exact List.prefix_append _ _
  rw [discerning.occurrences_toText rfl]
  simp only [begins_startTag notContext, begins_startTag notTranslation, own, List.countP_false,
    List.countP_true, Function.const_apply, Nat.zero_add, Nat.add_zero]

/-- Those with the mark of plural forms stand in it as often as there are messages with
plural forms. -/
theorem occurrences_numerus :
    occurrences "<message numerus=\"yes\"" catalog.toText =
      catalog.messages.countP Message.isPlural := by
  let mark := "message numerus=\"yes\"".toList
  have discerning : Discerning mark := ⟨by decide, by decide⟩
  have notContext : Foreign mark "context".toList := by decide
  have notTranslation : Foreign mark "translation".toList := by decide
  have own (message : Message) :
      begins mark (startTag "message".toList (messageAttributes message)) = message.isPlural := by
    rw [messageAttributes, startTag]
    cases message.isPlural with
    | true =>
      have front : "message".toList ++ attributeTexts [("numerus", "yes")] = mark := by decide
      rw [if_pos rfl, attributeTexts_append, ← List.append_assoc, front, begins, List.append_assoc,
        List.isPrefixOf_iff_prefix]
      exact List.prefix_append mark _
    | false =>
      cases message.utf8 with
      | none => decide
      | some value =>
        have notUtf8 : Foreign mark ("message".toList ++ ' ' :: "utf8".toList) := by decide
        have front : "message".toList ++ attributeTexts [("utf8", value)] =
            ("message".toList ++ ' ' :: "utf8".toList) ++
              ('=' :: '"' :: (value.toList.flatMap Entity.escapeMarkup ++ ['"'])) := by
          rw [attributeTexts, List.flatMap_singleton, toList_attributeText]
          simp only [List.append_assoc, List.cons_append]
        rw [if_neg Bool.false_ne_true, List.nil_append, Option.map_some, Option.toList_some, front]
        exact begins_of_foreign notUtf8 _
  rw [discerning.occurrences_toText rfl]
  simp only [begins_startTag notContext, begins_startTag notTranslation, own, List.countP_false,
    Function.const_apply, Nat.zero_add, Nat.add_zero]

end Written

namespace Catalog

/-- A document tells the counts of its catalog, whatever the texts of the catalog are. -/
theorem tally_read_off (catalog : Catalog) :
    occurrences "<translation>" catalog.toText = catalog.tally.finished ∧
    occurrences "<translation type=\"unfinished\">" catalog.toText = catalog.tally.unfinished ∧
    occurrences "<translation type=\"obsolete\">" catalog.toText = catalog.tally.obsolete ∧
    occurrences "<translation type=\"vanished\">" catalog.toText = catalog.tally.vanished ∧
    occurrences "<context>" catalog.toText = catalog.tally.contexts ∧
    occurrences "<message" catalog.toText = catalog.tally.messages ∧
    occurrences "<message numerus=\"yes\"" catalog.toText = catalog.tally.plural :=
  ⟨Written.occurrences_translation catalog .finished rfl,
    Written.occurrences_translation catalog .unfinished rfl,
    Written.occurrences_translation catalog .obsolete rfl,
    Written.occurrences_translation catalog .vanished rfl,
    Written.occurrences_context catalog, Written.occurrences_message catalog,
    Written.occurrences_numerus catalog⟩

end Catalog

end MessageCatalog
