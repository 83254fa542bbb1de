import MessageCatalog.Proofs.TextRuns
import MessageCatalog.Proofs.WrittenStarts

/-!
# The parts of a written document

A document is put together from elements that stand on lines of their own, with the
attributes of some fields and with other lines or a text inside. Here each part is told
as the line that it is, for those who follow the document character by character.
-/

namespace MessageCatalog

namespace Written

/-- The lines inside a message. -/
def messageLines (message : Message) : List Char :=
  message.locations.flatMap (fun location => (Written.location location).toList) ++
    ((element "        " "source" message.source).toList ++
    ((optionalElement "        " "comment" message.comment).toList ++
    ((optionalElement "        " "extracomment" message.extraComment).toList ++
    ((optionalElement "        " "translatorcomment" message.translatorComment).toList ++
    (translation message.translation message.status).toList))))

/-- A text element. -/
theorem toList_element (indentation name content : String) :
    (element indentation name content).toList =
      elementLine indentation.toList name.toList [] (content.toList.flatMap Entity.escapeText) := by
  simp [element, elementLine, toList_text, attributeTexts]

/-- A location. -/
theorem toList_location (location : Location) :
    (Written.location location).toList =
      closedLine "        ".toList "location".toList (locationAttributes location) := by
  have head : "        <location".toList = "        ".toList ++ '<' :: "location".toList := rfl
  have last : "/>\n".toList = ['/', '>', '\n'] := rfl
  unfold Written.location
  rw [String.toList_append, String.toList_append, String.toList_append, head, last,
    toList_optionalAttribute, toList_optionalAttribute, closedLine, locationAttributes,
    attributeTexts_append, Option.map_map]
  simp only [List.append_assoc, List.cons_append]
  rfl

/-- A translation. -/
theorem toList_translation (translation : Translation) (status : Status) :
    (Written.translation translation status).toList =
      elementLine "        ".toList "translation".toList (translationAttributes status)
        (translationContent translation).toList := by
  have head : "        <translation".toList =
      "        ".toList ++ '<' :: "translation".toList := rfl
  have last : "</translation>\n".toList =
      '<' :: '/' :: ("translation".toList ++ '>' :: ['\n']) := rfl
  have bracket : ">".toList = ['>'] := rfl
  unfold Written.translation
  rw [String.toList_append, String.toList_append, String.toList_append, String.toList_append,
    head, last, bracket, toList_optionalAttribute]
  simp only [elementLine, List.append_assoc, List.cons_append, List.nil_append]
  rfl

/-- The text of a translation that has no forms. -/
theorem toList_singular (content : String) :
    (translationContent (.singular content)).toList =
      content.toList.flatMap Entity.escapeText :=
  toList_text content

/-- The forms of a translation, with the ends of the lines around them. -/
theorem toList_plural (first : String) (rest : List String) :
    (translationContent (.plural (first :: rest))).toList =
      ['\n'] ++ ((first :: rest).flatMap (fun form =>
        (element "            " "numerusform" form).toList) ++ "        ".toList) := by
  have lineEnd : "\n".toList = ['\n'] := rfl
  rw [translationContent, String.toList_append, String.toList_append, String.toList_join,
    List.flatMap_map, lineEnd, List.append_assoc]

/-- A message. -/
theorem toList_message (message : Message) :
    (Written.message message).toList =
      elementLine "    ".toList "message".toList (messageAttributes message)
        (['\n'] ++ (messageLines message ++ "    ".toList)) := by
  have head : "    <message".toList = "    ".toList ++ '<' :: "message".toList := rfl
  have last : "    </message>\n".toList =
      "    ".toList ++ '<' :: '/' :: ("message".toList ++ '>' :: ['\n']) := rfl
  have bracket : ">\n".toList = ['>', '\n'] := rfl
  have kind : (if message.isPlural then attributeText "numerus" "yes" else "").toList =
      attributeTexts (if message.isPlural then [("numerus", "yes")] else []) := by
    cases message.isPlural <;> rfl
  unfold Written.message
  simp only [String.toList_append, String.toList_join, List.flatMap_map, head, last, bracket,
    kind, toList_optionalAttribute, messageAttributes, attributeTexts_append, messageLines,
    elementLine, List.append_assoc, List.cons_append, List.nil_append]

/-- A context. -/
theorem toList_context (context : Context) :
    (Written.context context).toList =
      elementLine [] "context".toList []
        (['\n'] ++ (((element "    " "name" context.name).toList ++
          context.messages.flatMap fun message => (Written.message message).toList) ++ [])) := by
  have head : "<context>\n".toList = '<' :: ("context".toList ++ ['>', '\n']) := rfl
  have last : "</context>\n".toList = '<' :: '/' :: ("context".toList ++ '>' :: ['\n']) := rfl
  unfold Written.context
  simp only [String.toList_append, String.toList_join, List.flatMap_map, head, last, elementLine,
    attributeTexts, List.flatMap_nil, List.append_assoc, List.cons_append, List.nil_append,
    List.append_nil]

/-- A document. -/
theorem toList_toText (catalog : Catalog) :
    catalog.toText.toList = prologue.toList ++
      elementLine [] "TS".toList (catalogAttributes catalog)
        (['\n'] ++ (catalog.contexts.flatMap (fun context => (Written.context context).toList) ++
          [])) := by
  have head : "<TS".toList = '<' :: "TS".toList := rfl
  have last : "</TS>\n".toList = '<' :: '/' :: ("TS".toList ++ '>' :: ['\n']) := rfl
  have bracket : ">\n".toList = ['>', '\n'] := rfl
  have attributes : attributeTexts (catalogAttributes catalog) =
      (attributeText "version" catalog.version).toList ++
        (attributeTexts (catalog.language.map ("language", ·)).toList ++
          attributeTexts (catalog.sourceLanguage.map ("sourcelanguage", ·)).toList) := by
    rw [catalogAttributes, List.append_assoc, attributeTexts_append, attributeTexts_append]
    simp [attributeTexts]
  unfold Catalog.toText
  simp only [String.toList_append, String.toList_join, List.flatMap_map, head, last, bracket,
    attributes, toList_optionalAttribute, elementLine, List.append_assoc, List.cons_append,
    List.nil_append, List.append_nil]

end Written

end MessageCatalog
