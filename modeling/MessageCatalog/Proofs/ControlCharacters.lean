import Mathlib.Data.List.Basic
import MessageCatalog.Proofs.WrittenContent
import MessageCatalog.Proofs.WrittenParts

/-!
# Control characters in written documents

A document cannot carry control characters other than tabs and line ends. In a text
element all others are escaped. In an attribute value only the characters of markup are,
so the control characters of a document are those of its attribute values, in their order:
the version, the two languages, the historical attributes and the names of files.
-/

namespace MessageCatalog

namespace Entity

/-- Whether a character is a control character other than a tab and a line feed. -/
def isControl (c : Char) : Bool := decide (c.toNat < 0x20) && c != '\t' && c != '\n'

/-- Control characters are among the first 32. -/
theorem toNat_lt_of_isControl {c : Char} (control : isControl c = true) : c.toNat < 32 := by
  simp only [isControl, Bool.and_eq_true, decide_eq_true_eq] at control
  exact control.1.1

/-- In an attribute value control characters are written as they are. -/
theorem filter_escapeMarkup (c : Char) :
    (escapeMarkup c).filter isControl = [c].filter isControl := by
  unfold escapeMarkup
  split <;> rfl

/-- In a text element no control character is written. -/
theorem filter_escapeText (c : Char) : (escapeText c).filter isControl = [] := by
  by_cases small : c.toNat < 32
  · exact of_toNat_lt (fun c => (escapeText c).filter isControl = []) small (by decide +kernel)
  · have alone : [c].filter isControl = [] := by
      simpa using fun control => small (toNat_lt_of_isControl control)
    unfold escapeText
    split
    · exact alone
    · split
      · rfl
      · rw [filter_escapeMarkup]
        exact alone

end Entity

/-- The values of the attributes of a message that hold texts, in the order in which they
are written. -/
def Message.attributeValues (message : Message) : List String :=
  message.utf8.toList ++ message.locations.flatMap (·.filename.toList)

/-- The values of the attributes of a catalog that hold texts, in the order in which they
are written. -/
def Catalog.attributeValues (catalog : Catalog) : List String :=
  [catalog.version] ++ catalog.language.toList ++ catalog.sourceLanguage.toList ++
    catalog.messages.flatMap Message.attributeValues

namespace Written

/-- The control characters of some text, without tabs and line feeds. -/
def controls (text : List Char) : List Char := text.filter Entity.isControl

/-- The control characters of some strings. -/
def controlsOf (values : List String) : List Char := values.flatMap (controls ·.toList)

/-- Those of some strings behind others. -/
theorem controlsOf_append (first second : List String) :
    controlsOf (first ++ second) = controlsOf first ++ controlsOf second := List.flatMap_append

/-- Those of the strings that belong to many items. -/
theorem controlsOf_flatMap {α : Type} (values : α → List String) (items : List α) :
    controlsOf (items.flatMap values) = items.flatMap fun item => controlsOf (values item) :=
  List.flatMap_assoc

/-- Those of one text behind another. -/
@[simp]
theorem controls_append (first second : List Char) :
    controls (first ++ second) = controls first ++ controls second := List.filter_append ..

/-- Other characters do not count. -/
theorem controls_cons {c : Char} (plain : Entity.isControl c = false) (text : List Char) :
    controls (c :: text) = controls text :=
  List.filter_cons_of_neg (by simp [plain])

/-- Those of many texts. -/
theorem controls_flatMap {α : Type} (write : α → List Char) (items : List α) :
    controls (items.flatMap write) = items.flatMap fun item => controls (write item) :=
  List.filter_flatMap ..

/-- There are none in a text whose characters are none of the first 32. -/
theorem controls_eq_nil {text : List Char} {P : Char → Bool} (all : ∀ c ∈ text, P c = true)
    (large : ∀ n : Fin 32, P (Char.ofNat n) = false) : controls text = [] := by
  refine List.filter_eq_nil_iff.mpr fun c member control => ?_
  have small := Entity.of_toNat_lt (fun c => P c = false)
    (Entity.toNat_lt_of_isControl control) large
  rw [all c member] at small
  contradiction

/-- There are none in a name. -/
theorem controls_name {name : List Char} (named : IsName name) : controls name = [] :=
  controls_eq_nil (List.all_eq_true.mp named.2) (by decide)

/-- There are none in a line reference. -/
theorem controls_lineText (line : LineNumber) : controls line.text.toList = [] := by
  refine controls_eq_nil (P := fun c => c == '+' || c == '-' || c.isDigit) (fun c member => ?_)
    (by decide)
  simpa [or_assoc] using LineNumber.isDigit_of_mem_text member

/-- There are none in the content of a text element. -/
theorem controls_content (content : List Char) :
    controls (content.flatMap Entity.escapeText) = [] := by
  rw [controls_flatMap]
  exact List.flatMap_eq_nil_iff.mpr fun c _ => Entity.filter_escapeText c

/-- Those of an attribute are those of its value. -/
theorem controls_attributeTexts {attributes : List (String × String)}
    (named : ∀ entry ∈ attributes, IsName entry.1.toList) :
    controls (attributeTexts attributes) = controlsOf (attributes.map Prod.snd) := by
  rw [attributeTexts, controls_flatMap, controlsOf, List.flatMap_map]
  refine List.flatMap_congr fun entry member => ?_
  have value : controls (entry.2.toList.flatMap Entity.escapeMarkup) = controls entry.2.toList := by
    rw [controls_flatMap, controls]
    induction entry.2.toList with
    | nil => rfl
    | cons c rest ih =>
      rw [List.flatMap_cons, ih, controls, Entity.filter_escapeMarkup, ← List.filter_append]
      rfl
  rw [toList_attributeText, controls_cons (by decide), controls_append,
    controls_name (named entry member), controls_cons (by decide), controls_cons (by decide),
    controls_append, value, controls_cons (by decide)]
  simp [controls]

variable {indentation name inside : List Char} {attributes : List (String × String)}

/-- Those of an element are those of its attributes and of what is inside. -/
theorem controls_elementLine (indented : controls indentation = []) (named : IsName name)
    (keys : ∀ entry ∈ attributes, IsName entry.1.toList) :
    controls (elementLine indentation name attributes inside) =
      controlsOf (attributes.map Prod.snd) ++ controls inside := by
  rw [elementLine, controls_append, indented, controls_cons (by decide), controls_append,
    controls_append, controls_name named, controls_attributeTexts keys,
    controls_cons (by decide), controls_append, controls_cons (by decide),
    controls_cons (by decide), controls_append, controls_name named,
    controls_cons (by decide), controls_cons (by decide)]
  simp [controls]

/-- Those of an element that closes itself are those of its attributes. -/
theorem controls_closedLine (indented : controls indentation = []) (named : IsName name)
    (keys : ∀ entry ∈ attributes, IsName entry.1.toList) :
    controls (closedLine indentation name attributes) =
      controlsOf (attributes.map Prod.snd) := by
  rw [closedLine, controls_append, indented, controls_cons (by decide), controls_append,
    controls_append, controls_name named, controls_attributeTexts keys,
    controls_cons (by decide), controls_cons (by decide), controls_cons (by decide)]
  simp [controls]

/-- There are none in a text element. -/
theorem controls_element {indentation name : String} (indented : controls indentation.toList = [])
    (named : IsName name.toList) (content : String) :
    controls (element indentation name content).toList = [] := by
  rw [toList_element, controls_elementLine indented named (by simp), controls_content]
  rfl

/-- There are none in a text element that may be left out. -/
theorem controls_optionalElement {indentation name : String}
    (indented : controls indentation.toList = []) (named : IsName name.toList)
    (content : Option String) :
    controls (optionalElement indentation name content).toList = [] := by
  cases content with
  | none => rfl
  | some content => exact controls_element indented named content

/-- Those of a location are those of the name of the file. -/
theorem controls_location (location : Location) :
    controls (Written.location location).toList = controlsOf location.filename.toList := by
  have readable := readable_locationAttributes location
  rw [toList_location, controls_closedLine rfl (by decide) readable.1, locationAttributes]
  cases location.filename <;> cases location.line <;>
    simp [controlsOf, controls_lineText]

/-- There are none in a translation. -/
theorem controls_translation (translation : Translation) (status : Status) :
    controls (Written.translation translation status).toList = [] := by
  have readable := readable_translationAttributes status
  have marks : controlsOf ((translationAttributes status).map Prod.snd) = [] := by
    cases status <;> rfl
  have content : controls (translationContent translation).toList = [] := by
    match translation with
    | .singular content => rw [toList_singular, controls_content]
    | .plural [] => rfl
    | .plural (first :: rest) =>
      have forms : controls ((first :: rest).flatMap fun form =>
          (element "            " "numerusform" form).toList) = [] := by
        rw [controls_flatMap]
        exact List.flatMap_eq_nil_iff.mpr fun form _ => controls_element rfl (by decide) form
      rw [toList_plural, controls_append, controls_append, forms]
      rfl
  rw [toList_translation, controls_elementLine rfl (by decide) readable.1, marks, content]
  rfl

/-- Those of a message are those of its attribute values. -/
theorem controls_message (message : Message) :
    controls (Written.message message).toList = controlsOf message.attributeValues := by
  have readable := readable_messageAttributes message
  have attributes : controlsOf ((messageAttributes message).map Prod.snd) =
      controlsOf message.utf8.toList := by
    rw [messageAttributes]
    cases message.isPlural <;> cases message.utf8 <;> rfl
  have lines : controls (messageLines message) =
      message.locations.flatMap fun location => controlsOf location.filename.toList := by
    rw [messageLines, controls_append, controls_append, controls_append, controls_append,
      controls_append, controls_flatMap, controls_element rfl (by decide),
      controls_optionalElement rfl (by decide), controls_optionalElement rfl (by decide),
      controls_optionalElement rfl (by decide), controls_translation]
    simp only [controls_location, List.append_nil]
  have around : controls ['\n'] = [] ∧ controls "    ".toList = [] := by decide
  rw [toList_message, controls_elementLine rfl (by decide) readable.1, attributes, controls_append,
    controls_append, lines, around.1, around.2, Message.attributeValues, controlsOf_append,
    controlsOf_flatMap, List.nil_append, List.append_nil]

/-- Those of a context are those of the attribute values of its messages. -/
theorem controls_context (context : Context) :
    controls (Written.context context).toList =
      controlsOf (context.messages.flatMap Message.attributeValues) := by
  have lineEnd : controls ['\n'] = [] := rfl
  rw [toList_context, controls_elementLine rfl (by decide) (by simp), controls_append,
    controls_append, controls_append, controls_element rfl (by decide), controls_flatMap, lineEnd,
    controlsOf_flatMap]
  simp only [controls_message]
  simp [controlsOf, controls]

/-- Those of a document are those of its attribute values. -/
theorem controls_toText (catalog : Catalog) :
    controls catalog.toText.toList = controlsOf catalog.attributeValues := by
  have readable := readable_catalogAttributes catalog
  have attributes : (catalogAttributes catalog).map Prod.snd =
      [catalog.version] ++ catalog.language.toList ++ catalog.sourceLanguage.toList := by
    rw [catalogAttributes]
    cases catalog.language <;> cases catalog.sourceLanguage <;> rfl
  have messages : controlsOf (catalog.messages.flatMap Message.attributeValues) =
      catalog.contexts.flatMap fun context => controls (Written.context context).toList := by
    rw [Catalog.messages, List.flatMap_assoc, controlsOf_flatMap]
    simp only [controls_context]
  have around : controls prologue.toList = [] ∧ controls ['\n'] = [] := by decide
  rw [toList_toText, controls_append, controls_elementLine rfl (by decide) readable.1, attributes,
    controls_append, controls_append, controls_flatMap, around.1, around.2,
    Catalog.attributeValues, controlsOf_append _ (catalog.messages.flatMap _), messages]
  simp [controls]

end Written

namespace Catalog

/-- A document has no control characters but tabs and line feeds outside of its attribute
values, whatever the texts, names and remarks of the catalog hold; those of the attribute
values stand in it as they are. So there is none in it exactly if there is none in the
version, the languages, the historical attributes and the names of files. -/
theorem controls_stand_in_attributes (catalog : Catalog) :
    catalog.toText.toList.filter Entity.isControl =
      catalog.attributeValues.flatMap (·.toList.filter Entity.isControl) ∧
    ((∀ c ∈ catalog.toText.toList, c.toNat < 0x20 → c = '\t' ∨ c = '\n') ↔
      ∀ value ∈ catalog.attributeValues, ∀ c ∈ value.toList,
        c.toNat < 0x20 → c = '\t' ∨ c = '\n') := by
  have same : catalog.toText.toList.filter Entity.isControl =
      catalog.attributeValues.flatMap (·.toList.filter Entity.isControl) :=
    Written.controls_toText catalog
  have free (text : List Char) : (∀ c ∈ text, c.toNat < 0x20 → c = '\t' ∨ c = '\n') ↔
      text.filter Entity.isControl = [] := by
    rw [List.filter_eq_nil_iff]
    refine forall₂_congr fun c _ => ?_
    simp [Entity.isControl, or_iff_not_imp_left]
  refine ⟨same, ?_⟩
  rw [free, same, List.flatMap_eq_nil_iff]
  exact forall₂_congr fun value _ => (free value.toList).symm

/-- It takes no more than a carriage return in the version: it stands in the document as it
is, where a text would have a character reference for it. -/
theorem return_stands_in_version :
    ¬ ∀ catalog : Catalog, ∀ c ∈ catalog.toText.toList,
      c.toNat < 0x20 → c = '\t' ∨ c = '\n' := by
  intro claimed
  have inside : '\r' ∈ (Catalog.toText ⟨"2\r0", none, none, []⟩).toList := by decide +kernel
  exact absurd (claimed _ '\r' inside (by decide)) (by decide)

end Catalog

end MessageCatalog
