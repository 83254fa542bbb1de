import Mathlib.Data.List.ReduceOption
import MessageCatalog.Proofs.ForestReader

/-!
# The catalog of a document

From the messages on, the reader's places are filled as the structural reading
says, up to the document as a whole. A document that the lenient policy reads
is the list of events of one forest, and its catalog is the structural reading
of that forest.
-/

namespace MessageCatalog

namespace Reader

namespace Place

/-- A message is added to its context if it has a source text. -/
theorem visit_messageElement {outer : OpenContext} {tag : Tag} {children : List Node}
    {next : Place} (start : (context outer).enter tag = OpenMessage.start outer tag)
    (h : ((context outer).visit (.element tag children)).outcome = .ok next) :
    ∃ complete, Node.message? (tag, children) = some complete ∧
      next = context { outer with messages := outer.messages ++ complete.toArray } := by
  obtain ⟨inner, entered, last, inside, left⟩ := visit_element_eq_ok.mp h
  rw [start] at entered
  obtain ⟨attributes, read, rfl⟩ := OpenMessage.start_eq_ok entered
  have readable := Node.attributes?_of_read read
  obtain ⟨after, rfl, grows⟩ := visitAll_message inside
  rw [leave, OpenMessage.close_outcome, grows.outer] at left
  injection left with left
  refine ⟨after.complete?, ?_, left.symm⟩
  obtain ⟨locations, hl, el⟩ := grows.locations
  obtain ⟨sources, hs, es⟩ := grows.source
  obtain ⟨comments, hc, ec⟩ := grows.comment
  obtain ⟨extraComments, hx, ex⟩ := grows.extraComment
  obtain ⟨translatorComments, ht, et⟩ := grows.translatorComment
  obtain ⟨translations, hn, en⟩ := grows.translation
  have noLocations : after.locations.toList = locations := el
  simp only [Option.or_none] at es ec ex et en
  simp only [Node.message?, Node.texts?, readable, hl, hs, hc, hx, ht, hn,
    Option.bind_eq_bind, Option.bind_some, OpenMessage.complete?, OpenMessage.blank, noLocations,
    grows.plural, grows.utf8, es, ec, ex, et, en]

end Place

/-- What some parts make of a context: its last name counts, and all messages with
a source text. -/
structure OpenContext.Grows (before : OpenContext) (nodes : List Node) (after : OpenContext) :
    Prop where
  /-- The catalog around it stays. -/
  outer : after.outer = before.outer
  /-- The last name counts. -/
  name : Node.LastOf "name" (fun e => Node.plainText? e.2) nodes before.name after.name
  /-- All messages with a source text count. -/
  messages : ∃ found, Node.each? "message" Node.message? nodes = some found ∧
    after.messages.toList = before.messages.toList ++ found.reduceOption

namespace OpenContext.Grows

/-- Parts count one behind the other. -/
theorem trans {before between after : OpenContext} {node : Node} {rest : List Node}
    (first : before.Grows [node] between) (more : between.Grows rest after) :
    before.Grows (node :: rest) after := by
  obtain ⟨found, read, added⟩ := first.messages
  obtain ⟨found', read', added'⟩ := more.messages
  refine ⟨more.outer.trans first.outer, first.name.trans more.name,
    found ++ found', Node.each?_cons read read', ?_⟩
  rw [added', added, List.reduceOption_append, List.append_assoc]

/-- No parts change nothing. -/
theorem nil {context : OpenContext} : context.Grows [] context :=
  ⟨rfl, .nil, [], rfl, (List.append_nil _).symm⟩

/-- What is no element changes nothing. -/
theorem of_not_element {context : OpenContext} {node : Node}
    (plain : ∀ tag children, node ≠ .element tag children) : context.Grows [node] context :=
  ⟨rfl, .of_not_element plain, [], Node.each?_of_not_element plain, (List.append_nil _).symm⟩

end OpenContext.Grows

namespace Place

/-- The name of an element tells what it is to a context. -/
theorem enter_context (inner : OpenContext) (tag : Tag) :
    (context inner).enter tag =
      match String.ofList tag.name with
      | "name" => pure (text (.contextName inner) "")
      | "message" => OpenMessage.start inner tag
      | _ => (context inner).skipUnexpected tag :=
  rfl

/-- A part of a context counts as its name says. -/
theorem visit_context {before : OpenContext} {node : Node} {next : Place}
    (h : ((context before).visit node).outcome = .ok next) :
    ∃ after, next = context after ∧ before.Grows [node] after := by
  cases node with
  | text | data | declaration | remark =>
    exact ⟨before, visit_of_not_element (by simp) (by simp) h, .of_not_element (by simp)⟩
  | element tag children =>
    have enter_eq := enter_context before tag
    split at enter_eq
    next name =>
      obtain ⟨content, read, left⟩ := visit_textElement enter_eq h
      injection left with left
      have other : String.ofList tag.name ≠ "message" := by simp [name]
      exact ⟨_, left.symm, rfl, .own name read, [], Node.each?_other other,
        (List.append_nil _).symm⟩
    next name =>
      obtain ⟨complete, read, rfl⟩ := visit_messageElement enter_eq h
      have other : String.ofList tag.name ≠ "name" := by simp [name]
      refine ⟨_, rfl, rfl, .other other, [complete], ?_, ?_⟩
      · rw [Node.each?_own name, read]
        rfl
      · cases complete <;> simp [List.reduceOption]
    next notName notMessage =>
      exact ⟨before, eq_of_visit_unexpected enter_eq h, rfl, .other notName, [],
        Node.each?_other notMessage, (List.append_nil _).symm⟩

/-- A context holds at its end what its parts say. -/
theorem visitAll_context {before : OpenContext} {nodes : List Node} {final : Place}
    (h : ((context before).visitAll nodes).outcome = .ok final) :
    ∃ after, final = context after ∧ before.Grows nodes after :=
  visitAll_of_visit context OpenContext.Grows (fun _ => .nil) .trans visit_context h

/-- A context is added to its catalog. -/
theorem visit_contextElement {outer : OpenCatalog} {tag : Tag} {children : List Node}
    {next : Place} (name : String.ofList tag.name = "context")
    (h : ((root outer).visit (.element tag children)).outcome = .ok next) :
    ∃ complete, Node.context? (tag, children) = some complete ∧
      next = root { outer with contexts := outer.contexts.push complete } := by
  obtain ⟨inner, entered, last, inside, left⟩ := visit_element_eq_ok.mp h
  have start : (root outer).enter tag = pure (context ⟨outer, none, #[]⟩) := by
    simp only [enter, name]
  rw [start] at entered
  injection entered with entered
  rw [← entered] at inside
  obtain ⟨after, rfl, grows⟩ := visitAll_context inside
  rw [leave, OpenContext.close_outcome, grows.outer] at left
  injection left with left
  refine ⟨after.complete, ?_, left.symm⟩
  obtain ⟨names, hn, en⟩ := grows.name
  obtain ⟨found, hf, ef⟩ := grows.messages
  have messages : after.messages.toList = found.reduceOption := ef
  rw [Option.or_none] at en
  simp only [Node.context?, Node.texts?, hn, hf, Option.bind_eq_bind, Option.bind_some,
    OpenContext.complete, en, messages]

/-- A part of the root element adds a context if it is one. -/
theorem visit_root {version : String} {language sourceLanguage : Option String}
    {before : Array Context} {node : Node} {next : Place}
    (h : ((root ⟨version, language, sourceLanguage, before⟩).visit node).outcome = .ok next) :
    ∃ after, next = root ⟨version, language, sourceLanguage, after⟩ ∧
      Node.AllOf "context" Node.context? [node] before.toList after.toList := by
  let outer : OpenCatalog := ⟨version, language, sourceLanguage, before⟩
  cases node with
  | text | data | declaration | remark =>
    exact ⟨before, visit_of_not_element (by simp) (by simp) h, .of_not_element (by simp)⟩
  | element tag children =>
    by_cases name : String.ofList tag.name = "context"
    · obtain ⟨complete, read, rfl⟩ := visit_contextElement name h
      refine ⟨_, rfl, ?_⟩
      rw [Array.toList_push]
      exact .own name read
    · have unexpected : (root outer).enter tag = (root outer).skipUnexpected tag := by
        unfold enter
        split <;> simp_all
      exact ⟨before, eq_of_visit_unexpected unexpected h, .other name⟩

/-- The root element holds at its end the contexts inside it. -/
theorem visitAll_root {version : String} {language sourceLanguage : Option String}
    {before : Array Context} {nodes : List Node} {final : Place}
    (h : ((root ⟨version, language, sourceLanguage, before⟩).visitAll nodes).outcome =
      .ok final) :
    ∃ after, final = root ⟨version, language, sourceLanguage, after⟩ ∧
      Node.AllOf "context" Node.context? nodes before.toList after.toList :=
  visitAll_of_visit (fun contexts => root ⟨version, language, sourceLanguage, contexts⟩)
    (fun before nodes after => Node.AllOf "context" Node.context? nodes before.toList after.toList)
    (fun _ => .nil) .trans visit_root h

/-! ## The document -/

/-- Behind the root element nothing counts. -/
theorem visit_behind_root {catalog : Catalog} {node : Node} {next : Place}
    (h : ((document (some catalog)).visit node).outcome = .ok next) :
    next = document (some catalog) := by
  cases node with
  | text | data | declaration | remark => exact visit_of_not_element (by simp) (by simp) h
  | element tag children => exact eq_of_visit_unexpected rfl h

/-- Behind the root element nothing counts. -/
theorem visitAll_behind_root {catalog : Catalog} {nodes : List Node} {final : Place}
    (h : ((document (some catalog)).visitAll nodes).outcome = .ok final) :
    final = document (some catalog) := by
  induction nodes with
  | nil =>
    injection h with h
    exact h.symm
  | cons node rest ih =>
    obtain ⟨next, first, h⟩ := visitAll_cons_eq_ok.mp h
    rw [visit_behind_root first] at h
    exact ih h

/-- The root element is the catalog. -/
theorem visit_rootElement {tag : Tag} {children rest : List Node} {next : Place}
    (name : String.ofList tag.name = "TS")
    (h : ((document none).visit (.element tag children)).outcome = .ok next) :
    ∃ catalog, Node.catalog? (.element tag children :: rest) = some catalog ∧
      next = document (some catalog) := by
  obtain ⟨inner, entered, last, inside, left⟩ := visit_element_eq_ok.mp h
  have start : (document none).enter tag = OpenCatalog.start tag := by
    simp only [enter, name]
  rw [start] at entered
  obtain ⟨attributes, read, rfl⟩ := OpenCatalog.start_eq_ok entered
  have readable := Node.attributes?_of_read read
  obtain ⟨after, rfl, contexts, found, all⟩ := visitAll_root inside
  have all : after.toList = contexts := all
  injection left with left
  refine ⟨_, ?_, left.symm⟩
  have first : (Node.named "TS" (.element tag children :: rest)).head? = some (tag, children) := by
    rw [Node.named, List.filterMap_cons_some (by rw [Node.asElement?, if_pos name])]
    rfl
  simp only [Node.catalog?, first, readable, found, Option.bind_eq_bind, Option.bind_some,
    OpenCatalog.close, all]

/-- What is not the root element does not change the catalog. -/
theorem catalog?_cons {node : Node} {rest : List Node} (h : Node.asElement? "TS" node = none) :
    Node.catalog? (node :: rest) = Node.catalog? rest := by
  unfold Node.catalog?
  rw [Node.named, List.filterMap_cons_none h]
  rfl

/-- Outside of every element only the root element is expected. -/
theorem enter_document_of_other {tag : Tag} {children : List Node}
    (other : Node.asElement? "TS" (.element tag children) = none) :
    (document none).enter tag = (document none).skipUnexpected tag := by
  have name : String.ofList tag.name ≠ "TS" := fun same => by
    rw [Node.asElement?, if_pos same] at other
    exact absurd other (by simp)
  unfold enter
  split <;> simp_all

/-- Outside of every element nothing counts but the root element. -/
theorem visit_before_root {node : Node} {next : Place} (other : Node.asElement? "TS" node = none)
    (h : ((document none).visit node).outcome = .ok next) : next = document none := by
  cases node with
  | text | data | declaration | remark => exact visit_of_not_element (by simp) (by simp) h
  | element tag children => exact eq_of_visit_unexpected (enter_document_of_other other) h

/-- A document holds at its end the catalog of its first root element, or none if
it has no root element. -/
theorem visitAll_document {nodes : List Node} {final : Place}
    (h : ((document none).visitAll nodes).outcome = .ok final) :
    (Node.named "TS" nodes = [] ∧ final = document none) ∨
      ∃ catalog, Node.catalog? nodes = some catalog ∧ final = document (some catalog) := by
  induction nodes with
  | nil =>
    injection h with h
    exact .inl ⟨rfl, h.symm⟩
  | cons node rest ih =>
    obtain ⟨next, first, h⟩ := visitAll_cons_eq_ok.mp h
    cases other : Node.asElement? "TS" node with
    | none =>
      rw [catalog?_cons other, Node.named, List.filterMap_cons_none other]
      rw [visit_before_root other first] at h
      exact ih h
    | some found =>
      obtain ⟨tag, children, rfl, name, _⟩ := Node.asElement?_eq_some other
      obtain ⟨catalog, read, rfl⟩ := visit_rootElement name first
      exact .inr ⟨catalog, read, visitAll_behind_root h⟩

end Place

end Reader

namespace Report

/-- Content is read to the end of the document, which is outside every element. -/
theorem contentOf_eq_ok {text : List Char} {catalog : Catalog}
    (h : contentOf text = .ok catalog) :
    (Reader.Place.document none).reached (eventsOf text) =
        .ok (Reader.Place.document (some catalog)) ∧
      ∃ offset, (Cursor.ofText text).ending = .ok offset := by
  unfold contentOf at h
  cases reached : (Reader.Place.document none).reached (eventsOf text) with
  | error fault => rw [reached] at h; exact absurd h (by simp [Except.bind])
  | ok place =>
    rw [reached] at h
    cases ended : (Cursor.ofText text).ending with
    | error fault => rw [ended] at h; exact absurd h (by simp [Except.bind])
    | ok offset =>
      rw [ended] at h
      refine ⟨?_, offset, rfl⟩
      change (place.finish).mapError (offset, ·) = .ok catalog at h
      unfold Reader.Place.finish at h
      split at h <;> simp_all

/-- Content is read exactly if the document is tokenized to its end and its forest leads
the reader through to a catalog. -/
theorem contentOf_eq_ok_iff {text : List Char} {forest : List Node} {catalog : Catalog}
    (events : (eventsOf text).map Prod.snd = Node.forestEvents forest) :
    contentOf text = .ok catalog ↔ (∃ offset, (Cursor.ofText text).ending = .ok offset) ∧
      ((Reader.Place.document none).visitAll forest).outcome = .ok (.document (some catalog)) := by
  constructor
  · intro content
    obtain ⟨reached, ended⟩ := contentOf_eq_ok content
    have run := Reader.Place.takeAll_outcome_of_reached reached
    rw [events, Reader.Place.takeAll_forestEvents] at run
    exact ⟨ended, run⟩
  · rintro ⟨⟨offset, ended⟩, run⟩
    rw [← Reader.Place.takeAll_forestEvents, ← events] at run
    rw [contentOf, Reader.Place.reached_of_takeAll_outcome run, ended]
    rfl

/-- The lenient policy computes the structural reading. A document that it reads
is tokenized to its end, its events are those of one forest of elements, and the
catalog is what plain recursion over that forest finds. -/
theorem lenient_reads_forest {text : String} {report : Report}
    (h : ofText .lenient text = .ok report) :
    (∃ offset, (Cursor.ofText (withoutByteOrderMark text.toList)).ending = .ok offset) ∧
    (∃! forest, (eventsOf (withoutByteOrderMark text.toList)).map Prod.snd =
      Node.forestEvents forest) ∧
    ∀ forest, (eventsOf (withoutByteOrderMark text.toList)).map Prod.snd =
      Node.forestEvents forest → Node.catalog? forest = some report.catalog := by
  unfold ofText at h
  generalize withoutByteOrderMark text.toList = chars at h ⊢
  rw [ofChars_lenient] at h
  split at h
  next catalog content =>
    injection h with h
    obtain ⟨reached, ended⟩ := contentOf_eq_ok content
    have level : (Reader.Place.document none).depth = (Cursor.ofText chars).opened.length := rfl
    have sound : (Cursor.ofText chars).Sound := by simp [Cursor.Sound, Cursor.ofText]
    have nested := Reader.Place.nested_of_reached sound level reached rfl
    obtain ⟨forest, events⟩ := nested.exists_forest_zero
    refine ⟨ended, ⟨forest, events, ?_⟩, ?_⟩
    · intro other same
      exact Node.forestEvents_injective (same.symm.trans events)
    · intro other same
      have run := Reader.Place.takeAll_outcome_of_reached reached
      rw [same, Reader.Place.takeAll_forestEvents] at run
      rcases Reader.Place.visitAll_document run with none | ⟨_, read, some⟩
      · exact absurd none (by simp)
      · injection some with some
        injection some with some
        rw [read, ← some, ← h]
  next => exact absurd h (by simp)

/-- A name inside an element that is passed over is part of the forest, but does
not name the context. -/
theorem unnamed_context_reads_forest :
    ∃ forest, (eventsOf "<TS><context><x><name>a</name></x></context></TS>".toList).map Prod.snd =
        Node.forestEvents forest ∧
      Node.catalog? forest = some ⟨"2.0", none, none, [⟨"", []⟩]⟩ := by
  have read : ofText .lenient "<TS><context><x><name>a</name></x></context></TS>" =
      .ok ⟨⟨"2.0", none, none, [⟨"", []⟩]⟩,
        [⟨⟨1, 17⟩, .unexpectedElement "x" "context"⟩, ⟨⟨1, 45⟩, .unnamedContext⟩]⟩ := by
    decide +kernel
  obtain ⟨_, ⟨forest, events, _⟩, catalog⟩ := lenient_reads_forest read
  exact ⟨forest, events, catalog forest events⟩

end Report

end MessageCatalog
