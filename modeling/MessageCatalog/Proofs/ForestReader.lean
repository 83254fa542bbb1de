import MessageCatalog.Proofs.StructuralReading

/-!
# The reader on forests

A run of the reader over the events of a forest is a recursion over the forest:
into an element, over what is inside it, and out again. What each place makes
of the parts inside it is what the structural reading says of them, so both
read the same catalog.
-/

namespace MessageCatalog

namespace Reader

namespace Place

mutual

/-- Read a part of a document with all that is inside it. -/
def visit (place : Place) : Node → Step Place
  | .text run => place.takeText run
  | .data content => place.takeData content
  | .declaration attributes => place.takeDeclaration attributes
  | .remark => pure place
  | .element tag children => do
    let inner ← place.enter tag
    let inner ← inner.visitAll children
    inner.leave

/-- Read some parts of a document, one behind the other. -/
def visitAll (place : Place) : List Node → Step Place
  | [] => pure place
  | node :: rest => do
    let next ← place.visit node
    next.visitAll rest

end

/-- A run over one event. -/
theorem takeAll_singleton (place : Place) (event : MarkupEvent) :
    place.takeAll [event] = place.take event := by
  simp only [takeAll]
  exact bind_pure (place.take event)

mutual

/-- A run over the events of a part of a document reads that part. -/
theorem takeAll_events (place : Place) (node : Node) :
    place.takeAll node.events = place.visit node := by
  match node with
  | .text _ | .data _ | .declaration _ | .remark =>
    simp only [Node.events, takeAll_singleton, take, visit]
  | .element tag children =>
    simp only [Node.events, takeAll, visit, take]
    congr 1
    funext inner
    rw [takeAll_append, takeAll_forestEvents inner children]
    congr 1
    funext last
    exact takeAll_singleton last .stop

/-- A run over the events of a forest reads the forest. -/
theorem takeAll_forestEvents (place : Place) (forest : List Node) :
    place.takeAll (Node.forestEvents forest) = place.visitAll forest := by
  match forest with
  | [] => rfl
  | node :: rest =>
    rw [Node.forestEvents, takeAll_append, takeAll_events place node, visitAll]
    congr 1
    funext next
    exact takeAll_forestEvents next rest

end

/-- An element is read from its start tag to its end. -/
theorem visit_element_eq_ok {place next : Place} {tag : Tag} {children : List Node} :
    (place.visit (.element tag children)).outcome = .ok next ↔
      ∃ inner, (place.enter tag).outcome = .ok inner ∧
        ∃ last, (inner.visitAll children).outcome = .ok last ∧ last.leave.outcome = .ok next := by
  rw [visit]
  simp only [Step.bind_outcome_eq_ok]

/-- Some parts are read one behind the other. -/
theorem visitAll_cons_eq_ok {place final : Place} {node : Node} {rest : List Node} :
    (place.visitAll (node :: rest)).outcome = .ok final ↔
      ∃ next, (place.visit node).outcome = .ok next ∧ (next.visitAll rest).outcome = .ok final := by
  rw [visitAll, Step.bind_outcome_eq_ok]

/-- Places of one kind that go on from part to part: what one part does to such a
place tells what a list of parts does to it. -/
theorem visitAll_of_visit {σ : Type} (place : σ → Place) (Grows : σ → List Node → σ → Prop)
    (nil : ∀ state, Grows state [] state)
    (trans : ∀ {before between after node rest}, Grows before [node] between →
      Grows between rest after → Grows before (node :: rest) after)
    (step : ∀ {before node next}, ((place before).visit node).outcome = .ok next →
      ∃ after, next = place after ∧ Grows before [node] after)
    {before : σ} {nodes : List Node} {final : Place}
    (h : ((place before).visitAll nodes).outcome = .ok final) :
    ∃ after, final = place after ∧ Grows before nodes after := by
  induction nodes generalizing before with
  | nil =>
    injection h with h
    exact ⟨before, h.symm, nil before⟩
  | cons node rest ih =>
    obtain ⟨next, first, h⟩ := visitAll_cons_eq_ok.mp h
    obtain ⟨between, rfl, hf⟩ := step first
    obtain ⟨after, rfl, hm⟩ := ih h
    exact ⟨after, rfl, trans hf hm⟩

mutual

/-- Nothing inside an element that is passed over counts. -/
theorem visit_skipped (outer : Place) (node : Node) :
    (skipped outer).visit node = pure (skipped outer) := by
  match node with
  | .text _ | .data _ | .declaration _ | .remark => rfl
  | .element tag children =>
    rw [visit]
    change (skipped (skipped outer)).visitAll children >>= leave = pure (skipped outer)
    rw [visitAll_skipped (skipped outer) children, pure_bind]
    rfl

/-- Nothing inside an element that is passed over counts. -/
theorem visitAll_skipped (outer : Place) (nodes : List Node) :
    (skipped outer).visitAll nodes = pure (skipped outer) := by
  match nodes with
  | [] => rfl
  | node :: rest =>
    rw [visitAll, visit_skipped outer node, pure_bind]
    exact visitAll_skipped outer rest

end

/-- Places whose content does not matter. -/
def Ignores : Place → Prop
  | location _ _ | byte _ _ _ => True
  | _ => False

/-- Nothing counts where content does not matter. -/
theorem visitAll_of_ignores {place : Place} (ignores : place.Ignores) (nodes : List Node) :
    place.visitAll nodes = pure place := by
  induction nodes with
  | nil => rfl
  | cons node rest ih =>
    have alone : place.visit node = pure place := by
      cases node with
      | element tag children =>
        have into : place.enter tag = pure (skipped place) := by
          cases place <;> first | rfl | exact absurd ignores id
        rw [visit, into, pure_bind, visitAll_skipped, pure_bind]
        rfl
      | text | data | declaration | remark =>
        cases place <;> first | rfl | exact absurd ignores id
    rw [visitAll, alone, pure_bind]
    exact ih

/-- What is inside of a location does not count. -/
theorem visitAll_location (complete : Location) (outer : OpenMessage) (nodes : List Node) :
    (location complete outer).visitAll nodes = pure (location complete outer) := by
  have ignores : (location complete outer).Ignores := trivial
  exact visitAll_of_ignores ignores nodes

/-- What is inside of the element for a control character does not count. -/
theorem visitAll_byte (value : Option String) (host : TextHost) (content : String)
    (nodes : List Node) :
    (byte value host content).visitAll nodes = pure (byte value host content) := by
  have ignores : (byte value host content).Ignores := trivial
  exact visitAll_of_ignores ignores nodes

/-- An element that does not belong where it stands leads nowhere. -/
theorem eq_of_visit_unexpected {place next : Place} {tag : Tag} {children : List Node}
    (unexpected : place.enter tag = place.skipUnexpected tag)
    (h : (place.visit (.element tag children)).outcome = .ok next) : next = place := by
  obtain ⟨inner, entered, last, inside, left⟩ := visit_element_eq_ok.mp h
  rw [unexpected] at entered
  injection entered with entered
  rw [← entered, visitAll_skipped] at inside
  injection inside with inside
  rw [← inside] at left
  injection left with left
  exact left.symm

/-! ## Text elements -/

/-- What some parts add to a text. -/
def AddsText (before : String) (nodes : List Node) (after : String) : Prop :=
  ∃ added, Node.plainText? nodes = some added ∧ after = before ++ added

/-- No parts add nothing. -/
theorem AddsText.nil (before : String) : AddsText before [] before :=
  ⟨"", rfl, String.append_empty.symm⟩

/-- A part adds its piece. -/
theorem AddsText.of_piece {node : Node} {added : String} (before : String)
    (read : node.piece? = some added) : AddsText before [node] (before ++ added) := by
  refine ⟨added, ?_, rfl⟩
  rw [Node.plainText?, List.mapM_cons, read]
  simp

/-- Parts add their texts one behind the other. -/
theorem AddsText.trans {before between after : String} {node : Node} {rest : List Node}
    (first : AddsText before [node] between) (more : AddsText between rest after) :
    AddsText before (node :: rest) after := by
  obtain ⟨added, piece, rfl⟩ := first
  obtain ⟨added', pieces, rfl⟩ := more
  refine ⟨added ++ added', ?_, String.append_assoc⟩
  rw [Node.plainText?, Option.map_eq_some_iff] at piece pieces ⊢
  obtain ⟨texts, found, rfl⟩ := piece
  obtain ⟨texts', found', rfl⟩ := pieces
  refine ⟨texts ++ texts', ?_, String.join_append⟩
  rw [← List.singleton_append, List.mapM_append, found, found']
  rfl

/-- A part of a text element adds its piece. -/
theorem visit_text {host : TextHost} {content : String} {node : Node} {next : Place}
    (h : ((text host content).visit node).outcome = .ok next) :
    ∃ added, node.piece? = some added ∧ next = text host (content ++ added) := by
  cases node with
  | text run =>
    rcases takeText_eq_ok h with ⟨_, _, plain, same, resolved, rfl⟩ | ⟨other, _⟩
    · injection same with hh hc
      subst hh hc
      exact ⟨plain, by rw [Node.piece?, resolved]; rfl, rfl⟩
    · exact absurd rfl (other host content)
  | data run =>
    rcases takeData_eq_ok h with ⟨_, _, same, rfl⟩ | ⟨other, _⟩
    · injection same with hh hc
      subst hh hc
      exact ⟨_, rfl, rfl⟩
    · exact absurd rfl (other host content)
  | declaration attributes =>
    exact ⟨"", rfl, by rw [takeDeclaration_eq_ok h, String.append_empty]⟩
  | remark =>
    injection h with h
    exact ⟨"", rfl, by rw [← h, String.append_empty]⟩
  | element tag children =>
    by_cases name : String.ofList tag.name = "byte"
    · obtain ⟨inner, entered, last, inside, left⟩ := visit_element_eq_ok.mp h
      have start : (text host content).enter tag = startByte host content tag := by
        simp only [enter, name]
      rw [start] at entered
      obtain ⟨attributes, read, rfl⟩ := startByte_eq_ok entered
      rw [visitAll_byte] at inside
      injection inside with inside
      rw [← inside, leave] at left
      refine ⟨_, by rw [Node.piece?, if_pos name, Node.attributes?_of_read read]; rfl, ?_⟩
      split at left
      next found =>
        injection left with left
        rw [← left, found]
        rfl
      next found =>
        injection left with left
        rw [← left, found]
        simp
    · have unexpected : (text host content).enter tag = (text host content).skipUnexpected tag := by
        unfold enter
        split <;> simp_all
      rw [eq_of_visit_unexpected unexpected h]
      exact ⟨"", by rw [Node.piece?, if_neg name], by rw [String.append_empty]⟩

/-- A text element holds its text at its end. -/
theorem visitAll_text {host : TextHost} {content : String} {nodes : List Node} {final : Place}
    (h : ((text host content).visitAll nodes).outcome = .ok final) :
    ∃ added, Node.plainText? nodes = some added ∧ final = text host (content ++ added) := by
  have step {before : String} {node : Node} {next : Place}
      (h : ((text host before).visit node).outcome = .ok next) :
      ∃ after, next = text host after ∧ AddsText before [node] after := by
    obtain ⟨added, read, same⟩ := visit_text h
    exact ⟨before ++ added, same, .of_piece before read⟩
  obtain ⟨_, same, added, read, rfl⟩ :=
    visitAll_of_visit (text host) AddsText AddsText.nil AddsText.trans step h
  exact ⟨added, read, same⟩

/-! ## Translations with plural forms -/

/-- The end of a text element puts its text where it belongs. -/
theorem visit_textElement {place next : Place} {tag : Tag} {children : List Node}
    {host : TextHost} (start : place.enter tag = pure (text host ""))
    (h : (place.visit (.element tag children)).outcome = .ok next) :
    ∃ content, Node.plainText? children = some content ∧
      (text host content).leave.outcome = .ok next := by
  obtain ⟨inner, entered, last, inside, left⟩ := visit_element_eq_ok.mp h
  rw [start] at entered
  injection entered with entered
  rw [← entered] at inside
  obtain ⟨content, read, rfl⟩ := visitAll_text inside
  rw [String.empty_append] at left
  exact ⟨content, read, left⟩

/-- Parts of a place that are no elements lead nowhere. -/
theorem visit_of_not_element {place next : Place} {node : Node}
    (structural : ∀ host content, place ≠ text host content)
    (plain : ∀ tag children, node ≠ .element tag children)
    (h : (place.visit node).outcome = .ok next) : next = place := by
  cases node with
  | text run =>
    rcases takeText_eq_ok h with ⟨host, content, _, same, _⟩ | ⟨_, same⟩
    · exact absurd same (structural host content)
    · exact same
  | data run =>
    rcases takeData_eq_ok h with ⟨host, content, same, _⟩ | ⟨_, same⟩
    · exact absurd same (structural host content)
    · exact same
  | declaration attributes => exact takeDeclaration_eq_ok h
  | remark =>
    injection h with h
    exact h.symm
  | element tag children => exact absurd rfl (plain tag children)

/-- A part of a translation adds a form if it is one. -/
theorem visit_forms {outer : OpenMessage} {status : Status} {before : Array String}
    {node : Node} {next : Place}
    (h : ((forms ⟨outer, status, before⟩).visit node).outcome = .ok next) :
    ∃ after, next = forms ⟨outer, status, after⟩ ∧
      Node.AllOf "numerusform" (fun e => Node.plainText? e.2) [node] before.toList
        after.toList := by
  let inner : OpenForms := ⟨outer, status, before⟩
  cases node with
  | element tag children =>
    by_cases name : String.ofList tag.name = "numerusform"
    · have start : (forms inner).enter tag = pure (text (.form inner) "") := by
        simp only [enter, name]
      obtain ⟨content, read, left⟩ := visit_textElement start h
      injection left with left
      refine ⟨_, left.symm, ?_⟩
      rw [Array.toList_push]
      exact .own name read
    · have unexpected : (forms inner).enter tag = (forms inner).skipUnexpected tag := by
        unfold enter
        split <;> simp_all
      exact ⟨before, eq_of_visit_unexpected unexpected h, .other name⟩
  | text | data | declaration | remark =>
    exact ⟨before, visit_of_not_element (by simp) (by simp) h, .of_not_element (by simp)⟩

/-- A translation holds its forms at its end. -/
theorem visitAll_forms {outer : OpenMessage} {status : Status} {before : Array String}
    {nodes : List Node} {final : Place}
    (h : ((forms ⟨outer, status, before⟩).visitAll nodes).outcome = .ok final) :
    ∃ after, final = forms ⟨outer, status, after⟩ ∧
      Node.AllOf "numerusform" (fun e => Node.plainText? e.2) nodes before.toList after.toList :=
  visitAll_of_visit (fun values => forms ⟨outer, status, values⟩)
    (fun before nodes after => Node.AllOf "numerusform" (fun e => Node.plainText? e.2) nodes
      before.toList after.toList)
    (fun _ => .nil) .trans visit_forms h

end Place

/-! ## Messages -/

/-- What some parts make of a message: each of its fields is told by the children
of one name. -/
structure OpenMessage.Grows (before : OpenMessage) (nodes : List Node) (after : OpenMessage) :
    Prop where
  /-- The context stays. -/
  outer : after.outer = before.outer
  /-- The kind stays. -/
  plural : after.plural = before.plural
  /-- The historical attribute stays. -/
  utf8 : after.utf8 = before.utf8
  /-- All locations count. -/
  locations : Node.AllOf "location" Node.location? nodes before.locations.toList after.locations.toList
  /-- The last source text counts. -/
  source : Node.LastOf "source" (fun e => Node.plainText? e.2) nodes before.source after.source
  /-- The last comment counts. -/
  comment : Node.LastOf "comment" (fun e => Node.plainText? e.2) nodes before.comment after.comment
  /-- The last developer's remark counts. -/
  extraComment :
    Node.LastOf "extracomment" (fun e => Node.plainText? e.2) nodes before.extraComment after.extraComment
  /-- The last translator's remark counts. -/
  translatorComment :
    Node.LastOf "translatorcomment" (fun e => Node.plainText? e.2) nodes before.translatorComment
      after.translatorComment
  /-- The last translation counts. -/
  translation :
    Node.LastOf "translation" (Node.translation? before.plural) nodes before.translation
      after.translation

namespace OpenMessage.Grows

/-- Parts count one behind the other. -/
theorem trans {before between after : OpenMessage} {node : Node} {rest : List Node}
    (first : before.Grows [node] between) (more : between.Grows rest after) :
    before.Grows (node :: rest) after where
  outer := more.outer.trans first.outer
  plural := more.plural.trans first.plural
  utf8 := more.utf8.trans first.utf8
  locations := first.locations.trans more.locations
  source := first.source.trans more.source
  comment := first.comment.trans more.comment
  extraComment := first.extraComment.trans more.extraComment
  translatorComment := first.translatorComment.trans more.translatorComment
  translation := first.translation.trans (first.plural ▸ more.translation)

/-- No parts change nothing. -/
theorem nil {message : OpenMessage} : message.Grows [] message :=
  ⟨rfl, rfl, rfl, .nil, .nil, .nil, .nil, .nil, .nil⟩

/-- What is no element changes nothing. -/
theorem of_not_element {message : OpenMessage} {node : Node}
    (plain : ∀ tag children, node ≠ .element tag children) : message.Grows [node] message :=
  ⟨rfl, rfl, rfl, .of_not_element plain, .of_not_element plain, .of_not_element plain,
    .of_not_element plain, .of_not_element plain, .of_not_element plain⟩

end OpenMessage.Grows

namespace Place

/-- A translation with its status replaces an earlier one. -/
theorem visit_translation {outer : OpenMessage} {tag : Tag} {children : List Node} {next : Place}
    (start : (message outer).enter tag = startTranslation outer tag)
    (h : ((message outer).visit (.element tag children)).outcome = .ok next) :
    ∃ translation, Node.translation? outer.plural (tag, children) = some translation ∧
      next = message { outer with translation := some translation } := by
  obtain ⟨inner, entered, last, inside, left⟩ := visit_element_eq_ok.mp h
  rw [start] at entered
  obtain ⟨attributes, status, read, known, rfl⟩ := startTranslation_eq_ok entered
  have readable := Node.attributes?_of_read read
  by_cases plural : outer.plural = true
  · rw [if_pos plural] at inside
    obtain ⟨after, rfl, values, gathered, all⟩ := visitAll_forms inside
    have all : after.toList = values := all
    injection left with left
    refine ⟨(.plural values, status), ?_, ?_⟩
    · simp [Node.translation?, readable, known, plural, Node.texts?, gathered]
    · rw [← left, ← all]
  · rw [if_neg plural] at inside
    obtain ⟨content, plain, rfl⟩ := visitAll_text inside
    rw [String.empty_append] at left
    injection left with left
    refine ⟨(.singular content, status), ?_, left.symm⟩
    simp [Node.translation?, readable, known, plural, plain]

/-- A location is added to those before. -/
theorem visit_location {outer : OpenMessage} {tag : Tag} {children : List Node} {next : Place}
    (start : (message outer).enter tag = startLocation outer tag)
    (h : ((message outer).visit (.element tag children)).outcome = .ok next) :
    ∃ location, Node.location? (tag, children) = some location ∧
      next = message { outer with locations := outer.locations.push location } := by
  obtain ⟨inner, entered, last, inside, left⟩ := visit_element_eq_ok.mp h
  rw [start] at entered
  obtain ⟨attributes, read, rfl⟩ := startLocation_eq_ok entered
  rw [visitAll_location] at inside
  injection inside with inside
  rw [← inside] at left
  injection left with left
  exact ⟨_, by rw [Node.location?, Node.attributes?_of_read read]; rfl, left.symm⟩

/-- The name of an element tells what it is to a message. -/
theorem enter_message (inner : OpenMessage) (tag : Tag) :
    (message inner).enter tag =
      match String.ofList tag.name with
      | "location" => startLocation inner tag
      | "source" => pure (text (.part .source inner) "")
      | "comment" => pure (text (.part .comment inner) "")
      | "extracomment" => pure (text (.part .extraComment inner) "")
      | "translatorcomment" => pure (text (.part .translatorComment inner) "")
      | "translation" => startTranslation inner tag
      | _ => (message inner).skipUnexpected tag :=
  rfl

/-- A part of a message counts as its name says. -/
theorem visit_message {before : OpenMessage} {node : Node} {next : Place}
    (h : ((message before).visit node).outcome = .ok next) :
    ∃ after, next = message after ∧ before.Grows [node] after := by
  cases node with
  | text | data | declaration | remark =>
    exact ⟨before, visit_of_not_element (by simp) (by simp) h, .of_not_element (by simp)⟩
  | element tag children =>
    have enter_eq := enter_message before tag
    split at enter_eq
    next name =>
      obtain ⟨location, read, rfl⟩ := visit_location enter_eq h
      refine ⟨_, rfl, rfl, rfl, rfl, ?_, .other ?_, .other ?_, .other ?_, .other ?_, .other ?_⟩
      · rw [Array.toList_push]
        exact .own name read
      all_goals simp [name]
    next name =>
      obtain ⟨content, read, left⟩ := visit_textElement enter_eq h
      injection left with left
      refine ⟨_, left.symm, rfl, rfl, rfl, .other ?_, .own name read, .other ?_, .other ?_,
        .other ?_, .other ?_⟩
      all_goals simp [name]
    next name =>
      obtain ⟨content, read, left⟩ := visit_textElement enter_eq h
      injection left with left
      refine ⟨_, left.symm, rfl, rfl, rfl, .other ?_, .other ?_, .own name read, .other ?_,
        .other ?_, .other ?_⟩
      all_goals simp [name]
    next name =>
      obtain ⟨content, read, left⟩ := visit_textElement enter_eq h
      injection left with left
      refine ⟨_, left.symm, rfl, rfl, rfl, .other ?_, .other ?_, .other ?_, .own name read,
        .other ?_, .other ?_⟩
      all_goals simp [name]
    next name =>
      obtain ⟨content, read, left⟩ := visit_textElement enter_eq h
      injection left with left
      refine ⟨_, left.symm, rfl, rfl, rfl, .other ?_, .other ?_, .other ?_, .other ?_,
        .own name read, .other ?_⟩
      all_goals simp [name]
    next name =>
      obtain ⟨translation, read, rfl⟩ := visit_translation enter_eq h
      refine ⟨_, rfl, rfl, rfl, rfl, .other ?_, .other ?_, .other ?_, .other ?_, .other ?_,
        .own name read⟩
      all_goals simp [name]
    next other =>
      refine ⟨before, eq_of_visit_unexpected enter_eq h, rfl, rfl, rfl, .other ?_, .other ?_,
        .other ?_, .other ?_, .other ?_, .other ?_⟩
      all_goals simp_all

/-- A message holds at its end what its parts say. -/
theorem visitAll_message {before : OpenMessage} {nodes : List Node} {final : Place}
    (h : ((message before).visitAll nodes).outcome = .ok final) :
    ∃ after, final = message after ∧ before.Grows nodes after :=
  visitAll_of_visit message OpenMessage.Grows (fun _ => .nil) .trans visit_message h

end Place

end Reader

end MessageCatalog
