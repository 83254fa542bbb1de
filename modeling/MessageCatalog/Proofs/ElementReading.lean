import MessageCatalog.Proofs.ElementRoles

/-!
# Elements read by themselves

What an element says, and what is irregular in it, does not depend on what the
reader has collected around it. So an element can be read by itself, down to the
texts inside it, and the reader only adds what it says to what is there. Its
places are one such sum for each kind of element.
-/

namespace MessageCatalog

namespace Reader

/-- What is noted of text between elements. -/
def layoutOf (element : String) (run : List Char) : Step Unit :=
  if run.all isLayout then pure () else Step.note (.strayText element)

/-- An element that does not belong where it stands says nothing, but is noted. -/
def unexpectedOf {α : Type} (element : String) (tag : Tag) (nothing : α) : Step α := do
  Step.note (.unexpectedElement (String.ofList tag.name) element)
  pure nothing

/-- What a part of a text element adds to its text. -/
def pieceOf (element : String) : Node → Step String
  | .text run =>
    match Entity.unescape run with
    | .ok plain => pure plain
    | .error fault => Step.fail (.malformed (.inEntity fault))
  | .data content => pure (String.ofList content)
  | .declaration _ | .remark => pure ""
  | .element tag _ =>
    if String.ofList tag.name = "byte" then do
      let attributes ← Step.attributes tag
      let value := (attributes.find? (·.1 == "value")).map Prod.snd
      match value.bind byteCharacter? with
      | some c => pure (String.singleton c)
      | none => do
        Step.note (.invalidByte value)
        pure ""
    else unexpectedOf element tag ""

/-- The text of a text element. -/
def textOf (element : String) (children : List Node) : Step String :=
  (fun pieces => pieces.foldl (· ++ ·) "") <$> children.mapM (pieceOf element)

/-- The form that a part of a translation is, if it is one. -/
def formOf : Node → Step (Option String)
  | .text run => do
    layoutOf "translation" run
    pure none
  | .data _ => do
    Step.note .looseData
    pure none
  | .declaration _ | .remark => pure none
  | .element tag children =>
    if String.ofList tag.name = "numerusform" then some <$> textOf "numerusform" children
    else unexpectedOf "translation" tag none

/-- A form behind others. -/
def addForm (forms : Array String) (form : Option String) : Array String := forms ++ form.toArray

/-- The plural forms of a translation. -/
def formsOf (children : List Node) : Step (Array String) :=
  (fun forms => forms.foldl addForm #[]) <$> children.mapM formOf

/-- What a part of a message says. -/
inductive MessagePart where
  /-- Nothing. -/
  | nothing
  /-- A location. -/
  | location (location : Location)
  /-- A text. -/
  | text (part : MessageText) (content : String)
  /-- A translation with plural forms. -/
  | forms (forms : Array String) (status : Status)

/-- A message with one more part. A text or a translation takes the place of an
earlier one. -/
def OpenMessage.add (message : OpenMessage) : MessagePart → OpenMessage
  | .nothing => message
  | .location location => { message with locations := message.locations.push location }
  | .text part content => message.set part content
  | .forms forms status => { message with translation := some (.plural forms.toList, status) }

/-- What a text of a message says. -/
def messageTextOf (part : MessageText) (children : List Node) : Step MessagePart :=
  MessagePart.text part <$> textOf part.element children

/-- What a translation says, with plural forms or without. -/
def translationOf (plural : Bool) (tag : Tag) (children : List Node) : Step MessagePart := do
  let attributes ← Step.attributes tag
  let status ← attributes.foldlM takeStatusAttribute .finished
  if plural then (MessagePart.forms · status) <$> formsOf children
  else messageTextOf (.translation status) children

/-- What a location says. -/
def locationOf (tag : Tag) : Step MessagePart := do
  let attributes ← Step.attributes tag
  MessagePart.location <$> attributes.foldlM takeLocationAttribute ⟨none, none⟩

/-- What a part of a message says, with plural forms or without. -/
def partOf (plural : Bool) : Node → Step MessagePart
  | .text run => do
    layoutOf "message" run
    pure .nothing
  | .data _ | .declaration _ | .remark => pure .nothing
  | .element tag children =>
    match String.ofList tag.name with
    | "location" => locationOf tag
    | "source" => messageTextOf .source children
    | "comment" => messageTextOf .comment children
    | "extracomment" => messageTextOf .extraComment children
    | "translatorcomment" => messageTextOf .translatorComment children
    | "translation" => translationOf plural tag children
    | _ => unexpectedOf "message" tag .nothing

/-- What is added to a message does not change whether it has plural forms. -/
theorem OpenMessage.add_plural (message : OpenMessage) (part : MessagePart) :
    (message.add part).plural = message.plural := by
  cases part with
  | text part content => cases part <;> rfl
  | nothing | location | forms => rfl

/-- A message by itself, before anything of it was read. -/
def OpenMessage.apart : OpenMessage :=
  ⟨⟨⟨defaultVersion, none, none, #[]⟩, none, #[]⟩, false, none, #[], none, none, none, none, none⟩

/-- A message at its end tag, by itself. Without a source text it is left out. -/
def OpenMessage.whole? (message : OpenMessage) : Step (Option Message) :=
  ⟨message.close.notes, .ok message.complete?⟩

/-- What a message says, if it has a source text. -/
def messageOf (tag : Tag) (children : List Node) : Step (Option Message) := do
  let attributes ← Step.attributes tag
  let message ← attributes.foldlM OpenMessage.takeAttribute OpenMessage.apart
  let parts ← children.mapM (partOf message.plural)
  (parts.foldl OpenMessage.add message).whole?

/-- What a part of a context says. -/
inductive ContextPart where
  /-- A name. -/
  | name (content : String)
  /-- A message, or nothing. -/
  | message (complete : Option Message)

/-- A context with one more part. A name takes the place of an earlier one. -/
def OpenContext.add (context : OpenContext) : ContextPart → OpenContext
  | .name content => { context with name := some content }
  | .message complete => { context with messages := context.messages ++ complete.toArray }

/-- What a part of a context says. -/
def contextPartOf : Node → Step ContextPart
  | .text run => do
    layoutOf "context" run
    pure (.message none)
  | .data _ | .declaration _ | .remark => pure (.message none)
  | .element tag children =>
    match String.ofList tag.name with
    | "name" => ContextPart.name <$> textOf "name" children
    | "message" => ContextPart.message <$> messageOf tag children
    | _ => unexpectedOf "context" tag (.message none)

/-! ## Messages wherever they stand -/

namespace OpenMessage

/-- A message in a context. -/
def within (message : OpenMessage) (outer : OpenContext) : OpenMessage :=
  { message with outer := outer }

/-- Attributes are the same in every context. -/
theorem takeAttribute_within (message : OpenMessage) (outer : OpenContext)
    (entry : String × String) :
    (message.within outer).takeAttribute entry =
      (·.within outer) <$> message.takeAttribute entry := by
  unfold takeAttribute
  split <;> rfl

/-- Attributes are the same in every context. -/
theorem foldlM_takeAttribute_within (message : OpenMessage) (outer : OpenContext)
    (attributes : List (String × String)) :
    attributes.foldlM takeAttribute (message.within outer) =
      (·.within outer) <$> attributes.foldlM takeAttribute message := by
  induction attributes generalizing message with
  | nil => rfl
  | cons entry rest ih =>
    rw [List.foldlM_cons, List.foldlM_cons, takeAttribute_within, bind_map_left, map_bind]
    congr 1
    funext next
    exact ih next

/-- What is added to a message is the same in every context. -/
theorem add_within (message : OpenMessage) (outer : OpenContext) (part : MessagePart) :
    (message.within outer).add part = (message.add part).within outer := by
  cases part with
  | text part content => cases part <;> rfl
  | nothing | location | forms => rfl

/-- What is added to a message is the same in every context. -/
theorem foldl_add_within (message : OpenMessage) (outer : OpenContext) (parts : List MessagePart) :
    parts.foldl add (message.within outer) = (parts.foldl add message).within outer := by
  induction parts generalizing message with
  | nil => rfl
  | cons part rest ih => rw [List.foldl_cons, List.foldl_cons, add_within, ih]

/-- At its end tag a message is added to its context, with the same notes in every one. -/
theorem close_within (message : OpenMessage) (outer : OpenContext) :
    (message.within outer).close =
      (fun complete => .context (outer.add (.message complete))) <$> message.whole? := by
  have notes : (message.within outer).close.notes = message.whole?.notes := by
    unfold whole? close within
    cases message.source with
    | none => rfl
    | some source => cases message.translation <;> rfl
  have outcome := (message.within outer).close_outcome
  rw [map_eq_pure_bind, Step.bind_of_ok rfl, Step.pure_notes, List.append_nil, ← notes]
  exact congrArg (Step.mk _) outcome

end OpenMessage

/-! ## The reader adds up what the parts say -/

namespace Place

/-- Places of one kind to which each part adds what it says: a list of parts adds all
that they say, one behind the other. -/
theorem visitAll_eq_mapM {σ δ : Type} (place : σ → Place) (Fits : σ → Prop)
    {read : Node → Step δ} {add : σ → δ → σ}
    (keeps : ∀ {state} said, Fits state → Fits (add state said))
    (step : ∀ {state}, Fits state → ∀ node,
      (place state).visit node = (fun said => place (add state said)) <$> read node)
    {state : σ} (fits : Fits state) (nodes : List Node) :
    (place state).visitAll nodes = (fun said => place (said.foldl add state)) <$> nodes.mapM read := by
  induction nodes generalizing state with
  | nil => rfl
  | cons node rest ih =>
    rw [visitAll, step fits, List.mapM_cons]
    simp only [map_eq_pure_bind, bind_assoc, pure_bind]
    congr 1
    funext said
    rw [ih (keeps said fits), map_eq_pure_bind]
    rfl

/-- What is noted of text between elements does not change the place. -/
theorem expectLayout_eq (place : Place) (run : List Char) :
    place.expectLayout run = layoutOf place.element run >>= fun _ => pure place := by
  unfold expectLayout layoutOf
  split <;> rfl

/-- An element that does not belong where it stands is noted and changes nothing. -/
theorem visit_unexpected {place : Place} {tag : Tag}
    (unexpected : place.enter tag = place.skipUnexpected tag) (children : List Node) :
    place.visit (.element tag children) = unexpectedOf place.element tag place := by
  rw [visit, unexpected, skipUnexpected, unexpectedOf]
  simp only [bind_assoc, pure_bind, visitAll_skipped]
  rfl

/-- A part of a text element adds its piece, whatever the text belongs to. -/
theorem visit_text_eq (host : TextHost) (content : String) (node : Node) :
    (text host content).visit node =
      (fun piece => text host (content ++ piece)) <$> pieceOf host.element node := by
  have still : (fun piece => text host (content ++ piece)) <$> (pure "" : Step String) =
      pure (text host content) := by
    rw [map_pure, String.append_empty]
  cases node with
  | text run =>
    rw [visit, takeText, pieceOf]
    cases Entity.unescape run <;> rfl
  | data run => rfl
  | declaration | remark => exact still.symm
  | element tag children =>
    rw [pieceOf]
    split
    next name =>
      have start : (text host content).enter tag = startByte host content tag := by
        simp only [enter, name]
      rw [visit, start, startByte]
      simp only [bind_assoc, pure_bind, visitAll_byte, map_bind, leave]
      congr 1
      funext attributes
      cases ((attributes.find? (·.1 == "value")).map Prod.snd).bind byteCharacter? with
      | none => rw [map_bind, still]
      | some c => rw [map_pure, String.append_singleton]
    next name =>
      have unexpected : (text host content).enter tag = (text host content).skipUnexpected tag := by
        unfold enter
        split <;> simp_all
      rw [visit_unexpected unexpected, unexpectedOf, unexpectedOf, map_bind, still]
      rfl

/-- A text element holds at its end the text that it has by itself. -/
theorem visitAll_text_eq (host : TextHost) (children : List Node) :
    (text host "").visitAll children = text host <$> textOf host.element children := by
  rw [textOf, Functor.map_map]
  exact visitAll_eq_mapM (text host) (fun _ => True) (fun _ fits => fits)
    (fun _ node => visit_text_eq host _ node) trivial children

/-- A text element hands on the text that it has by itself. -/
theorem visit_textElement_eq {place : Place} {tag : Tag} {host : TextHost} {after : String → Place}
    (start : place.enter tag = pure (text host ""))
    (ends : ∀ content, (text host content).leave = pure (after content)) (children : List Node) :
    place.visit (.element tag children) = after <$> textOf host.element children := by
  rw [visit, start]
  simp only [pure_bind, visitAll_text_eq, bind_map_left, ends, bind_pure_comp]

/-- A part of a translation adds the form that it is. -/
theorem visit_forms_eq (outer : OpenMessage) (status : Status) (before : Array String)
    (node : Node) :
    (forms ⟨outer, status, before⟩).visit node =
      (fun form => forms ⟨outer, status, addForm before form⟩) <$> formOf node := by
  have still : addForm before none = before := Array.append_empty
  cases node with
  | text run =>
    simp only [visit, takeText, expectLayout_eq, formOf, map_bind, map_pure, still]
    rfl
  | data content => simp only [visit, takeData, formOf, map_bind, map_pure, still]
  | declaration | remark => simp only [visit, takeDeclaration, formOf, map_pure, still]
  | element tag children =>
    rw [formOf]
    split
    next name =>
      have start : (forms ⟨outer, status, before⟩).enter tag =
          pure (text (.form ⟨outer, status, before⟩) "") := by
        simp only [enter, name]
      rw [visit_textElement_eq start (fun _ => rfl), Functor.map_map]
      rfl
    next name =>
      have unexpected : (forms ⟨outer, status, before⟩).enter tag =
          (forms ⟨outer, status, before⟩).skipUnexpected tag := by
        unfold enter
        split <;> simp_all
      rw [visit_unexpected unexpected, unexpectedOf, unexpectedOf, map_bind, map_pure, still]
      rfl

/-- A translation holds at its end the forms that it has by itself. -/
theorem visitAll_forms_eq (outer : OpenMessage) (status : Status) (children : List Node) :
    (forms ⟨outer, status, #[]⟩).visitAll children =
      (fun values => forms ⟨outer, status, values⟩) <$> formsOf children := by
  rw [formsOf, Functor.map_map]
  exact visitAll_eq_mapM (fun values => forms ⟨outer, status, values⟩) (fun _ => True)
    (fun _ fits => fits) (fun _ node => visit_forms_eq outer status _ node) trivial children

/-- A translation is added to its message. -/
theorem visit_translation_eq {outer : OpenMessage} {tag : Tag}
    (start : (message outer).enter tag = startTranslation outer tag) (children : List Node) :
    (message outer).visit (.element tag children) =
      (fun part => message (outer.add part)) <$> translationOf outer.plural tag children := by
  rw [visit, start, startTranslation, translationOf]
  simp only [bind_assoc, map_bind]
  congr 1
  funext attributes
  congr 1
  funext status
  split
  · rw [pure_bind, visitAll_forms_eq, bind_map_left, Functor.map_map, ← bind_pure_comp]
    rfl
  · rw [pure_bind, visitAll_text_eq, bind_map_left, messageTextOf, Functor.map_map,
      ← bind_pure_comp]
    rfl

/-- A location is added to its message. -/
theorem visit_location_eq {outer : OpenMessage} {tag : Tag}
    (start : (message outer).enter tag = startLocation outer tag) (children : List Node) :
    (message outer).visit (.element tag children) =
      (fun part => message (outer.add part)) <$> locationOf tag := by
  rw [visit, start, startLocation, locationOf]
  simp only [bind_assoc, pure_bind, visitAll_location, ← bind_pure_comp]
  rfl

/-- A text is added to its message. -/
theorem visit_messageText_eq {outer : OpenMessage} {tag : Tag} {part : MessageText}
    (start : (message outer).enter tag = pure (text (.part part outer) ""))
    (children : List Node) :
    (message outer).visit (.element tag children) =
      (fun said => message (outer.add said)) <$> messageTextOf part children := by
  rw [visit_textElement_eq start (fun _ => rfl), messageTextOf, Functor.map_map]
  rfl

/-- A part of a message is added to it. -/
theorem visit_message_eq (outer : OpenMessage) (node : Node) :
    (message outer).visit node =
      (fun part => message (outer.add part)) <$> partOf outer.plural node := by
  cases node with
  | text run =>
    simp only [visit, takeText, expectLayout_eq, partOf, map_bind, map_pure]
    rfl
  | data | declaration | remark => rfl
  | element tag children =>
    rw [partOf]
    split
    next name => exact visit_location_eq (by simp only [enter, name]) children
    next name => exact visit_messageText_eq (by simp only [enter, name]) children
    next name => exact visit_messageText_eq (by simp only [enter, name]) children
    next name => exact visit_messageText_eq (by simp only [enter, name]) children
    next name => exact visit_messageText_eq (by simp only [enter, name]) children
    next name => exact visit_translation_eq (by simp only [enter, name]) children
    next =>
      have unexpected : (message outer).enter tag = (message outer).skipUnexpected tag := by
        unfold enter
        split <;> simp_all
      rw [visit_unexpected unexpected]
      rfl

/-- A message holds at its end what its parts say. -/
theorem visitAll_message_eq (outer : OpenMessage) (children : List Node) :
    (message outer).visitAll children =
      (fun parts => message (parts.foldl OpenMessage.add outer)) <$>
        children.mapM (partOf outer.plural) := by
  refine visitAll_eq_mapM message (fun inner => inner.plural = outer.plural) ?_ ?_ rfl children
  · intro inner part same
    rw [OpenMessage.add_plural, same]
  · intro inner same node
    rw [visit_message_eq, same]

/-- A message is added to its context. -/
theorem visit_messageElement_eq {outer : OpenContext} {tag : Tag}
    (start : (context outer).enter tag = OpenMessage.start outer tag) (children : List Node) :
    (context outer).visit (.element tag children) =
      (fun part => context (outer.add part)) <$>
        ContextPart.message <$> messageOf tag children := by
  rw [visit, start, OpenMessage.start, messageOf]
  simp only [bind_assoc, map_bind, pure_bind]
  congr 1
  funext attributes
  have inContext : (⟨outer, false, none, #[], none, none, none, none, none⟩ : OpenMessage) =
      OpenMessage.apart.within outer := rfl
  rw [inContext, OpenMessage.foldlM_takeAttribute_within, bind_map_left]
  congr 1
  funext inner
  rw [visitAll_message_eq, bind_map_left]
  congr 1
  funext parts
  rw [OpenMessage.foldl_add_within, Functor.map_map]
  exact OpenMessage.close_within _ outer

/-- A part of a context is added to it. -/
theorem visit_context_eq (outer : OpenContext) (node : Node) :
    (context outer).visit node = (fun part => context (outer.add part)) <$> contextPartOf node := by
  have still : outer.add (.message none) = outer := by
    rw [OpenContext.add, Option.toArray_none, Array.append_empty]
  cases node with
  | text run =>
    simp only [visit, takeText, expectLayout_eq, contextPartOf, map_bind, map_pure, still]
    rfl
  | data | declaration | remark =>
    simp only [visit, takeData, takeDeclaration, contextPartOf, map_pure, still]
  | element tag children =>
    rw [contextPartOf]
    split
    next name =>
      have start : (context outer).enter tag = pure (text (.contextName outer) "") := by
        simp only [enter, name]
      rw [visit_textElement_eq start (fun _ => rfl), Functor.map_map]
      rfl
    next name => exact visit_messageElement_eq (by simp only [enter, name]) children
    next =>
      have unexpected : (context outer).enter tag = (context outer).skipUnexpected tag := by
        unfold enter
        split <;> simp_all
      rw [visit_unexpected unexpected, unexpectedOf, unexpectedOf, map_bind, map_pure, still]
      rfl

/-- A context holds at its end what its parts say. -/
theorem visitAll_context_eq (outer : OpenContext) (children : List Node) :
    (context outer).visitAll children =
      (fun parts => context (parts.foldl OpenContext.add outer)) <$>
        children.mapM contextPartOf :=
  visitAll_eq_mapM context (fun _ => True) (fun _ fits => fits)
    (fun _ node => visit_context_eq _ node) trivial children

end Place

end Reader

end MessageCatalog
