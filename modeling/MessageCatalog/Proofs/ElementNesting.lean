import MessageCatalog.Proofs.ElementForest
import MessageCatalog.Proofs.TagReading

/-!
# Every document that can be read is nested

The cursor keeps the names of the open elements, and the reader stands as deep
in the catalog as there are open elements. Only from outside every element can
the reader finish, so the events of a document that can be read are those of a
forest.
-/

namespace MessageCatalog

/-- What an event does to the names of the open elements. -/
def MarkupEvent.Opens (event : MarkupEvent) (before after : List (List Char)) : Prop :=
  match event with
  | .start tag => after = tag.name :: before
  | .stop => ∃ name, before = name :: after
  | .text _ | .data _ | .declaration _ | .remark => after = before

/-- How deep an event leads. -/
def MarkupEvent.depthBehind (event : MarkupEvent) (depth : Nat) : Nat :=
  match event with
  | .start _ => depth + 1
  | .stop => depth - 1
  | .text _ | .data _ | .declaration _ | .remark => depth

/-- The cursor knows the element whose end is due. -/
def Cursor.Sound (cursor : Cursor) : Prop := cursor.closing = true → cursor.opened ≠ []

/-- At the start of a document no end tag is due. -/
theorem Cursor.sound_ofText (text : List Char) : (ofText text).Sound := by
  simp [Sound, ofText]

/-- A reading behind which the names of the open elements are right. -/
def Reading.Tracks (before : List (List Char)) (reading : Reading) : Prop :=
  match reading with
  | .event _ found after => found.Opens before after.opened ∧ after.Sound
  | .finished _ | .fault _ _ => True

namespace Cursor

/-- Markup behind an exclamation mark opens and closes nothing. -/
theorem readBang_tracks (opened : List (List Char)) (offset : Nat) (text : List Char) :
    (readBang opened offset text).Tracks opened := by
  unfold readBang
  split
  · trivial
  · unfold readComment
    repeat' split
    all_goals simp [Reading.Tracks, MarkupEvent.Opens, Sound]
  · unfold readData
    repeat' split
    all_goals simp [Reading.Tracks, MarkupEvent.Opens, Sound]
  · unfold readDoctype
    repeat' split
    all_goals simp [Reading.Tracks, MarkupEvent.Opens, Sound]

/-- An end tag closes the innermost open element. -/
theorem readEnd_tracks (opened : List (List Char)) (offset : Nat) (text : List Char) :
    (readEnd opened offset text).Tracks opened := by
  unfold readEnd
  dsimp only
  split
  · trivial
  · split
    · exact ⟨⟨_, rfl⟩, by simp [Sound]⟩
    · trivial

/-- An instruction opens and closes nothing. -/
theorem readInstruction_tracks (opened : List (List Char)) (offset : Nat) (text : List Char) :
    (readInstruction opened offset text).Tracks opened := by
  unfold readInstruction
  dsimp only
  split
  · refine ⟨?_, by simp [Sound]⟩
    repeat' split
    all_goals rfl
  · trivial

/-- A start tag opens an element. -/
theorem readStart_tracks (opened : List (List Char)) (offset : Nat) (text : List Char) :
    (readStart opened offset text).Tracks opened := by
  unfold readStart
  split
  · trivial
  · exact ⟨rfl, fun _ => List.cons_ne_nil _ _⟩

/-- Every event keeps the names of the open elements right. -/
theorem next_tracks {cursor : Cursor} (sound : cursor.Sound) :
    cursor.next.Tracks cursor.opened := by
  unfold next
  split
  next due =>
    cases h : cursor.opened with
    | nil => exact absurd h (sound due)
    | cons name outer => exact ⟨⟨name, rfl⟩, by simp [Sound]⟩
  · split
    · trivial
    · unfold readMarkup
      split
      · trivial
      · exact readBang_tracks _ _ _
      · exact readEnd_tracks _ _ _
      · exact readInstruction_tracks _ _ _
      · exact readStart_tracks _ _ _
    · exact ⟨rfl, by simp [Sound]⟩

/-- An event keeps the names of the open elements right. -/
theorem tracks_of_event {cursor after : Cursor} {offset : Nat} {event : MarkupEvent}
    (sound : cursor.Sound) (h : cursor.next = .event offset event after) :
    event.Opens cursor.opened after.opened ∧ after.Sound := by
  have tracks := next_tracks sound
  rw [h] at tracks
  exact tracks

end Cursor

namespace Reader

/-- How many elements are open around the content of a text element. -/
def TextHost.depth : TextHost → Nat
  | contextName _ => 3
  | part _ _ => 4
  | form _ => 5

/-- How many elements are open at a place. -/
def Place.depth : Place → Nat
  | document _ => 0
  | root _ => 1
  | context _ => 2
  | message _ => 3
  | location _ _ | forms _ => 4
  | text host _ => host.depth
  | byte _ host _ => host.depth + 1
  | skipped outer => outer.depth + 1

/-- A start tag leads one element deeper. -/
theorem Place.enter_depth {place next : Place} {tag : Tag}
    (h : (place.enter tag).outcome = .ok next) : next.depth = place.depth + 1 := by
  have passed (p : Place) (h : (p.skipUnexpected tag).outcome = .ok next) :
      next.depth = p.depth + 1 := by
    injection h with h
    rw [← h]
    rfl
  unfold enter at h
  split at h
  · split at h
    · obtain ⟨_, _, rfl⟩ := OpenCatalog.start_eq_ok h
      rfl
    · exact passed _ h
  · exact passed _ h
  · split at h
    · injection h with h
      rw [← h]
      rfl
    · exact passed _ h
  · split at h
    · injection h with h
      rw [← h]
      rfl
    · obtain ⟨_, _, rfl⟩ := OpenMessage.start_eq_ok h
      rfl
    · exact passed _ h
  · split at h
    · obtain ⟨_, _, rfl⟩ := startLocation_eq_ok h
      rfl
    all_goals try (injection h with h; rw [← h]; rfl)
    · obtain ⟨_, _, _, _, rfl⟩ := startTranslation_eq_ok h
      split <;> rfl
  · split at h
    · injection h with h
      rw [← h]
      rfl
    · exact passed _ h
  · split at h
    · obtain ⟨_, _, rfl⟩ := startByte_eq_ok h
      rfl
    · exact passed _ h
  all_goals
    injection h with h
    rw [← h]
    rfl

/-- What a context adds to its catalog at its end. -/
def OpenContext.complete (context : OpenContext) : Context :=
  ⟨context.name.getD "", context.messages.toList⟩

/-- A context always ends well. -/
theorem OpenContext.close_outcome (context : OpenContext) :
    context.close.outcome = .ok (.root { context.outer with
      contexts := context.outer.contexts.push context.complete }) := by
  unfold close complete
  cases context.name <;> rfl

/-- What a message adds to its context at its end: nothing without a source text. -/
def OpenMessage.complete? (message : OpenMessage) : Option Message :=
  message.source.map fun source =>
    { locations := message.locations.toList
      source := source
      comment := message.comment
      extraComment := message.extraComment
      translatorComment := message.translatorComment
      utf8 := message.utf8
      translation := (message.translation.getD message.blank).1
      status := (message.translation.getD message.blank).2 }

/-- A message always ends well. -/
theorem OpenMessage.close_outcome (message : OpenMessage) :
    message.close.outcome = .ok (.context { message.outer with
      messages := message.outer.messages ++ message.complete?.toArray }) := by
  unfold close complete?
  cases message.source with
  | none => simp
  | some source => cases message.translation <;> simp

/-- The end of an element leads out of one element. -/
theorem Place.leave_depth {place next : Place} (h : place.leave.outcome = .ok next) :
    next.depth = place.depth - 1 := by
  unfold leave at h
  split at h
  case h_3 =>
    rw [OpenContext.close_outcome] at h
    injection h with h
    rw [← h]
    rfl
  case h_4 =>
    rw [OpenMessage.close_outcome] at h
    injection h with h
    rw [← h]
    rfl
  case h_10 => split at h <;> (injection h with h; rw [← h]; rfl)
  all_goals
    injection h with h
    rw [← h]
    rfl

/-- A run of text is added to a text element, and leads nowhere. -/
theorem Place.takeText_eq_ok {place next : Place} {run : List Char}
    (h : (place.takeText run).outcome = .ok next) :
    (∃ host content plain, place = .text host content ∧ Entity.unescape run = .ok plain ∧
      next = .text host (content ++ plain)) ∨
    ((∀ host content, place ≠ .text host content) ∧ next = place) := by
  unfold takeText at h
  split at h
  next host content =>
    left
    split at h
    next plain resolved =>
      injection h with h
      exact ⟨host, content, plain, rfl, resolved, h.symm⟩
    · exact absurd h (by simp)
  case h_5 none _ _ _ =>
    right
    refine ⟨none, ?_⟩
    unfold expectLayout at h
    split at h <;> (injection h with h; exact h.symm)
  all_goals
    right
    injection h with h
    exact ⟨fun _ _ same => Place.noConfusion same, h.symm⟩

/-- Character data are added to a text element, and lead nowhere. -/
theorem Place.takeData_eq_ok {place next : Place} {data : List Char}
    (h : (place.takeData data).outcome = .ok next) :
    (∃ host content, place = .text host content ∧
      next = .text host (content ++ String.ofList data)) ∨
    ((∀ host content, place ≠ .text host content) ∧ next = place) := by
  unfold takeData at h
  split at h
  next host content =>
    injection h with h
    exact .inl ⟨host, content, rfl, h.symm⟩
  next =>
    injection h with h
    exact .inr ⟨fun _ _ same => Place.noConfusion same, h.symm⟩
  next none _ =>
    injection h with h
    exact .inr ⟨none, h.symm⟩

/-- A declaration leads nowhere. -/
theorem Place.takeDeclaration_eq_ok {place next : Place} {attributes : List Char}
    (h : (place.takeDeclaration attributes).outcome = .ok next) : next = place := by
  unfold takeDeclaration at h
  split at h
  · simp only [Step.bind_outcome_eq_ok, Step.pure_outcome, Except.ok.injEq] at h
    obtain ⟨_, _, h⟩ := h
    exact h.symm
  · injection h with h
    exact h.symm

/-- The reader stands as deep as the events lead. -/
theorem Place.take_depth {place next : Place} {event : MarkupEvent}
    (h : (place.take event).outcome = .ok next) :
    next.depth = event.depthBehind place.depth := by
  cases event with
  | start tag => exact enter_depth h
  | stop => exact leave_depth h
  | remark =>
    injection h with h
    rw [← h]
    rfl
  | text run =>
    rcases takeText_eq_ok h with ⟨host, content, plain, rfl, _, rfl⟩ | ⟨_, rfl⟩
    · rfl
    · rfl
  | data content =>
    rcases takeData_eq_ok h with ⟨host, content, rfl, rfl⟩ | ⟨_, rfl⟩
    · rfl
    · rfl
  | declaration attributes =>
    rw [takeDeclaration_eq_ok h]
    rfl

/-- From a cursor that stands as deep as the reader, all events that take the
reader out of every element are nested. -/
theorem Place.nested_of_reached {cursor : Cursor} (sound : cursor.Sound) {place final : Place}
    (level : place.depth = cursor.opened.length)
    (h : place.reached cursor.events = .ok final) (out : final.depth = 0) :
    Nested place.depth (cursor.events.map Prod.snd) := by
  induction cursor using Cursor.induction_next generalizing place with
  | event cursor offset event after found ih =>
    rw [Cursor.events_of_event found] at h ⊢
    rw [reached] at h
    obtain ⟨opens, sound'⟩ := Cursor.tracks_of_event sound found
    split at h
    next next taken =>
      have deep := take_depth taken
      cases event with
      | start tag =>
        have level' : next.depth = after.opened.length := by
          rw [deep, show after.opened = tag.name :: cursor.opened from opens]
          simp [MarkupEvent.depthBehind, level]
        have nested := ih sound' level' h
        rw [deep] at nested
        exact nested
      | stop =>
        obtain ⟨name, opened⟩ := opens
        have level' : next.depth = after.opened.length := by
          rw [deep]
          simp [MarkupEvent.depthBehind, level, opened]
        have nested := ih sound' level' h
        rw [deep] at nested
        exact ⟨by rw [level, opened]; exact Nat.succ_pos _, nested⟩
      | text | data | declaration | remark =>
        have level' : next.depth = after.opened.length := by
          rw [deep, show after.opened = cursor.opened from opens]
          exact level
        have nested := ih sound' level' h
        rw [deep] at nested
        exact nested
    · exact absurd h (by simp)
  | finished cursor offset found =>
    rw [(Cursor.events_of_finished found).1] at h ⊢
    injection h with h
    rw [List.map_nil, Nested, h]
    exact out
  | fault cursor offset reason found =>
    rw [(Cursor.events_of_fault found).1] at h ⊢
    injection h with h
    rw [List.map_nil, Nested, h]
    exact out

end Reader

end MessageCatalog
