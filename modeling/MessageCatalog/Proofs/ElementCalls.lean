import Mathlib.Logic.Function.Iterate
import MessageCatalog.Proofs.TruncatedDocument

/-!
# Reading with a call for every element

The reader is one loop over the events of a document, and its place tells what is to be
done at each end tag. Reading can also be laid out in calls: what is inside an element is
read by a loop of its own, which calls for each start tag that it meets and returns at the
first end tag that no call has used up. An element whose content does not matter is passed
over by counting. Both ways ask for the same events in the same order and come to the same.
-/

namespace MessageCatalog

/-- Whether an event neither opens nor closes an element. -/
def MarkupEvent.IsPiece : MarkupEvent → Prop
  | .start _ | .stop => False
  | .text _ | .data _ | .declaration _ | .remark => True

namespace Reader

/-- A loop asks for an event. -/
structure Request where
  /-- The place in front of the event, which tells the loop. -/
  place : Place
  /-- The open elements that the loop has counted, if it passes over an element. -/
  counter : Int
  /-- The cursor in front of the event. -/
  cursor : Cursor

/-- What all calls share. -/
structure Progress where
  /-- The cursor behind the last event. -/
  cursor : Cursor
  /-- The irregularities so far with their offsets. -/
  noted : Array (Nat × Irregularity)
  /-- The events asked for so far, the latest first. -/
  requests : List Request

/-- What a call comes to. -/
structure Call (α : Type) where
  /-- How far the call has come. -/
  progress : Progress
  /-- What it returns, or the fault that ends the reading, with its offset. -/
  outcome : Except (Nat × Fatal) α

namespace Progress

/-- Before the first event of a document. -/
def start (text : List Char) : Progress := ⟨Cursor.ofText text, #[], []⟩

/-- Ask for an event. -/
def ask (progress : Progress) (place : Place) (counter : Int) : Progress :=
  { progress with requests := ⟨place, counter, progress.cursor⟩ :: progress.requests }

/-- Ask for an event and go behind it. -/
def behind (progress : Progress) (place : Place) (counter : Int) (after : Cursor)
    (noted : Array (Nat × Irregularity)) : Progress :=
  ⟨after, noted, ⟨place, counter, progress.cursor⟩ :: progress.requests⟩

/-- The cursors at which an event was asked for, the latest first. -/
def asked (progress : Progress) : List Cursor := progress.requests.map Request.cursor

/-- Reading goes by the next event: a proof about all progress may assume that behind an
event to be done. -/
theorem induction_next {motive : Progress → Prop}
    (event : ∀ progress offset event after, progress.cursor.next = .event offset event after →
      (∀ behind : Progress, behind.cursor = after → motive behind) → motive progress)
    (finished : ∀ progress offset, progress.cursor.next = .finished offset → motive progress)
    (fault : ∀ progress offset reason, progress.cursor.next = .fault offset reason →
      motive progress)
    (progress : Progress) : motive progress := by
  induction h : progress.cursor using Cursor.induction_next generalizing progress with
  | event cursor offset found after read ih =>
    subst h
    exact event progress offset found after read ih
  | finished cursor offset read => exact finished progress offset (h ▸ read)
  | fault cursor offset reason read => exact fault progress offset reason (h ▸ read)

end Progress

/-- Pass over the content of an element and its end, whose offset is returned. The elements
that are open inside of it are counted. -/
def skipElement (place : Place) (counter : Int) (progress : Progress) : Call Nat :=
  match _read : progress.cursor.next with
  | .finished offset =>
    ⟨progress.ask place counter, .error (offset, .malformed (.endInside "element"))⟩
  | .fault offset reason => ⟨progress.ask place counter, .error (offset, .malformed reason)⟩
  | .event offset event after =>
    have _shorter : after.size < progress.cursor.size := Cursor.next_size_lt _read
    let behind := progress.behind place counter after progress.noted
    match event with
    | .start _ => skipElement place (counter + 1) behind
    | .stop =>
      if counter = 0 then ⟨behind, .ok offset⟩ else skipElement place (counter - 1) behind
    | _ => skipElement place counter behind
termination_by progress.cursor.size

/-- Whether the content of an element does not matter. -/
def Place.skips : Place → Bool
  | location _ _ | byte _ _ _ | skipped _ => true
  | document _ | root _ | context _ | message _ | forms _ | text _ _ => false

/-- Pass over the content of an element and take its end. -/
def skipContent (policy : Policy) (place : Place) (progress : Progress) : Call Place :=
  let call := skipElement place 0 progress
  match call.outcome with
  | .error fault => ⟨call.progress, .error fault⟩
  | .ok offset =>
    match State.advance policy ⟨place, call.progress.noted⟩ offset .stop with
    | .error fault => ⟨call.progress, .error fault⟩
    | .ok ⟨next, noted⟩ => ⟨{ call.progress with noted := noted }, .ok next⟩

/-! ## Passing over an element -/

section Skipping

variable {place : Place} {counter : Int} {progress : Progress} {offset : Nat}

/-- The document ends inside an element that is passed over. -/
theorem skipElement_of_finished (read : progress.cursor.next = .finished offset) :
    skipElement place counter progress =
      ⟨progress.ask place counter, .error (offset, .malformed (.endInside "element"))⟩ := by
  rw [skipElement]
  split <;> simp_all

/-- An element that is passed over is not well formed. -/
theorem skipElement_of_fault {reason : MarkupFault}
    (read : progress.cursor.next = .fault offset reason) :
    skipElement place counter progress =
      ⟨progress.ask place counter, .error (offset, .malformed reason)⟩ := by
  rw [skipElement]
  split <;> simp_all

/-- Start tags and end tags are counted, up to the end tag that is one too many. -/
theorem skipElement_of_event {event : MarkupEvent} {after : Cursor}
    (read : progress.cursor.next = .event offset event after) :
    skipElement place counter progress =
      let behind := progress.behind place counter after progress.noted
      match event with
      | .start _ => skipElement place (counter + 1) behind
      | .stop =>
        if counter = 0 then ⟨behind, .ok offset⟩ else skipElement place (counter - 1) behind
      | _ => skipElement place counter behind := by
  rw [skipElement]
  split
  next equation => simp [read] at equation
  next equation => simp [read] at equation
  next equation =>
    rw [read] at equation
    injection equation with same_offset same_event same_after
    subst same_offset same_event same_after
    rfl

/-- An end tag closes an element that was counted. -/
theorem skipElement_of_counted {count : Nat} {after : Cursor}
    (read : progress.cursor.next = .event offset .stop after) :
    skipElement place (count + 1 : Nat) progress =
      skipElement place count (progress.behind place (count + 1 : Nat) after progress.noted) := by
  have above : ((count + 1 : Nat) : Int) ≠ 0 := by omega
  have below : ((count + 1 : Nat) : Int) - 1 = count := by omega
  rw [skipElement_of_event read]
  dsimp only
  rw [if_neg above, below]

end Skipping

/-- Passing over an element makes no cursor greater. -/
theorem size_skipElement_le (place : Place) (counter : Int) (progress : Progress) :
    (skipElement place counter progress).progress.cursor.size ≤ progress.cursor.size := by
  induction progress using Progress.induction_next generalizing counter with
  | event progress offset event after read ih =>
    have lt := Nat.le_of_lt (Cursor.next_size_lt read)
    have later (counter' : Int) := Nat.le_trans
      (ih (progress.behind place counter after progress.noted) rfl counter') lt
    rw [skipElement_of_event read]
    cases event with
    | start tag => exact later _
    | stop =>
      dsimp only
      split
      · exact lt
      · exact later _
    | text | data | declaration | remark => exact later _
  | finished progress offset read =>
    rw [skipElement_of_finished read]
    exact Nat.le_refl _
  | fault progress offset reason read =>
    rw [skipElement_of_fault read]
    exact Nat.le_refl _

/-- Nor does taking its end. -/
theorem size_skipContent_le (policy : Policy) (place : Place) (progress : Progress) :
    (skipContent policy place progress).progress.cursor.size ≤ progress.cursor.size := by
  have le := size_skipElement_le place 0 progress
  unfold skipContent
  dsimp only
  split
  · exact le
  · split <;> exact le

/-- Read the content of an element and its end, from the place behind its start tag to the
place behind its end. The root, a context, a message, a plural translation and a text each
have a loop; the content of a location, of the element for a control character and of an
unknown element is passed over. No call makes the cursor greater, so the loop that calls can
go on. -/
def readContent (policy : Policy) (place : Place) (progress : Progress) :
    { call : Call Place // call.progress.cursor.size ≤ progress.cursor.size } :=
  if place.skips then ⟨skipContent policy place progress, size_skipContent_le ..⟩
  else match read : progress.cursor.next with
  | .finished offset =>
    ⟨⟨progress.ask place 0, .error (offset, .malformed (.endInside place.element))⟩,
      Nat.le_refl _⟩
  | .fault offset reason =>
    ⟨⟨progress.ask place 0, .error (offset, .malformed reason)⟩, Nat.le_refl _⟩
  | .event offset event after =>
    have shorter : after.size < progress.cursor.size := Cursor.next_size_lt read
    match State.advance policy ⟨place, progress.noted⟩ offset event with
    | .error fault =>
      ⟨⟨progress.behind place 0 after progress.noted, .error fault⟩, Nat.le_of_lt shorter⟩
    | .ok ⟨next, noted⟩ =>
      let behind := progress.behind place 0 after noted
      match event with
      | .stop => ⟨⟨behind, .ok next⟩, Nat.le_of_lt shorter⟩
      | .start _ =>
        let inside := readContent policy next behind
        have shorter' := Nat.lt_of_le_of_lt inside.2 shorter
        match inside.1.outcome with
        | .error fault => ⟨⟨inside.1.progress, .error fault⟩, Nat.le_of_lt shorter'⟩
        | .ok next =>
          let more := readContent policy next inside.1.progress
          ⟨more.1, Nat.le_trans more.2 (Nat.le_of_lt shorter')⟩
      | _ =>
        let more := readContent policy next behind
        ⟨more.1, Nat.le_trans more.2 (Nat.le_of_lt shorter)⟩
termination_by progress.cursor.size

/-- Read the elements of a document and what is between them, up to its end. -/
def readDocument (policy : Policy) (place : Place) (progress : Progress) : Call Catalog :=
  match _read : progress.cursor.next with
  | .finished offset => ⟨progress.ask place 0, place.finish.mapError (offset, ·)⟩
  | .fault offset reason => ⟨progress.ask place 0, .error (offset, .malformed reason)⟩
  | .event offset event after =>
    have _shorter : after.size < progress.cursor.size := Cursor.next_size_lt _read
    match State.advance policy ⟨place, progress.noted⟩ offset event with
    | .error fault => ⟨progress.behind place 0 after progress.noted, .error fault⟩
    | .ok ⟨next, noted⟩ =>
      let behind := progress.behind place 0 after noted
      match event with
      | .start _ =>
        let inside := readContent policy next behind
        have _shorter' := Nat.lt_of_le_of_lt inside.2 _shorter
        match inside.1.outcome with
        | .error fault => ⟨inside.1.progress, .error fault⟩
        | .ok next => readDocument policy next inside.1.progress
      | _ => readDocument policy next behind
termination_by progress.cursor.size

/-! ## The ways to read

A proof about calls goes by the way in which a call has run, where the calls inside of it and
the rest of its loop may be assumed to be done.
-/

/-- The ways to read the content of an element. -/
inductive Content (policy : Policy) : Place → Progress → Call Place → Prop
  /-- It does not matter. -/
  | skipped {place : Place} {progress : Progress} (skips : place.skips = true) :
    Content policy place progress (skipContent policy place progress)
  /-- The document ends inside of it. -/
  | finished {place : Place} {progress : Progress} {offset : Nat}
    (read : progress.cursor.next = .finished offset) :
    Content policy place progress
      ⟨progress.ask place 0, .error (offset, .malformed (.endInside place.element))⟩
  /-- It is not well formed. -/
  | fault {place : Place} {progress : Progress} {offset : Nat} {reason : MarkupFault}
    (read : progress.cursor.next = .fault offset reason) :
    Content policy place progress ⟨progress.ask place 0, .error (offset, .malformed reason)⟩
  /-- An event is refused. -/
  | refused {place : Place} {progress : Progress} {offset : Nat} {event : MarkupEvent}
    {after : Cursor} {fault : Nat × Fatal}
    (read : progress.cursor.next = .event offset event after)
    (taken : State.advance policy ⟨place, progress.noted⟩ offset event = .error fault) :
    Content policy place progress
      ⟨progress.behind place 0 after progress.noted, .error fault⟩
  /-- The end tag is read. -/
  | stopped {place next : Place} {progress : Progress} {offset : Nat} {after : Cursor}
    {noted : Array (Nat × Irregularity)} (read : progress.cursor.next = .event offset .stop after)
    (taken : State.advance policy ⟨place, progress.noted⟩ offset .stop = .ok ⟨next, noted⟩) :
    Content policy place progress ⟨progress.behind place 0 after noted, .ok next⟩
  /-- What is no element is read before the rest. -/
  | passed {place next : Place} {progress : Progress} {offset : Nat} {event : MarkupEvent}
    {after : Cursor} {noted : Array (Nat × Irregularity)} {call : Call Place}
    (read : progress.cursor.next = .event offset event after) (piece : event.IsPiece)
    (taken : State.advance policy ⟨place, progress.noted⟩ offset event = .ok ⟨next, noted⟩)
    (more : Content policy next (progress.behind place 0 after noted) call) :
    Content policy place progress call
  /-- The call for an element inside of it does not return. -/
  | broken {place next : Place} {progress progress' : Progress} {offset : Nat} {tag : Tag}
    {after : Cursor} {noted : Array (Nat × Irregularity)} {fault : Nat × Fatal}
    (read : progress.cursor.next = .event offset (.start tag) after)
    (taken : State.advance policy ⟨place, progress.noted⟩ offset (.start tag) =
      .ok ⟨next, noted⟩)
    (inside : Content policy next (progress.behind place 0 after noted)
      ⟨progress', .error fault⟩) :
    Content policy place progress ⟨progress', .error fault⟩
  /-- The call for an element inside of it returns, and the rest is read. -/
  | returned {place next next' : Place} {progress progress' : Progress} {offset : Nat} {tag : Tag}
    {after : Cursor} {noted : Array (Nat × Irregularity)} {call : Call Place}
    (read : progress.cursor.next = .event offset (.start tag) after)
    (taken : State.advance policy ⟨place, progress.noted⟩ offset (.start tag) =
      .ok ⟨next, noted⟩)
    (inside : Content policy next (progress.behind place 0 after noted) ⟨progress', .ok next'⟩)
    (more : Content policy next' progress' call) :
    Content policy place progress call

/-- The content of an element is read in one of these ways. -/
theorem content_readContent (policy : Policy) (place : Place) (progress : Progress) :
    Content policy place progress (readContent policy place progress).1 := by
  induction progress using (measure fun progress : Progress => progress.cursor.size).wf.induction
    generalizing place with
  | h progress ih =>
    rw [readContent]
    split
    next skips => exact .skipped skips
    · split
      next read => exact .finished read
      next read => exact .fault read
      next offset event after read =>
        have lt := Cursor.next_size_lt read
        split
        next taken => exact .refused read taken
        next next noted taken =>
          have inside := ih (progress.behind place 0 after noted) lt next
          cases event with
          | stop => exact .stopped read taken
          | start tag =>
            have le := (readContent policy next (progress.behind place 0 after noted)).2
            dsimp only
            split
            next broken => exact .broken read taken (broken ▸ inside)
            next next' returned =>
              exact .returned read taken (returned ▸ inside) (ih _ (Nat.lt_of_le_of_lt le lt) next')
          | text | data | declaration | remark => exact .passed read trivial taken inside

/-- The ways to read a document from some place outside every element. -/
inductive Document (policy : Policy) : Place → Progress → Call Catalog → Prop
  /-- The document ends. -/
  | finished {place : Place} {progress : Progress} {offset : Nat}
    (read : progress.cursor.next = .finished offset) :
    Document policy place progress ⟨progress.ask place 0, place.finish.mapError (offset, ·)⟩
  /-- It is not well formed. -/
  | fault {place : Place} {progress : Progress} {offset : Nat} {reason : MarkupFault}
    (read : progress.cursor.next = .fault offset reason) :
    Document policy place progress ⟨progress.ask place 0, .error (offset, .malformed reason)⟩
  /-- An event is refused. -/
  | refused {place : Place} {progress : Progress} {offset : Nat} {event : MarkupEvent}
    {after : Cursor} {fault : Nat × Fatal}
    (read : progress.cursor.next = .event offset event after)
    (taken : State.advance policy ⟨place, progress.noted⟩ offset event = .error fault) :
    Document policy place progress
      ⟨progress.behind place 0 after progress.noted, .error fault⟩
  /-- What is no start tag is read before the rest. -/
  | passed {place next : Place} {progress : Progress} {offset : Nat} {event : MarkupEvent}
    {after : Cursor} {noted : Array (Nat × Irregularity)} {call : Call Catalog}
    (read : progress.cursor.next = .event offset event after)
    (other : ∀ tag, event ≠ .start tag)
    (taken : State.advance policy ⟨place, progress.noted⟩ offset event = .ok ⟨next, noted⟩)
    (more : Document policy next (progress.behind place 0 after noted) call) :
    Document policy place progress call
  /-- The call for an element does not return. -/
  | broken {place next : Place} {progress progress' : Progress} {offset : Nat} {tag : Tag}
    {after : Cursor} {noted : Array (Nat × Irregularity)} {fault : Nat × Fatal}
    (read : progress.cursor.next = .event offset (.start tag) after)
    (taken : State.advance policy ⟨place, progress.noted⟩ offset (.start tag) =
      .ok ⟨next, noted⟩)
    (inside : Content policy next (progress.behind place 0 after noted)
      ⟨progress', .error fault⟩) :
    Document policy place progress ⟨progress', .error fault⟩
  /-- The call for an element returns, and the rest is read. -/
  | returned {place next next' : Place} {progress progress' : Progress} {offset : Nat} {tag : Tag}
    {after : Cursor} {noted : Array (Nat × Irregularity)} {call : Call Catalog}
    (read : progress.cursor.next = .event offset (.start tag) after)
    (taken : State.advance policy ⟨place, progress.noted⟩ offset (.start tag) =
      .ok ⟨next, noted⟩)
    (inside : Content policy next (progress.behind place 0 after noted) ⟨progress', .ok next'⟩)
    (more : Document policy next' progress' call) :
    Document policy place progress call

/-- A document is read in one of these ways. -/
theorem document_readDocument (policy : Policy) (place : Place) (progress : Progress) :
    Document policy place progress (readDocument policy place progress) := by
  induction progress using (measure fun progress : Progress => progress.cursor.size).wf.induction
    generalizing place with
  | h progress ih =>
    rw [readDocument]
    split
    next read => exact .finished read
    next read => exact .fault read
    next offset event after read =>
      have lt := Cursor.next_size_lt read
      split
      next taken => exact .refused read taken
      next next noted taken =>
        cases event with
        | start tag =>
          have inside := content_readContent policy next (progress.behind place 0 after noted)
          have le := (readContent policy next (progress.behind place 0 after noted)).2
          dsimp only
          split
          next broken => exact .broken read taken (broken ▸ inside)
          next next' returned =>
            exact .returned read taken (returned ▸ inside) (ih _ (Nat.lt_of_le_of_lt le lt) next')
        | stop | text | data | declaration | remark =>
          exact .passed read (fun tag => by simp) taken
            (ih (progress.behind place 0 after noted) lt next)

/-! ## Calls and the one loop -/

/-- The loop over the events of a document, with the cursors at which it asks for one, the
latest first. -/
def State.recorded (policy : Policy) (state : State) (cursor : Cursor) (asked : List Cursor) :
    List Cursor × Except (Nat × Fatal) (Catalog × Array (Nat × Irregularity)) :=
  match _read : cursor.next with
  | .finished offset =>
    (cursor :: asked, (state.place.finish.map (·, state.noted)).mapError (offset, ·))
  | .fault offset reason => (cursor :: asked, .error (offset, .malformed reason))
  | .event offset event after =>
    match State.advance policy state offset event with
    | .error fault => (cursor :: asked, .error fault)
    | .ok state => State.recorded policy state after (cursor :: asked)
termination_by cursor.size
decreasing_by exact Cursor.next_size_lt _read

namespace State

variable {policy : Policy} {state : State} {cursor after : Cursor} {offset : Nat}
  {event : MarkupEvent}

/-- The loop ends with the document. -/
theorem recorded_of_finished (read : cursor.next = .finished offset) (asked : List Cursor) :
    state.recorded policy cursor asked =
      (cursor :: asked, (state.place.finish.map (·, state.noted)).mapError (offset, ·)) := by
  rw [recorded]
  split <;> simp_all

/-- It ends where the document is not well formed. -/
theorem recorded_of_fault {reason : MarkupFault} (read : cursor.next = .fault offset reason)
    (asked : List Cursor) :
    state.recorded policy cursor asked = (cursor :: asked, .error (offset, .malformed reason)) := by
  rw [recorded]
  split <;> simp_all

/-- It takes each event before it asks for the next. -/
theorem recorded_of_event (read : cursor.next = .event offset event after)
    (asked : List Cursor) :
    state.recorded policy cursor asked =
      match State.advance policy state offset event with
      | .error fault => (cursor :: asked, .error fault)
      | .ok state => state.recorded policy after (cursor :: asked) := by
  rw [recorded]
  split
  next equation => simp [read] at equation
  next equation => simp [read] at equation
  next equation =>
    rw [read] at equation
    injection equation with same_offset same_event same_after
    subst same_offset same_event same_after
    rfl

/-- The record does not change what the loop comes to. -/
theorem recorded_outcome (policy : Policy) (state : State) (cursor : Cursor)
    (asked : List Cursor) :
    (state.recorded policy cursor asked).2 =
      (cursor.fold (State.advance policy) (fun offset fault => (offset, .malformed fault))
        state).bind fun reached =>
          (reached.2.place.finish.map (·, reached.2.noted)).mapError (reached.1, ·) := by
  induction cursor using Cursor.induction_next generalizing state asked with
  | event cursor offset event after read ih =>
    rw [recorded_of_event read, Cursor.fold_of_event read]
    cases State.advance policy state offset event with
    | error fault => rfl
    | ok state => exact ih state _
  | finished cursor offset read =>
    rw [recorded_of_finished read, Cursor.fold]
    split <;> (simp_all; try rfl)
  | fault cursor offset reason read =>
    rw [recorded_of_fault read, Cursor.fold]
    split <;> (simp_all; try rfl)

/-- An event that is taken leads where it leads without regard to the policy. -/
theorem take_of_advance {next : State} (h : State.advance policy state offset event = .ok next) :
    (state.place.take event).outcome = .ok next.place := by
  cases policy with
  | lenient =>
    rw [advance_lenient] at h
    split at h
    next place taken =>
      injection h with h
      rw [taken, ← h]
    · exact absurd h (by simp)
  | strict =>
    rw [advance_strict] at h
    split at h
    · exact absurd h (by simp)
    · split at h
      next place taken =>
        injection h with h
        rw [taken, ← h]
      · exact absurd h (by simp)

end State

/-- How reading goes on in the one loop when a call has come to its end. -/
def Call.continued (policy : Policy) (call : Call Place) :
    List Cursor × Except (Nat × Fatal) (Catalog × Array (Nat × Irregularity)) :=
  match call.outcome with
  | .error fault => (call.progress.asked, .error fault)
  | .ok next =>
    State.recorded policy ⟨next, call.progress.noted⟩ call.progress.cursor call.progress.asked

namespace Place

/-- What is no tag leaves the same elements open. -/
theorem roles_of_piece {place next : Place} {event : MarkupEvent} (piece : event.IsPiece)
    (h : (place.take event).outcome = .ok next) : next.roles = place.roles := by
  have part {node : Node} (h : (place.visit node).outcome = .ok next) : next.roles = place.roles :=
    visit_roles h
  cases event with
  | start | stop => exact piece.elim
  | text run => exact @part (.text run) h
  | data content => exact @part (.data content) h
  | declaration attributes => exact @part (.declaration attributes) h
  | remark => exact @part .remark h

/-- A start tag opens an element. -/
theorem roles_of_start {place next : Place} {tag : Tag}
    (h : (place.take (.start tag)).outcome = .ok next) : next.roles.tail = place.roles := by
  obtain ⟨role, behind, _⟩ := enter_isBehind h
  rw [behind, List.tail_cons]

/-- Behind a start tag an element is open. -/
theorem ne_nil_of_start {place next : Place} {tag : Tag}
    (h : (place.take (.start tag)).outcome = .ok next) : next.roles ≠ [] := by
  obtain ⟨role, behind, _⟩ := enter_isBehind h
  rw [behind]
  exact List.cons_ne_nil _ _

/-- An end tag closes the innermost open element. -/
theorem roles_of_stop {place next : Place} (h : (place.take .stop).outcome = .ok next) :
    next.roles = place.roles.tail := by
  obtain ⟨found, left, roles⟩ := leave_eq_ok place
  rw [take, left] at h
  injection h with same
  rw [← same, roles]

/-- Inside an element a document does not end. -/
theorem finish_of_inside {place : Place} (inside : place.roles ≠ []) :
    place.finish = .error (.malformed (.endInside place.element)) := by
  cases place with
  | document catalog => exact absurd rfl inside
  | root | context | message | location | forms | text | byte | skipped => rfl

end Place

/-- A call that passes over an element has come to its end, and has taken it. -/
theorem skipContent_eq_ok {policy : Policy} {place next : Place} {progress : Progress}
    (h : (skipContent policy place progress).outcome = .ok next) :
    ∃ offset noted, (skipElement place 0 progress).outcome = .ok offset ∧
      State.advance policy ⟨place, (skipElement place 0 progress).progress.noted⟩ offset .stop =
        .ok ⟨next, noted⟩ ∧
      (skipContent policy place progress).progress =
        { (skipElement place 0 progress).progress with noted := noted } := by
  unfold skipContent at h ⊢
  dsimp only at h ⊢
  split at h
  · exact absurd h (by simp)
  next offset passed =>
    split at h
    · exact absurd h (by simp)
    next found noted taken =>
      injection h with same
      subst same
      exact ⟨offset, noted, passed, taken, rfl⟩

/-- Behind an element those are open that were open before it. -/
theorem Content.roles_eq {policy : Policy} {place : Place} {progress : Progress} {call : Call Place}
    (h : Content policy place progress call) {final : Place} (returned : call.outcome = .ok final) :
    final.roles = place.roles.tail := by
  induction h generalizing final with
  | skipped =>
    obtain ⟨offset, noted, _, taken, _⟩ := skipContent_eq_ok returned
    exact Place.roles_of_stop (State.take_of_advance taken)
  | stopped read taken =>
    injection returned with same
    exact same ▸ Place.roles_of_stop (State.take_of_advance taken)
  | passed read piece taken more ih =>
    rw [ih returned, Place.roles_of_piece piece (State.take_of_advance taken)]
  | returned read taken inside more ih ih' =>
    rw [ih' returned, ih rfl, Place.roles_of_start (State.take_of_advance taken)]
  | finished | fault | refused | broken => exact absurd returned (by simp)

/-! ## Calls come to the same as the one loop -/

namespace Place

/-- The place at which some more elements are passed over. -/
def within (place : Place) (count : Nat) : Place := skipped^[count] place

/-- An element that is passed over may be inside others that are. -/
theorem within_succ (place : Place) (count : Nat) :
    place.within (count + 1) = skipped (place.within count) :=
  Function.iterate_succ_apply' skipped count place

/-- Inside an element that is passed over, all elements are. -/
theorem skips_within {place : Place} (skips : place.skips = true) (count : Nat) :
    (place.within count).skips = true := by
  cases count with
  | zero => exact skips
  | succ count =>
    rw [within_succ]
    rfl

/-- Where an element is passed over, a start tag leads into another one. -/
theorem take_start_of_skips {place : Place} (skips : place.skips = true) (tag : Tag) :
    place.take (.start tag) = pure (skipped place) := by
  cases place with
  | location | byte | skipped => rfl
  | document | root | context | message | forms | text => exact absurd skips (by simp [Place.skips])

/-- What is no tag does not matter there. -/
theorem take_piece_of_skips {place : Place} (skips : place.skips = true) {event : MarkupEvent}
    (piece : event.IsPiece) : place.take event = pure place := by
  cases place with
  | location | byte | skipped =>
    cases event with
    | start | stop => exact piece.elim
    | text | data | declaration | remark => rfl
  | document | root | context | message | forms | text => exact absurd skips (by simp [Place.skips])

end Place

namespace State

/-- A step that notes nothing is taken under every policy. -/
theorem advance_of_pure {policy : Policy} {state : State} {offset : Nat} {event : MarkupEvent}
    {next : Place} (taken : state.place.take event = pure next) :
    State.advance policy state offset event = .ok ⟨next, state.noted⟩ := by
  unfold advance
  rw [taken]
  cases policy <;> rfl

end State

/-- Passing over the content of an element by counting is what the one loop does, which
goes into each element inside of it and out of it again. -/
theorem recorded_skipElement (policy : Policy) {place : Place} (skips : place.skips = true)
    (count : Nat) (progress : Progress) :
    State.recorded policy ⟨place.within count, progress.noted⟩ progress.cursor progress.asked =
      let call := skipElement place count progress
      match call.outcome with
      | .error fault => (call.progress.asked, .error fault)
      | .ok offset =>
        match State.advance policy ⟨place, call.progress.noted⟩ offset .stop with
        | .error fault => (call.progress.asked, .error fault)
        | .ok state =>
          State.recorded policy state call.progress.cursor call.progress.asked := by
  induction progress using Progress.induction_next generalizing count with
  | event progress offset event after read ih =>
    have skipping := Place.skips_within skips count
    have later (count' : Nat) := ih (progress.behind place count after progress.noted) rfl count'
    have passed (piece : event.IsPiece) :
        State.advance policy ⟨place.within count, progress.noted⟩ offset event =
          .ok ⟨place.within count, progress.noted⟩ :=
      State.advance_of_pure (Place.take_piece_of_skips skipping piece)
    rw [State.recorded_of_event read]
    cases event with
    | start tag =>
      rw [State.advance_of_pure (Place.take_start_of_skips skipping tag), ← Place.within_succ,
        skipElement_of_event read]
      exact later (count + 1)
    | stop =>
      cases count with
      | zero =>
        rw [skipElement_of_event read]
        rfl
      | succ count =>
        have out : (place.within (count + 1)).take .stop = pure (place.within count) := by
          rw [Place.within_succ]
          rfl
        rw [State.advance_of_pure out, skipElement_of_counted read]
        exact later count
    | text | data | declaration | remark =>
      rw [passed trivial, skipElement_of_event read]
      exact later count
  | finished progress offset read =>
    have inside : (place.within count).finish = .error (.malformed (.endInside "element")) := by
      cases shape : place.within count with
      | location | byte | skipped => rfl
      | document | root | context | message | forms | text =>
        have skipping := Place.skips_within skips count
        rw [shape] at skipping
        exact absurd skipping (by simp [Place.skips])
    rw [State.recorded_of_finished read, skipElement_of_finished read, inside]
    rfl
  | fault progress offset reason read =>
    rw [State.recorded_of_fault read, skipElement_of_fault read]
    rfl

/-- Passing over an element comes to the same as the one loop. -/
theorem recorded_skipContent (policy : Policy) {place : Place} (skips : place.skips = true)
    (progress : Progress) :
    State.recorded policy ⟨place, progress.noted⟩ progress.cursor progress.asked =
      (skipContent policy place progress).continued policy := by
  have same := recorded_skipElement policy skips 0 progress
  rw [show place.within 0 = place from rfl, show ((0 : Nat) : Int) = 0 from rfl] at same
  rw [same, skipContent, Call.continued]
  dsimp only
  cases (skipElement place 0 progress).outcome with
  | error fault => rfl
  | ok offset =>
    dsimp only
    cases State.advance policy ⟨place, (skipElement place 0 progress).progress.noted⟩ offset .stop with
    | error fault => rfl
    | ok state => rfl

/-- Reading the content of an element in a call comes to the same as the one loop. The
elements around are open as long as the call lasts, so the document cannot end well. -/
theorem Content.recorded_eq {policy : Policy} {place : Place} {progress : Progress}
    {call : Call Place} (h : Content policy place progress call) (inside : place.roles ≠ []) :
    State.recorded policy ⟨place, progress.noted⟩ progress.cursor progress.asked =
      call.continued policy := by
  induction h with
  | skipped skips => exact recorded_skipContent policy skips _
  | finished read =>
    rw [State.recorded_of_finished read, Place.finish_of_inside inside]
    rfl
  | fault read =>
    rw [State.recorded_of_fault read]
    rfl
  | refused read taken =>
    rw [State.recorded_of_event read, taken]
    rfl
  | stopped read taken =>
    rw [State.recorded_of_event read, taken]
    rfl
  | passed read piece taken more ih =>
    have same := Place.roles_of_piece piece (State.take_of_advance taken)
    rw [State.recorded_of_event read, taken]
    exact ih (by rw [same]; exact inside)
  | broken read taken element ih =>
    rw [State.recorded_of_event read, taken]
    exact ih (Place.ne_nil_of_start (State.take_of_advance taken))
  | returned read taken element more ih ih' =>
    have opened := Place.roles_of_start (State.take_of_advance taken)
    have closed := (element.roles_eq rfl).trans opened
    have inner := ih (Place.ne_nil_of_start (State.take_of_advance taken))
    rw [State.recorded_of_event read, taken]
    exact inner.trans (ih' (by rw [closed]; exact inside))

/-- Reading a document with calls comes to the same as the one loop. -/
theorem Document.recorded_eq {policy : Policy} {place : Place} {progress : Progress}
    {call : Call Catalog} (h : Document policy place progress call) (outside : place.roles = []) :
    State.recorded policy ⟨place, progress.noted⟩ progress.cursor progress.asked =
      (call.progress.asked, call.outcome.map (·, call.progress.noted)) := by
  induction h with
  | @finished place progress offset read =>
    rw [State.recorded_of_finished read]
    cases place.finish <;> rfl
  | fault read =>
    rw [State.recorded_of_fault read]
    rfl
  | refused read taken =>
    rw [State.recorded_of_event read, taken]
    rfl
  | @passed place next progress offset event after noted call read other taken more ih =>
    have still : next.roles = [] := by
      cases event with
      | start tag => exact absurd rfl (other tag)
      | stop => rw [Place.roles_of_stop (State.take_of_advance taken), outside, List.tail_nil]
      | text | data | declaration | remark =>
        rw [Place.roles_of_piece (by trivial) (State.take_of_advance taken), outside]
    rw [State.recorded_of_event read, taken]
    exact ih still
  | broken read taken element =>
    have inner := element.recorded_eq (Place.ne_nil_of_start (State.take_of_advance taken))
    rw [State.recorded_of_event read, taken]
    exact inner
  | returned read taken element more ih =>
    have opened := Place.roles_of_start (State.take_of_advance taken)
    have inner := element.recorded_eq (Place.ne_nil_of_start (State.take_of_advance taken))
    rw [State.recorded_of_event read, taken]
    exact inner.trans (ih (by rw [element.roles_eq rfl, opened, outside]))

end Reader

namespace Report

/-- What is reported of a document that comes to a catalog with notes, or to a fault. -/
def ofOutcome (text : List Char) :
    Except (Nat × Reader.Fatal) (Catalog × Array (Nat × Irregularity)) →
      Except CatalogError Report
  | .error (offset, fatal) => .error (fatal.at (Position.ofOffset text offset))
  | .ok (catalog, noted) =>
    .ok ⟨catalog, noted.toList.map fun (offset, reason) =>
      ⟨Position.ofOffset text offset, reason⟩⟩

/-- A document is reported as the one loop comes to its end. -/
theorem ofChars_eq_ofOutcome (policy : Policy) (text : List Char) :
    ofChars policy text =
      ofOutcome text
        (Reader.State.recorded policy Reader.State.initial (Cursor.ofText text) []).2 := by
  rw [Reader.State.recorded_outcome]
  unfold ofChars
  dsimp only
  cases (Cursor.ofText text).fold (Reader.State.advance policy)
      (fun offset fault => (offset, .malformed fault)) Reader.State.initial with
  | error fault => rfl
  | ok reached =>
    simp only [Except.bind]
    cases reached.2.place.finish <;> rfl

/-- What is reported of a document that is read in a call. -/
def ofCall (text : List Char) (call : Reader.Call Catalog) : Except CatalogError Report :=
  ofOutcome text (call.outcome.map (·, call.progress.noted))

/-- A document is reported as it is read with a call for every element. -/
theorem ofChars_eq_ofCall (policy : Policy) (text : List Char) :
    ofChars policy text =
      ofCall text (Reader.readDocument policy (.document none) (.start text)) := by
  have same := (Reader.document_readDocument policy (.document none) (.start text)).recorded_eq rfl
  rw [ofChars_eq_ofOutcome]
  exact congrArg (fun loop => ofOutcome text loop.2) same

end Report

end MessageCatalog
